import Mathlib.Data.List.Forall2
import WebAudit.Markup.Checks
import WebAudit.Proofs.Analysis.Embedded
import WebAudit.Proofs.Markup.BlockLines

/-!
# What becomes of the scripts of a page

A script that can be executed stands on the page, or at an address, or it is empty. The check for inline
scripts, the inline blocks and the external assets each look for scripts on their own. They agree: a script
on the page is reported and is a block, and one at an address is an asset.
-/

namespace WebAudit.Markup

mutual

def Node.characters : Node → List Char
  | .text _ cs => cs
  | .element _ children => Node.charactersAll children

def Node.charactersAll : List Node → List Char
  | [] => []
  | n :: ns => n.characters ++ Node.charactersAll ns

end

inductive ScriptUse where
  | inline
  | external
  /-- There is no address, and nothing but blanks on the page. -/
  | empty
deriving DecidableEq, Repr

namespace Site

def content (s : Site) : List Char :=
  Node.charactersAll s.children

def Found (s : Site) : ScriptUse → Prop
  | .inline => s.tag.get "src" = "" ∧ s.content.all Text.isBlank = false
  | .external => s.tag.get "src" ≠ ""
  | .empty => s.tag.get "src" = "" ∧ s.content.all Text.isBlank = true

/-- The element is a script that can be executed, and is found in a certain way. -/
def Used (s : Site) (use : ScriptUse) : Prop :=
  s.tag.name = "script" ∧ s.tag.isExecutable = true ∧ s.Found use

instance (s : Site) : (use : ScriptUse) → Decidable (s.Found use)
  | .inline => inferInstanceAs (Decidable (_ ∧ _))
  | .external => inferInstanceAs (Decidable (_ ≠ _))
  | .empty => inferInstanceAs (Decidable (_ ∧ _))

instance (s : Site) (use : ScriptUse) : Decidable (s.Used use) :=
  inferInstanceAs (Decidable (_ ∧ _ ∧ _))

theorem existsUnique_found (s : Site) : ∃! use, s.Found use := by
  by_cases hSrc : s.tag.get "src" = ""
  · cases hBlank : s.content.all Text.isBlank with
    | true =>
      refine ⟨.empty, ⟨hSrc, hBlank⟩, ?_⟩
      rintro (_ | _ | _) hFound
      · exact absurd (hFound.2.symm.trans hBlank) Bool.false_ne_true
      · exact absurd hSrc hFound
      · rfl
    | false =>
      refine ⟨.inline, ⟨hSrc, hBlank⟩, ?_⟩
      rintro (_ | _ | _) hFound
      · rfl
      · exact absurd hSrc hFound
      · exact absurd (hBlank.symm.trans hFound.2) Bool.false_ne_true
  · refine ⟨.external, hSrc, ?_⟩
    rintro (_ | _ | _) hFound
    · exact absurd hFound.1 hSrc
    · rfl
    · exact absurd hFound.1 hSrc

/-! ## Scripts on the page -/

theorem content_eq_string {d : Document} {s : Site} (hVerbatim : ∀ n ∈ d.nodes, n.Verbatim d.source)
    (hSite : s ∈ d.sites) (hScript : s.tag.name = "script") : s.content = s.string := by
  obtain ⟨n, hn, hSite⟩ := mem_sitesAll.mp hSite
  have hRaw : rawElements.contains s.tag.name = true := by
    rw [hScript]
    decide
  rcases (hVerbatim n hn).site hSite hRaw with hNone | ⟨role, content, hOne, -⟩
  · rw [Site.content, Site.string, hNone]
    rfl
  · rw [Site.content, Site.string, hOne]
    simp [Node.charactersAll, Node.characters]

theorem used_inline_iff {d : Document} {s : Site} (hVerbatim : ∀ n ∈ d.nodes, n.Verbatim d.source)
    (hSite : s ∈ d.sites) : s.Used .inline ↔ (s.isInlineScript && s.hasContent) = true := by
  simp only [Used, Found, isInlineScript, hasContent, Bool.and_eq_true, beq_iff_eq, String.isEmpty_iff,
    Bool.not_eq_true']
  constructor
  · rintro ⟨hScript, hExecutable, hSrc, hShown⟩
    rw [content_eq_string hVerbatim hSite hScript] at hShown
    exact ⟨⟨⟨hScript, hSrc⟩, hExecutable⟩, hShown⟩
  · rintro ⟨⟨⟨hScript, hSrc⟩, hExecutable⟩, hShown⟩
    rw [← content_eq_string hVerbatim hSite hScript] at hShown
    exact ⟨hScript, hExecutable, hSrc, hShown⟩

end Site

namespace Document

variable {source base : String} {d : Document}

theorem isBlock_and_script (s : Site) :
    (isBlock s && (d.inlineBlock s).kind == .script) = (s.isInlineScript && s.hasContent) := by
  rw [isBlock, inlineBlock, Site.isInlineScript]
  cases hName : s.tag.name == "script" with
  | true =>
    rw [eq_of_beq hName]
    simp
  | false => simp

theorem inlineScripts_eq (hVerbatim : ∀ n ∈ d.nodes, n.Verbatim d.source) :
    d.inlineScripts = (d.sites.filter (·.Used .inline)).map (·.tag.hit) := by
  rw [inlineScripts]
  congr 1
  apply List.filter_congr
  intro s hs
  rw [Bool.eq_iff_iff, ← Site.used_inline_iff hVerbatim hs, decide_eq_true_iff]

theorem scriptBlocks_eq (hVerbatim : ∀ n ∈ d.nodes, n.Verbatim d.source) :
    d.inlineBlocks.filter (·.kind == .script) = (d.sites.filter (·.Used .inline)).map fun s =>
      ⟨.script, String.ofList s.content, d.contentLine s.tag⟩ := by
  rw [inlineBlocks, List.filter_map, List.filter_filter]
  have hFilter : d.sites.filter (fun s => ((·.kind == .script) ∘ d.inlineBlock) s && isBlock s) =
      d.sites.filter (·.Used .inline) := by
    apply List.filter_congr
    intro s hs
    rw [Function.comp_apply, Bool.and_comm, isBlock_and_script, Bool.eq_iff_iff,
      ← Site.used_inline_iff hVerbatim hs, decide_eq_true_iff]
  rw [hFilter]
  apply List.map_congr_left
  intro s hs
  obtain ⟨hSite, hUsed⟩ := List.mem_filter.mp hs
  have hScript := (of_decide_eq_true hUsed).1
  rw [inlineBlock, Site.content_eq_string hVerbatim hSite hScript, hScript]
  rfl

/-! ## Scripts at an address -/

theorem scriptReference_eq (s : Site) :
    (reference? s.tag).filter (·.2 == .script) =
      if s.Used .external then some (s.tag.get "src", .script) else none := by
  rw [reference?]
  cases hName : s.tag.name == "script" with
  | true =>
    have hUsed : s.Used .external ↔ (!(s.tag.get "src").isEmpty && s.tag.isExecutable) = true := by
      simp [Site.Used, Site.Found, eq_of_beq hName, and_comm]
    simp only [hUsed, if_true]
    split
    · rfl
    · rfl
  | false =>
    have hOther : ¬ s.Used .external := fun hUsed => ne_of_beq_false hName hUsed.1
    rw [if_neg hOther]
    simp only [Bool.false_eq_true, if_false]
    split
    · rfl
    · rfl

theorem scriptReferences_eq (d : Document) :
    d.references.filter (·.2 == .script) =
      (d.sites.filter (·.Used .external)).map fun s => (s.tag.get "src", .script) := by
  rw [references, List.filter_filterMap]
  induction d.sites with
  | nil => rfl
  | cons s ss ih =>
    rw [List.filterMap_cons, scriptReference_eq, List.filter_cons, ih]
    by_cases hUsed : s.Used .external
    · simp [hUsed]
    · simp [hUsed]

theorem forall₂_scriptAssets {assets : List Asset} (h : d.assets base = .ok assets) :
    List.Forall₂ (fun s a => Url.join base (s.tag.get "src") = .ok a.url)
      (d.sites.filter (·.Used .external)) (assets.filter (·.kind == .script)) := by
  unfold Document.assets at h
  rcases mapM_cases (resolve base) d.references with ⟨found, hFound, hAll⟩ | ⟨x, -, fault, -, hFault⟩
  · cases hFound.symm.trans h
    have hJoined : List.Forall₂ (fun x a => Url.join base x.1 = .ok a.url ∧ x.2 = a.kind)
        d.references assets := by
      refine hAll.imp ?_
      intro x asset hAsset
      obtain ⟨url, hJoin, rfl⟩ := join_of_resolve hAsset
      exact ⟨hJoin, rfl⟩
    have hScripts := List.rel_filter (p := (·.2 == .script)) (q := (·.kind == .script))
      (fun x a hx => by simp only [hx.2]) hJoined
    rw [scriptReferences_eq, List.forall₂_map_left_iff] at hScripts
    exact hScripts.imp fun s a hJoin => hJoin.1
  · cases hFault.symm.trans h

/-- A script that can be executed is accounted for once: it is reported as inline and is a block with all
that it holds, or it is an asset, or there is nothing to it. -/
theorem scripts_accounted_once {assets : List Asset} (hParse : parse source = .ok d)
    (hAssets : d.assets base = .ok assets) :
    d.inlineScripts = (d.sites.filter (·.Used .inline)).map (·.tag.hit) ∧
    (d.inlineBlocks.filter (·.kind == .script) = (d.sites.filter (·.Used .inline)).map fun s =>
      ⟨.script, String.ofList s.content, d.contentLine s.tag⟩) ∧
    List.Forall₂ (fun s a => Url.join base (s.tag.get "src") = .ok a.url)
      (d.sites.filter (·.Used .external)) (assets.filter (·.kind == .script)) ∧
    ∀ s ∈ d.sites, s.tag.name = "script" →
      (s.tag.isExecutable = true → ∃! use, s.Used use) ∧
      (s.tag.isExecutable = false → ∀ use, ¬ s.Used use) := by
  obtain ⟨-, hVerbatim⟩ := verbatim_of_parse hParse
  refine ⟨inlineScripts_eq hVerbatim, scriptBlocks_eq hVerbatim, forall₂_scriptAssets hAssets, ?_⟩
  intro s _ hScript
  constructor
  · intro hExecutable
    obtain ⟨use, hFound, hOnly⟩ := s.existsUnique_found
    exact ⟨use, ⟨hScript, hExecutable, hFound⟩, fun other hUsed => hOnly other hUsed.2.2⟩
  · rintro hOther use ⟨-, hExecutable, -⟩
    exact Bool.false_ne_true (hOther.symm.trans hExecutable)

def mixedScripts : String :=
  "<script>f()</script><script src=a.js></script><script> </script><script type=x>g()</script>"

theorem mixedScripts_accounted_once :
    ∃ d assets, parse mixedScripts = .ok d ∧ d.assets "http://h/p/" = .ok assets ∧
      d.inlineBlocks = [⟨.script, "f()", 0⟩] ∧ assets = [⟨"http://h/p/a.js", .script⟩] ∧
      d.inlineScripts = (d.sites.filter (·.Used .inline)).map (·.tag.hit) ∧
      ∃ s ∈ d.sites, s.Used .empty ∧ ∃! use, s.Used use := by
  have hView : (parse mixedScripts).toOption.map (fun d => (d.inlineBlocks,
      (d.assets "http://h/p/").toOption, d.sites.any (·.Used .empty))) =
        some ([⟨.script, "f()", 0⟩], some [⟨"http://h/p/a.js", .script⟩], true) := by
    decide +kernel
  cases hParse : parse mixedScripts with
  | error rejection =>
    rw [hParse] at hView
    cases hView
  | ok d =>
    rw [hParse] at hView
    obtain ⟨hBlocks, hRest⟩ := Prod.mk.inj (Option.some.inj hView)
    obtain ⟨hFound, hEmpty⟩ := Prod.mk.inj hRest
    cases hAssets : d.assets "http://h/p/" with
    | error fault =>
      rw [hAssets] at hFound
      cases hFound
    | ok assets =>
      rw [hAssets] at hFound
      obtain ⟨hInline, -, -, hOnce⟩ := scripts_accounted_once hParse hAssets
      obtain ⟨s, hSite, hUsed⟩ := List.any_eq_true.mp hEmpty
      have hUsed : s.Used .empty := of_decide_eq_true hUsed
      refine ⟨d, assets, rfl, hAssets, hBlocks, Option.some.inj hFound, hInline, s, hSite, hUsed, ?_⟩
      exact (hOnce s hSite hUsed.1).1 hUsed.2.1

end Document

end WebAudit.Markup
