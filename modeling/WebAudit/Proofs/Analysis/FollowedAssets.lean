import WebAudit.Proofs.Analysis.Embedded
import WebAudit.Proofs.Url.Accepted

/-!
# Pages whose assets are followed

To follow the assets of a page adds their addresses to its outcome, if all of them can be resolved. One that
is refused ends the analysis of the whole page: what was found on it is lost, and so are its inline blocks.
-/

namespace WebAudit

namespace Markup.Document

theorem assets_cases (d : Document) (base : String) :
    (∃ found, d.assets base = .ok found ∧ ∀ x ∈ d.references, ∃ url, Url.join base x.1 = .ok url) ∨
    ∃ x ∈ d.references, ∃ fault, Url.join base x.1 = .error fault ∧ d.assets base = .error fault := by
  have hOk : ∀ x asset, resolve base x = .ok asset → ∃ url, Url.join base x.1 = .ok url := by
    intro x asset hAsset
    obtain ⟨url, hJoin, -⟩ := join_of_resolve hAsset
    exact ⟨url, hJoin⟩
  have hError : ∀ x fault, resolve base x = .error fault → Url.join base x.1 = .error fault := by
    intro x fault hFault
    unfold resolve at hFault
    cases hJoin : Url.join base x.1 with
    | error cause =>
      rw [hJoin] at hFault
      cases hFault
      rfl
    | ok url =>
      rw [hJoin] at hFault
      cases hFault
  unfold assets
  rcases mapM_cases (resolve base) d.references with ⟨found, hFound, hAll⟩ | ⟨x, hx, fault, hFault, hWhole⟩
  · have hJoined := hAll.imp fun x asset h => And.intro (hOk x asset h) trivial
    exact .inl ⟨found, hFound, ((List.forall₂_and_left _ _).mp hJoined).1⟩
  · exact .inr ⟨x, hx, fault, hError x fault hFault, hWhole⟩

end Markup.Document

namespace Record

variable {record : Record}

/-- The assets of the record are not looked for, or all of their addresses can be resolved. -/
def Followable (record : Record) : Prop :=
  record.synthetic = true ∨ ∀ d, Markup.parse record.content = .ok d →
    ∀ x ∈ d.references, ∃ url, Url.join record.path x.1 = .ok url

/-! ## Addresses of a page -/

theorem parse_markup (hKind : record.kind = .markup) {d : Markup.Document}
    (h : Markup.parse record.content = .ok d) : record.parse = .ok (some (.markup d)) := by
  unfold parse
  rw [hKind, h]

theorem markup_of_parse {d : Markup.Document} (h : record.parse = .ok (some (.markup d))) :
    Markup.parse record.content = .ok d := by
  unfold parse at h
  split at h
  · cases h
  · split at h <;> cases h
  · split at h
    · rename_i hParse
      cases h
      exact hParse
    · cases h
  · cases h

theorem Followable.assetsOf (h : record.Followable) :
    ∃ assets, record.assetsOf record.parse true = .ok assets := by
  unfold Record.assetsOf
  split
  · rename_i d hParse
    cases hPart : record.synthetic with
    | true => exact ⟨[], rfl⟩
    | false =>
      rcases h with hSynthetic | hResolved
      · exact absurd (hPart.symm.trans hSynthetic) Bool.false_ne_true
      · rcases d.assets_cases record.path with ⟨found, hFound, -⟩ | ⟨x, hx, fault, hFault, -⟩
        · exact ⟨found, by rw [hFound]; rfl⟩
        · obtain ⟨url, hUrl⟩ := hResolved d (markup_of_parse hParse) x hx
          exact nomatch hFault.symm.trans hUrl
  · exact ⟨[], rfl⟩

theorem refused_of_not_followable (hKind : record.kind = .markup) (h : ¬ record.Followable) :
    ∃ d x fault, record.parse = .ok (some (.markup d)) ∧ x ∈ d.references ∧
      Url.join record.path x.1 = .error fault ∧
      record.assetsOf record.parse true = .error (.badAddress fault) := by
  simp only [Followable, not_or, not_forall] at h
  obtain ⟨hPart, d, hParse, x, hx, hRefused⟩ := h
  rw [parse_markup hKind hParse]
  rcases d.assets_cases record.path with ⟨found, -, hAll⟩ | ⟨y, hy, fault, hFault, hError⟩
  · exact absurd (hAll x hx) hRefused
  · refine ⟨d, y, fault, rfl, hy, hFault, ?_⟩
    have hFollows : (true && !record.synthetic) = true := by simpa using hPart
    unfold assetsOf
    dsimp only
    rw [if_pos hFollows, hError]
    rfl

/-! ## Outcomes -/

theorem ruleId_structuralInspection {d : Markup.Document} {toggles : Toggles} {f : Finding}
    (hf : f ∈ (record.structuralInspection (.ok (some (.markup d))) toggles).findings) :
    f.ruleId ≠ analysisError.id := by
  obtain ⟨group, -, rule, hRule, hOf⟩ := exists_structural_rule hf
  rw [hOf.ruleId]
  exact Catalogue.Group.id_ne_analysisError hRule

theorem ruleId_lexicalInspection {toggles : Toggles} {nesting : Nat} {f : Finding}
    (hf : f ∈ (record.lexicalInspection toggles nesting).findings) : f.ruleId ≠ analysisError.id := by
  obtain ⟨rule, hRule, hOf⟩ := exists_lexical_rule hf
  rw [hOf.ruleId]
  exact Catalogue.Group.id_ne_analysisError hRule

/-- Apart from the assets there is one outcome for both ways, and it is lost if they cannot be resolved. -/
theorem Placed.exists_outcome (h : record.Placed) (toggles : Toggles) (nesting : Nat) :
    ∃ o : Outcome, o.imports = record.importsOf record.parse toggles ∧
      (∀ follow assets, record.assetsOf record.parse follow = .ok assets →
        record.analyze toggles nesting follow = .ok { o with assets }) ∧
      (∀ follow fault, record.assetsOf record.parse follow = .error fault →
        record.analyze toggles nesting follow = record.failedOutcome fault o.events toggles) ∧
      ∀ d, record.parse = .ok (some (.markup d)) → ∀ f ∈ o.findings, f.ruleId ≠ analysisError.id := by
  obtain ⟨full, -, -, hComplaints⟩ := h.parseFindings record.parse toggles
  let inspection := Inspection.join
    [record.structuralInspection record.parse toggles, record.lexicalInspection toggles nesting]
  refine ⟨{
    record
    findings := full.filter toggles.selects ++ inspection.findings
    imports := record.importsOf record.parse toggles
    derived := record.derivedFrom record.parse
    events := record.eventsOf record.parse inspection }, rfl, ?_, ?_, ?_⟩
  · intro follow assets hAssets
    unfold Record.analyze
    dsimp only
    rw [hComplaints, hAssets]
    rfl
  · intro follow fault hFault
    unfold Record.analyze
    dsimp only
    rw [hComplaints, hFault]
    rfl
  · intro d hParse f hf
    have hNone : full.filter toggles.selects = [] := by
      rw [hParse] at hComplaints
      exact (Except.ok.inj hComplaints).symm
    simp only [hNone, List.nil_append, inspection, Inspection.join, List.flatMap_cons, List.flatMap_nil,
      List.append_nil, List.mem_append, hParse] at hf
    rcases hf with hf | hf
    · exact ruleId_structuralInspection hf
    · exact ruleId_lexicalInspection hf

theorem Placed.failedOutcome_eq (h : record.Placed) (fault : AnalysisFault) (events : List Event)
    (toggles : Toggles) :
    ∃ o, record.failedOutcome fault events toggles = .ok o ∧ o.imports = none ∧ o.derived = [] ∧ o.assets = [] ∧
      o.findings.map (·.ruleId) = if toggles.isEnabled .quality then [analysisError.id] else [] := by
  obtain ⟨f, hOk, hOf⟩ := h.complaint analysisError ⟨1, none, "Analysis failed: " ++ fault.message⟩
  unfold Record.failedOutcome
  have hConcern : analysisError.concern = .quality := rfl
  dsimp only
  rw [hOk, hConcern]
  split
  · exact ⟨_, rfl, rfl, rfl, rfl, congrArg (fun id => [id]) hOf.ruleId⟩
  · exact ⟨_, rfl, rfl, rfl, rfl, rfl⟩

theorem followable_of_sober (hPath : Url.Sober record.path)
    (hReferences : ∀ d, Markup.parse record.content = .ok d → ∀ x ∈ d.references, Url.Sober x.1) :
    record.Followable :=
  .inr fun d hParse x hx => hPath.join (hReferences d hParse x hx)

/-- If all addresses on a page can be resolved, as sober ones can, then to follow its assets changes nothing
else in the outcome. If one is refused, all that is left is a complaint, where it is wanted. -/
theorem following_assets_keeps_page (hKind : record.kind = .markup) (hPlaced : record.Placed)
    (toggles : Toggles) (nesting : Nat) :
    ∃ plain followed, record.analyze toggles nesting false = .ok plain ∧
      record.analyze toggles nesting true = .ok followed ∧
      (record.Followable → followed = { plain with assets := followed.assets }) ∧
      (¬ record.Followable → followed.derived = [] ∧ followed.assets = [] ∧
        followed.findings.map (·.ruleId) = if toggles.isEnabled .quality then [analysisError.id] else []) ∧
      (toggles.isEnabled .quality = true → (followed.findings = plain.findings ↔ record.Followable)) ∧
      (Url.Sober record.path →
        (∀ d, Markup.parse record.content = .ok d → ∀ x ∈ d.references, Url.Sober x.1) →
        record.Followable) := by
  obtain ⟨o, -, hFound, hLost, hRules⟩ := hPlaced.exists_outcome toggles nesting
  have hPlain := hFound false [] (assetsOf_false _)
  by_cases hFollow : record.Followable
  · obtain ⟨assets, hAssets⟩ := hFollow.assetsOf
    refine ⟨_, _, hPlain, hFound true assets hAssets, fun _ => rfl, ?_, ?_, followable_of_sober⟩
    · intro hNot
      exact absurd hFollow hNot
    · intro _
      exact iff_of_true rfl hFollow
  · obtain ⟨d, x, fault, hParse, -, -, hRefused⟩ := refused_of_not_followable hKind hFollow
    obtain ⟨lost, hOutcome, -, hDerived, hAssets, hFindings⟩ :=
      hPlaced.failedOutcome_eq (.badAddress fault) o.events toggles
    refine ⟨_, lost, hPlain, (hLost true _ hRefused).trans hOutcome, ?_, ?_, ?_, followable_of_sober⟩
    · intro hYes
      exact absurd hYes hFollow
    · intro _
      exact ⟨hDerived, hAssets, hFindings⟩
    · intro hQuality
      rw [if_pos hQuality] at hFindings
      refine iff_of_false ?_ hFollow
      intro hSame
      -- the complaint would be among the findings of the detectors
      obtain ⟨f, hOne, hId⟩ := List.map_eq_singleton_iff.mp hFindings
      refine hRules d hParse f ?_ hId
      rw [← hSame, hOne]
      exact List.mem_singleton_self f

def assetPage : Record where
  path := "https://x.org/p.html"
  content := "<script src=lib.js></script><script>eval(x)</script>"
  kind := .markup
  sizeBytes := 52

theorem assetPage_keeps_findings :
    assetPage.kind = .markup ∧ assetPage.Placed ∧ assetPage.Followable ∧
    ∃ plain followed, assetPage.analyze .allOn 100 false = .ok plain ∧
      assetPage.analyze .allOn 100 true = .ok followed ∧
      followed = { plain with assets := [⟨"https://x.org/lib.js", .script⟩] } ∧
      plain.derived.map (·.content) = ["eval(x)"] := by
  have hKind : assetPage.kind = .markup := rfl
  have hPlaced : assetPage.Placed := Int.le_refl 0
  have hPath : Url.Sober assetPage.path := by decide +kernel
  have hView : (Markup.parse assetPage.content).toOption.map (·.references) = some [("lib.js", .script)] := by
    decide +kernel
  have hReferences : ∀ d, Markup.parse assetPage.content = .ok d → ∀ x ∈ d.references, Url.Sober x.1 := by
    intro d hParse x hx
    rw [hParse] at hView
    have hOnly : d.references = [("lib.js", .script)] := Option.some.inj hView
    rw [hOnly, List.mem_singleton] at hx
    subst hx
    decide +kernel
  have hAssets : (assetPage.analyze .allOn 100 true).toOption.map (·.assets) =
      some [⟨"https://x.org/lib.js", .script⟩] := by
    decide +kernel
  have hDerived : (assetPage.analyze .allOn 100 false).toOption.map (·.derived.map (·.content)) =
      some ["eval(x)"] := by
    decide +kernel
  obtain ⟨plain, followed, hPlain, hFollowed, hKeeps, -, -, hSober⟩ :=
    following_assets_keeps_page hKind hPlaced .allOn 100
  have hFollow := hSober hPath hReferences
  rw [hPlain] at hDerived
  rw [hFollowed] at hAssets
  have hFound : followed.assets = [⟨"https://x.org/lib.js", .script⟩] := Option.some.inj hAssets
  have hSame := hKeeps hFollow
  rw [hFound] at hSame
  exact ⟨hKind, hPlaced, hFollow, plain, followed, hPlain, hFollowed, hSame, Option.some.inj hDerived⟩

/-- A script whose address has a bracket that is never closed. -/
def refusedPage : Record where
  path := "page.html"
  content := "<script src=\"http://[bad/a.js\"></script><script>eval(x)</script>"
  kind := .markup
  sizeBytes := 65

theorem refusedPage_loses_findings :
    ((refusedPage.analyze .allOn 100 false).toOption.map fun o =>
      (o.findings.map (·.ruleId), o.derived.map (·.content))) =
        some (["missing-csp", "inline-script", "render-blocking-asset", "missing-title",
          "missing-meta-description"], ["eval(x)"]) ∧
    ((refusedPage.analyze .allOn 100 true).toOption.map fun o =>
      (o.findings.map (·.ruleId), o.derived.map (·.content))) = some (["analysis-error"], []) := by
  decide +kernel

end Record

end WebAudit
