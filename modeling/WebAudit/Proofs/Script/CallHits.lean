import WebAudit.Proofs.Script.Places
import WebAudit.Script.Detectors

/-!
# Where the detectors for calls report

Some detectors report calls and the few other constructs that do what a call does. These are never made up
of inserted tokens alone, so a hit stands in front of a character of the text, and its line is one more than
the number of newlines in front of it.
-/

namespace WebAudit

/-- The hit is at a character of the text, on the line that the newlines in front of it give. -/
structure Hit.PointsInto (text : List Char) (hit : Hit) : Prop where
  line : ∃ pre post, text = pre ++ post ∧ post ≠ [] ∧ hit.line = Text.newlines pre + 1
  snippet : hit.snippet = none
  wholeFile : hit.wholeFile = false

namespace Script

variable {text : List Char}

/-! ## Places -/

namespace Point

theorem row_walk (p : Point) (cs : List Char) : (p.walk cs).row = p.row + Text.newlines cs := by
  induction cs generalizing p with
  | nil => rfl
  | cons c cs ih =>
    rw [walk, List.foldl_cons, ← walk, ih, step, Text.newlines, Text.newlines, List.count_cons]
    split
    · simp_all
      omega
    · simp_all

theorem In.byte_le {p : Point} (h : p.In text) : p.byte ≤ (walk {} text).byte := by
  obtain ⟨rest, front, rfl, rfl⟩ := h
  rw [walk_append]
  exact byte_le_byte_walk _ rest

end Point

theorem Span.In.exists_start {s : Span} (h : s.In text) (hWidth : 0 < s.width) :
    ∃ pre post, text = pre ++ post ∧ post ≠ [] ∧ s.start.row = Text.newlines pre := by
  obtain ⟨post, pre, hText, hStart⟩ := h.start
  refine ⟨pre, post, hText.symm, ?_, ?_⟩
  · rintro rfl
    have hStop := h.stop.byte_le
    rw [List.append_nil] at hText
    rw [← hText, hStart] at hStop
    unfold width at hWidth
    omega
  · rw [← hStart, Point.row_walk, Nat.zero_add]

theorem Node.Within.exists_line {n : Node} (h : n.Within text) (hText : n.kind.hasText = true) :
    ∃ pre post, text = pre ++ post ∧ post ≠ [] ∧ (n.line : Int) = Text.newlines pre + 1 := by
  obtain ⟨pre, post, hSplit, hPost, hRow⟩ := h.span.exists_start (n.label.text hText)
  refine ⟨pre, post, hSplit, hPost, ?_⟩
  rw [Node.line, hRow, Int.natCast_add]
  rfl

/-! ## Constructs -/

def Node.Reports (n : Node) (hit : Hit) : Prop :=
  ∃ title description, hit = n.hit title description ∨ hit = n.startHit title description

theorem Node.reports_hit (n : Node) (title description : Option String) :
    n.Reports (n.hit title description) :=
  ⟨title, description, .inl rfl⟩

theorem Node.Within.pointsInto {n : Node} {hit : Hit} (h : n.Within text) (hText : n.kind.hasText = true)
    (hHit : n.Reports hit) : hit.PointsInto text := by
  obtain ⟨title, description, rfl | rfl⟩ := hHit
  · exact ⟨h.exists_line hText, rfl, rfl⟩
  · exact ⟨h.exists_line hText, rfl, rfl⟩

namespace Source

def Within (s : Source) (text : List Char) : Prop :=
  ∀ site ∈ s.sites, site.node.Within text

variable {s : Source} {k : Kind} {site : Site} {hit : Hit}

theorem Within.sitesOf (h : s.Within text) (hSite : site ∈ s.sitesOf k) :
    site.node.Within text ∧ site.node.kind = k := by
  obtain ⟨hMem, hKind⟩ := List.mem_filter.mp hSite
  exact ⟨h site hMem, eq_of_beq hKind⟩

theorem site_mem_of_mem_calls {c : Call} (hc : c ∈ s.calls) : c.site ∈ s.sitesOf .call := by
  obtain ⟨site, hSite, hCall⟩ := List.mem_filterMap.mp hc
  unfold callAt at hCall
  split at hCall
  · contradiction
  · dsimp only at hCall
    split at hCall
    · cases hCall
      exact hSite
    · cases hCall
      exact hSite

theorem Within.calls (h : s.Within text) {c : Call} (hc : c ∈ s.calls) :
    c.site.node.Within text ∧ c.site.node.kind = .call :=
  h.sitesOf (site_mem_of_mem_calls hc)

theorem Within.filterMap_sitesOf (h : s.Within text) (hText : k.hasText = true) {check : Node → Option Hit}
    (hCheck : ∀ n hit, check n = some hit → n.Reports hit) :
    ∀ hit ∈ (s.sitesOf k).filterMap (check ·.node), hit.PointsInto text := by
  intro hit hHit
  obtain ⟨site, hSite, hSome⟩ := List.mem_filterMap.mp hHit
  obtain ⟨hWithin, hKind⟩ := h.sitesOf hSite
  exact hWithin.pointsInto (hKind ▸ hText) (hCheck _ hit hSome)

theorem Within.filterMap_calls (h : s.Within text) {check : Call → Option Hit}
    (hCheck : ∀ c hit, check c = some hit → c.site.node.Reports hit) :
    ∀ hit ∈ s.calls.filterMap check, hit.PointsInto text := by
  intro hit hHit
  obtain ⟨c, hc, hSome⟩ := List.mem_filterMap.mp hHit
  obtain ⟨hWithin, hKind⟩ := h.calls hc
  exact hWithin.pointsInto (by rw [hKind]; rfl) (hCheck c hit hSome)

/-! ## Checks -/

theorem reports_evalHit (c : Call) (hit : Hit) (h : evalHit c = some hit) : c.site.node.Reports hit := by
  unfold evalHit at h
  split at h
  · contradiction
  · split at h
    · cases h
      exact Node.reports_hit _ _ _
    · split at h
      · split at h
        · cases h
          exact Node.reports_hit _ _ _
        · cases h
          exact Node.reports_hit _ _ _
        · contradiction
      · contradiction

theorem reports_functionConstructorHit (n : Node) (hit : Hit) (h : s.functionConstructorHit n = some hit) :
    n.Reports hit := by
  unfold functionConstructorHit at h
  split at h
  · cases h
    exact n.reports_hit _ _
  · contradiction

theorem Within.dynamicEval (h : s.Within text) : ∀ hit ∈ s.dynamicEval, hit.PointsInto text :=
  List.forall_mem_append.mpr ⟨h.filterMap_calls reports_evalHit,
    h.filterMap_sitesOf rfl reports_functionConstructorHit⟩

theorem reports_markupAssignmentHit (n : Node) (hit : Hit) (h : s.markupAssignmentHit n = some hit) :
    n.Reports hit := by
  unfold markupAssignmentHit at h
  split at h
  · split at h
    · cases h
      exact n.reports_hit _ _
    · contradiction
  · contradiction

theorem reports_markupCallHit (c : Call) (hit : Hit) (h : markupCallHit c = some hit) :
    c.site.node.Reports hit := by
  unfold markupCallHit at h
  split at h
  · cases h
    exact Node.reports_hit _ _ _
  · split at h
    · cases h
      exact Node.reports_hit _ _ _
    · contradiction

theorem reports_elementMarkupHit (n : Node) (hit : Hit) (h : s.elementMarkupHit n = some hit) :
    n.Reports hit := by
  unfold elementMarkupHit at h
  split at h
  · cases h
    exact n.reports_hit _ _
  · contradiction

theorem Within.markupWrites (h : s.Within text) : ∀ hit ∈ s.markupWrites, hit.PointsInto text := by
  unfold Source.markupWrites
  simp only [List.forall_mem_append]
  exact ⟨⟨⟨h.filterMap_sitesOf rfl reports_markupAssignmentHit,
    h.filterMap_sitesOf rfl reports_markupAssignmentHit⟩, h.filterMap_calls reports_markupCallHit⟩,
    h.filterMap_sitesOf rfl reports_elementMarkupHit⟩

theorem Within.queriesInLoops (h : s.Within text) : ∀ hit ∈ s.queriesInLoops, hit.PointsInto text := by
  refine h.filterMap_calls ?_
  intro c hit hSome
  split at hSome
  · cases hSome
    exact Node.reports_hit _ _ _
  · contradiction

theorem Within.unpaired (h : s.Within text) (setter clearer : String) :
    ∀ hit ∈ s.unpaired setter clearer, hit.PointsInto text := by
  intro hit hHit
  unfold Source.unpaired at hHit
  dsimp only at hHit
  split at hHit
  · contradiction
  · obtain ⟨c, hc, rfl⟩ := List.mem_map.mp hHit
    obtain ⟨hWithin, hKind⟩ := h.calls (List.mem_filter.mp hc).1
    exact hWithin.pointsInto (by rw [hKind]; rfl) (Node.reports_hit _ _ _)

theorem Within.debugStatements (h : s.Within text) : ∀ hit ∈ s.debugStatements, hit.PointsInto text := by
  refine List.forall_mem_append.mpr ⟨h.filterMap_calls ?_, ?_⟩
  · intro c hit hSome
    split at hSome
    · cases hSome
      exact Node.reports_hit _ _ _
    · contradiction
  · intro hit hHit
    obtain ⟨site, hSite, rfl⟩ := List.mem_map.mp hHit
    obtain ⟨hWithin, hKind⟩ := h.sitesOf hSite
    exact hWithin.pointsInto (by rw [hKind]; rfl) ⟨_, _, .inr rfl⟩

theorem mem_of_mem_oncePerLine {seen : List Nat} {candidates : List (Site × String)} {p : Site × String}
    (hp : p ∈ oncePerLine seen candidates) : p ∈ candidates := by
  induction candidates generalizing seen with
  | nil => contradiction
  | cons c candidates ih =>
    unfold oncePerLine at hp
    dsimp only at hp
    split at hp
    · exact List.mem_cons_of_mem c (ih hp)
    · rcases List.mem_cons.mp hp with rfl | hp
      · exact List.mem_cons_self
      · exact List.mem_cons_of_mem c (ih hp)

theorem Within.awaited (h : s.Within text) {child : Site} (hSite : site ∈ s.sitesOf .await)
    (hChild : awaited site = some child) : child.node.Within text ∧ child.node.kind = .call := by
  unfold Source.awaited at hChild
  split at hChild
  · rename_i c hFind
    split at hChild
    · rename_i hKind
      cases hChild
      obtain ⟨n, hn, rfl⟩ := List.mem_map.mp (List.mem_of_find?_eq_some hFind)
      exact ⟨(h.sitesOf hSite).1.children n hn, eq_of_beq hKind⟩
    · contradiction
  · contradiction

theorem Within.failureCandidates (h : s.Within text) :
    ∀ p ∈ s.failureCandidates, p.1.node.Within text ∧ p.1.node.kind = .call := by
  intro p hp
  rcases List.mem_append.mp (List.mem_mergeSort.mp hp) with hp | hp
  · obtain ⟨c, hc, hSome⟩ := List.mem_filterMap.mp hp
    obtain ⟨what, -, rfl⟩ := Option.map_eq_some_iff.mp hSome
    exact h.calls hc
  · obtain ⟨site, hSite, hSome⟩ := List.mem_filterMap.mp hp
    obtain ⟨child, hChild, rfl⟩ := Option.map_eq_some_iff.mp hSome
    exact h.awaited hSite hChild

theorem Within.unhandledFailures (h : s.Within text) :
    ∀ hit ∈ s.unhandledFailures, hit.PointsInto text := by
  intro hit hHit
  obtain ⟨p, hp, rfl⟩ := List.mem_map.mp hHit
  have hCandidate := (List.mem_filter.mp (mem_of_mem_oncePerLine hp)).1
  obtain ⟨hWithin, hKind⟩ := h.failureCandidates p hCandidate
  exact hWithin.pointsInto (by rw [hKind]; rfl) (Node.reports_hit _ _ _)

end Source

/-! ## Detectors -/

def callRules : List Rule :=
  [Rules.dynamicEval, Rules.unsanitizedMarkupWrite, Rules.domQueryInLoop, Rules.unclearedInterval,
   Rules.unremovedListener, Rules.debugStatement, Rules.unhandledAsync]

theorem pointsInto_callRules {s : Source} (h : s.Within text) (record : Record) :
    ∀ d ∈ detectors, d.rule.id ∈ callRules.map (·.id) →
      ∀ hit ∈ (d.report (some s) record).hits, hit.PointsInto text := by
  unfold detectors
  simp only [List.forall_mem_cons]
  refine ⟨fun _ => h.dynamicEval, fun _ => h.markupWrites, ?_, ?_, fun _ => h.queriesInLoops, ?_,
    fun _ => h.unpaired _ _, fun _ => h.unpaired _ _, ?_, ?_, ?_, ?_, fun _ => h.debugStatements,
    fun _ => h.unhandledFailures, ?_, ?_, ?_, by simp⟩
  all_goals
    intro hRule
    exact absurd hRule (by decide)

end Script

end WebAudit
