import WebAudit.Proofs.Analysis.Rules
import WebAudit.Proofs.Collect.Agreement

/-!
# What toggles do to the analysis of a record

With some concerns selected the analysis of a placed record finds what it finds with all of them, less
the findings of the other concerns. The rest of the outcome is the same, except that the imports of a
script are only kept for the concern that judges them.
-/

namespace WebAudit

def Toggles.selects (toggles : Toggles) (f : Finding) : Bool :=
  toggles.isEnabled f.concern

/-- Of findings of one concern all are wanted, or none is. -/
theorem Toggles.filter_selects (toggles : Toggles) {concern : Concern} {findings : List Finding}
    (h : ∀ f ∈ findings, f.concern = concern) :
    findings.filter toggles.selects = if toggles.isEnabled concern then findings else [] := by
  split
  · rename_i hOn
    refine List.filter_eq_self.mpr fun f hf => ?_
    rw [selects, h f hf, hOn]
  · rename_i hOff
    refine List.filter_eq_nil_iff.mpr fun f hf => ?_
    rwa [selects, h f hf]

/-! ## Detectors -/

section Detectors

variable {υ : Type} {unit : Option υ} {record : Record}

theorem Report.exists_hit {report : Report} {rule : Rule} {findings : List Finding}
    (h : report.findings? rule record = some findings) :
    ∀ f ∈ findings, ∃ hit ∈ report.hits, hit.finding? rule record = some f := by
  unfold Report.findings? at h
  split at h
  · contradiction
  · generalize report.hits = hits at h
    induction hits generalizing findings with
    | nil =>
      cases h
      simp
    | cons hit hits ih =>
      rw [List.mapM_cons] at h
      obtain ⟨f, hf, hRest⟩ := Option.bind_eq_some_iff.mp h
      obtain ⟨fs, hfs, hCons⟩ := Option.bind_eq_some_iff.mp hRest
      cases hCons
      refine List.forall_mem_cons.mpr ⟨⟨hit, List.mem_cons_self, hf⟩, ?_⟩
      intro g hg
      obtain ⟨hit', hMem, hFinding⟩ := ih hfs g hg
      exact ⟨hit', List.mem_cons_of_mem hit hMem, hFinding⟩

theorem Detector.exists_hit {d : Detector υ} {f : Finding} (hf : f ∈ (d.inspect unit record).findings) :
    ∃ hit ∈ (d.report unit record).hits, hit.finding? d.rule record = some f := by
  unfold Detector.inspect at hf
  split at hf
  · rename_i findings hFindings
    exact Report.exists_hit hFindings f hf
  · contradiction

theorem Detector.isOf_inspect {d : Detector υ} {f : Finding}
    (hf : f ∈ (d.inspect unit record).findings) : f.IsOf d.rule := by
  obtain ⟨hit, -, hFinding⟩ := Detector.exists_hit hf
  exact Hit.isOf_finding? hFinding

theorem exists_applied_detector {detectors : List (Detector υ)} {toggles : Toggles} {f : Finding}
    (hf : f ∈ (inspect detectors unit record toggles).findings) :
    ∃ d ∈ detectors, d.applies unit toggles = true ∧ f ∈ (d.inspect unit record).findings := by
  unfold inspect Inspection.join at hf
  simp only [List.mem_flatMap, List.mem_map, List.mem_filter] at hf
  obtain ⟨_, ⟨d, ⟨hd, hApplies⟩, rfl⟩, hf⟩ := hf
  exact ⟨d, hd, hApplies, hf⟩

theorem exists_detector {detectors : List (Detector υ)} {toggles : Toggles} {f : Finding}
    (hf : f ∈ (inspect detectors unit record toggles).findings) :
    ∃ d ∈ detectors, f ∈ (d.inspect unit record).findings := by
  obtain ⟨d, hd, -, hf⟩ := exists_applied_detector hf
  exact ⟨d, hd, hf⟩

theorem isOf_inspect {detectors : List (Detector υ)} {toggles : Toggles} {f : Finding}
    (hf : f ∈ (inspect detectors unit record toggles).findings) :
    ∃ d ∈ detectors, f.IsOf d.rule := by
  obtain ⟨d, hd, hf⟩ := exists_detector hf
  exact ⟨d, hd, Detector.isOf_inspect hf⟩

theorem filter_inspect (detectors : List (Detector υ)) (toggles : Toggles) :
    (inspect detectors unit record .allOn).findings.filter toggles.selects =
      (inspect detectors unit record toggles).findings := by
  unfold inspect Inspection.join
  simp only [List.flatMap_map]
  induction detectors with
  | nil => rfl
  | cons d ds ih =>
    have hAll : d.applies unit .allOn = (!d.isStructural || unit.isSome) := by
      rw [Detector.applies, Toggles.isEnabled_allOn, Bool.true_and]
    have hSome : d.applies unit toggles =
        (toggles.isEnabled d.rule.concern && d.applies unit .allOn) := by
      rw [hAll, Detector.applies]
    rw [List.filter_cons, List.filter_cons, hSome]
    cases hApplies : d.applies unit .allOn with
    | false => simpa using ih
    | true =>
      have hConcern : ∀ f ∈ (d.inspect unit record).findings, f.concern = d.rule.concern :=
        fun f hf => (Detector.isOf_inspect hf).concern
      simp only [if_true, Bool.and_true, List.flatMap_cons, List.filter_append, ih,
        toggles.filter_selects hConcern]
      split <;> simp

end Detectors

/-! ## Records -/

namespace Record

variable {record : Record}

theorem filter_structuralInspection (parsed : Except ParseFault (Option Parsed)) (toggles : Toggles) :
    (record.structuralInspection parsed .allOn).findings.filter toggles.selects =
      (record.structuralInspection parsed toggles).findings := by
  unfold structuralInspection
  split
  · rename_i parsed
    cases parsed with
    | script source => exact filter_inspect Script.detectors toggles
    | stylesheet document => exact filter_inspect Stylesheet.detectors toggles
    | markup document => exact filter_inspect Markup.detectors toggles
  · rfl

theorem filter_lexicalInspection (toggles : Toggles) (nesting : Nat) :
    (record.lexicalInspection .allOn nesting).findings.filter toggles.selects =
      (record.lexicalInspection toggles nesting).findings := by
  unfold lexicalInspection
  split
  · rfl
  · exact filter_inspect _ toggles

theorem exists_structural_rule {parsed : Except ParseFault (Option Parsed)} {toggles : Toggles}
    {f : Finding} (hf : f ∈ (record.structuralInspection parsed toggles).findings) :
    ∃ group : Catalogue.Group, group.isStructural = true ∧ ∃ rule ∈ group.rules, f.IsOf rule := by
  unfold structuralInspection at hf
  split at hf
  · rename_i parsed
    cases parsed with
    | script source =>
      obtain ⟨d, hd, hOf⟩ := isOf_inspect hf
      exact ⟨.script, rfl, d.rule, List.mem_map_of_mem hd, hOf⟩
    | stylesheet document =>
      obtain ⟨d, hd, hOf⟩ := isOf_inspect hf
      exact ⟨.stylesheet, rfl, d.rule, List.mem_map_of_mem hd, hOf⟩
    | markup document =>
      obtain ⟨d, hd, hOf⟩ := isOf_inspect hf
      exact ⟨.markup, rfl, d.rule, List.mem_map_of_mem hd, hOf⟩
  · contradiction

theorem exists_lexical_rule {toggles : Toggles} {nesting : Nat} {f : Finding}
    (hf : f ∈ (record.lexicalInspection toggles nesting).findings) :
    ∃ rule ∈ Catalogue.Group.lines.rules, f.IsOf rule := by
  unfold lexicalInspection at hf
  split at hf
  · contradiction
  · obtain ⟨d, hd, hOf⟩ := isOf_inspect hf
    have hRule := Catalogue.map_rule_detectors nesting record.kind ▸ List.mem_map_of_mem hd
    exact ⟨d.rule, Catalogue.lexical_subset_lines record.kind hRule, hOf⟩

theorem isKnown_structuralInspection {parsed : Except ParseFault (Option Parsed)} {toggles : Toggles}
    {f : Finding} (hf : f ∈ (record.structuralInspection parsed toggles).findings) : f.IsKnown := by
  obtain ⟨group, -, rule, hRule, hOf⟩ := exists_structural_rule hf
  exact ⟨rule, group.rules_subset hRule, hOf⟩

theorem isKnown_lexicalInspection {toggles : Toggles} {nesting : Nat} {f : Finding}
    (hf : f ∈ (record.lexicalInspection toggles nesting).findings) : f.IsKnown := by
  obtain ⟨rule, hRule, hOf⟩ := exists_lexical_rule hf
  exact ⟨rule, Catalogue.Group.rules_subset .lines hRule, hOf⟩

theorem Placed.finding?_ne_none (h : record.Placed) (hit : Hit) (rule : Rule) :
    hit.finding? rule record ≠ none := by
  have hLine : ¬hit.reportedLine record < 1 := by
    unfold Placed at h
    unfold Hit.reportedLine
    omega
  unfold Hit.finding?
  dsimp only
  rw [if_neg hLine]
  exact Option.some_ne_none _

/-- A complaint about a placed record is always made. -/
theorem Placed.complaint (h : record.Placed) (rule : Rule) (issue : Issue) :
    ∃ f, record.complaint rule issue = .ok f ∧ f.IsOf rule := by
  unfold Record.complaint
  dsimp only
  split
  · rename_i f hFinding
    exact ⟨f, rfl, Hit.isOf_finding? hFinding⟩
  · rename_i hNone
    exact absurd hNone (h.finding?_ne_none _ rule)

theorem rule_of_parseIssue? {parsed : Except ParseFault (Option Parsed)} {rule : Rule}
    {issue : Issue} (h : parseIssue? parsed = some (rule, issue)) :
    rule = syntaxError ∨ rule = analysisError := by
  unfold parseIssue? at h
  split at h
  · cases h
    exact .inl rfl
  · cases h
    exact .inr rfl
  · cases h
    exact .inr rfl
  · obtain ⟨first, -, hFirst⟩ := Option.map_eq_some_iff.mp h
    cases hFirst
    exact .inl rfl
  · contradiction

theorem mem_reportedRules_of_parseIssue? {parsed : Except ParseFault (Option Parsed)} {rule : Rule}
    {issue : Issue} (h : parseIssue? parsed = some (rule, issue)) : rule ∈ reportedRules := by
  rcases rule_of_parseIssue? h with rfl | rfl
  · exact List.mem_cons_self
  · exact List.mem_cons_of_mem _ List.mem_cons_self

theorem Placed.parseFindings (h : record.Placed) (parsed : Except ParseFault (Option Parsed))
    (toggles : Toggles) :
    ∃ full, record.parseFindings parsed .allOn = .ok full ∧ (∀ f ∈ full, f.IsKnown) ∧
      record.parseFindings parsed toggles = .ok (full.filter toggles.selects) := by
  unfold Record.parseFindings
  split
  · rename_i rule issue hIssue
    obtain ⟨f, hOk, hOf⟩ := h.complaint rule issue
    have hKnown : f.IsKnown := ⟨rule, mem_reportedRules_of_parseIssue? hIssue, hOf⟩
    rw [Toggles.isEnabled_allOn, if_pos rfl, hOk]
    refine ⟨[f], rfl, List.forall_mem_singleton.mpr hKnown, ?_⟩
    rw [toggles.filter_selects (List.forall_mem_singleton.mpr hOf.concern)]
    split <;> rfl
  · exact ⟨[], rfl, by simp, rfl⟩

theorem Placed.derivedFrom (h : record.Placed) (parsed : Except ParseFault (Option Parsed)) :
    ∀ r ∈ record.derivedFrom parsed, r.Placed := by
  unfold Record.derivedFrom
  split
  · intro r hr
    obtain ⟨block, -, rfl⟩ := List.mem_map.mp hr
    exact Int.add_nonneg h (Int.natCast_nonneg _)
  · simp

end Record

/-! ## Outcomes -/

structure Outcome.Narrows (toggles : Toggles) (o full : Outcome) : Prop where
  record : o.record = full.record
  findings : o.findings = full.findings.filter toggles.selects
  imports : toggles.isEnabled .quality = true → o.imports = full.imports
  derived : o.derived = full.derived
  assets : o.assets = full.assets
  known : ∀ f ∈ full.findings, f.IsKnown
  placed : ∀ r ∈ full.derived, r.Placed

namespace Record

variable {record : Record}

theorem Placed.failedOutcome (h : record.Placed) (fault : AnalysisFault) (events events' : List Event)
    (toggles : Toggles) :
    ∃ o full, record.failedOutcome fault events toggles = .ok o ∧
      record.failedOutcome fault events' .allOn = .ok full ∧ o.Narrows toggles full := by
  obtain ⟨f, hOk, hOf⟩ := h.complaint analysisError ⟨1, none, "Analysis failed: " ++ fault.message⟩
  have hKnown : f.IsKnown := ⟨analysisError, List.mem_cons_of_mem _ List.mem_cons_self, hOf⟩
  unfold Record.failedOutcome
  dsimp only
  rw [Toggles.isEnabled_allOn, if_pos rfl, hOk]
  have hFilter := toggles.filter_selects (List.forall_mem_singleton.mpr hOf.concern)
  split
  · rename_i hOn
    rw [if_pos hOn] at hFilter
    exact ⟨_, _, rfl, rfl, rfl, hFilter.symm, fun _ => rfl, rfl, rfl, by simpa using hKnown, by simp⟩
  · rename_i hOff
    rw [if_neg hOff] at hFilter
    exact ⟨_, _, rfl, rfl, rfl, hFilter.symm, fun _ => rfl, rfl, rfl, by simpa using hKnown, by simp⟩

theorem importsOf_eq (parsed : Except ParseFault (Option Parsed)) {toggles : Toggles}
    (hQuality : toggles.isEnabled .quality = true) :
    record.importsOf parsed toggles = record.importsOf parsed .allOn := by
  unfold importsOf
  rw [hQuality, Toggles.isEnabled_allOn]

/-- A placed record can always be analyzed, and toggles only leave findings out. -/
theorem Placed.analyze (h : record.Placed) (toggles : Toggles) (nesting : Nat) (followAssets : Bool) :
    ∃ o full, record.analyze toggles nesting followAssets = .ok o ∧
      record.analyze .allOn nesting followAssets = .ok full ∧ o.Narrows toggles full := by
  obtain ⟨complaints, hFull, hKnown, hSome⟩ := h.parseFindings record.parse toggles
  unfold Record.analyze
  dsimp only
  rw [hFull, hSome]
  -- complaints never fail, so only the addresses of assets can end the analysis early
  cases hAssets : record.assetsOf record.parse followAssets with
  | error fault => exact h.failedOutcome fault _ _ toggles
  | ok assets =>
    refine ⟨_, _, rfl, rfl, rfl, ?_, importsOf_eq record.parse, rfl, rfl, ?_, h.derivedFrom _⟩
    · simp [Inspection.join, filter_structuralInspection, filter_lexicalInspection]
    · intro f hf
      simp only [Inspection.join, List.flatMap_cons, List.flatMap_nil, List.append_nil,
        List.mem_append] at hf
      rcases hf with hf | hf | hf
      · exact hKnown f hf
      · exact isKnown_structuralInspection hf
      · exact isKnown_lexicalInspection hf

end Record

end WebAudit
