import WebAudit.Proofs.Analysis.Embedded

/-!
# Parsers and detectors that fail

A detector that fails, or one of whose hits cannot be placed, contributes nothing, and all others contribute
what they do without it. A record that its parser refuses, or meets issues in, is complained about once. The
rules for lines do not notice.
-/

namespace WebAudit

/-! ## Detectors -/

theorem mapM_eq_some_iff {α β : Type} {f : α → Option β} {xs : List α} {ys : List β} :
    xs.mapM f = some ys ↔ xs.map f = ys.map some := by
  induction xs generalizing ys with
  | nil => cases ys <;> simp
  | cons x xs ih =>
    rw [List.mapM_cons]
    cases ys with
    | nil => cases f x <;> cases xs.mapM f <;> simp
    | cons y ys =>
      rw [List.map_cons, List.map_cons, List.cons.injEq, ← ih]
      cases f x <;> cases xs.mapM f <;> simp

theorem mapM_eq_none_iff {α β : Type} {f : α → Option β} {xs : List α} :
    xs.mapM f = none ↔ ∃ x ∈ xs, f x = none := by
  induction xs with
  | nil => simp
  | cons x xs ih =>
    rw [List.mapM_cons, List.exists_mem_cons_iff, ← ih]
    cases f x <;> cases xs.mapM f <;> simp

theorem Hit.finding?_eq_none_iff {h : Hit} {rule : Rule} {record : Record} :
    h.finding? rule record = none ↔ h.reportedLine record < 1 := by
  unfold finding?
  dsimp only
  split
  · rename_i hLine
    exact iff_of_true rfl hLine
  · rename_i hLine
    exact iff_of_false (Option.some_ne_none _) hLine

namespace Report

variable {report : Report} {rule : Rule} {record : Record}

/-- The check failed, after any number of hits, or one of its hits would lie in front of the first line. -/
def Fails (report : Report) (record : Record) : Prop :=
  report.failure ≠ none ∨ ∃ hit ∈ report.hits, hit.reportedLine record < 1

theorem findings?_eq_none_iff : report.findings? rule record = none ↔ report.Fails record := by
  unfold findings? Fails
  split
  · rename_i hFailure
    exact iff_of_true rfl (.inl (Option.isSome_iff_ne_none.mp hFailure))
  · rename_i hFailure
    rw [Option.isSome_iff_ne_none, not_not] at hFailure
    simp [hFailure, mapM_eq_none_iff, Hit.finding?_eq_none_iff]

theorem map_some_of_findings? {findings : List Finding} (h : report.findings? rule record = some findings) :
    report.hits.map (·.finding? rule record) = findings.map some := by
  unfold findings? at h
  split at h
  · cases h
  · exact mapM_eq_some_iff.mp h

end Report

section Detectors

variable {υ : Type} {unit : Option υ} {record : Record} {toggles : Toggles} {d : Detector υ}

theorem Detector.inspect_of_fails (h : (d.report unit record).Fails record) :
    d.inspect unit record = { failedRules := [d.rule.id] } := by
  unfold Detector.inspect
  rw [Report.findings?_eq_none_iff.mpr h]

theorem Detector.map_some_inspect (h : ¬ (d.report unit record).Fails record) :
    (d.inspect unit record).findings.map some =
      (d.report unit record).hits.map (·.finding? d.rule record) := by
  unfold Detector.inspect
  split
  · rename_i findings hFindings
    exact (Report.map_some_of_findings? hFindings).symm
  · rename_i hNone
    exact absurd (Report.findings?_eq_none_iff.mp hNone) h

theorem inspect_append (front back : List (Detector υ)) :
    inspect (front ++ back) unit record toggles =
      .join [inspect front unit record toggles, inspect back unit record toggles] := by
  simp [inspect, Inspection.join]

theorem inspect_singleton (d : Detector υ) :
    inspect [d] unit record toggles = if d.applies unit toggles then d.inspect unit record else {} := by
  unfold inspect
  cases hApplies : d.applies unit toggles <;> simp [Inspection.join, hApplies]

/-- The detectors of a list work each on its own. -/
theorem inspect_between (front back : List (Detector υ)) (d : Detector υ) :
    inspect (front ++ d :: back) unit record toggles =
      .join [inspect front unit record toggles, inspect [d] unit record toggles,
        inspect back unit record toggles] := by
  have hSplit : front ++ d :: back = front ++ ([d] ++ back) := rfl
  rw [hSplit, inspect_append, inspect_append]
  simp [Inspection.join]

theorem inspect_singleton_of_fails
    (h : d.applies unit toggles = true → (d.report unit record).Fails record) :
    inspect [d] unit record toggles =
      { failedRules := if d.applies unit toggles then [d.rule.id] else [] } := by
  rw [inspect_singleton]
  split
  · rename_i hApplies
    exact Detector.inspect_of_fails (h hApplies)
  · rfl

end Detectors

/-- A detector gives a finding for each of its hits. Put another check in its place that fails, at any point: all
of these findings go, and what the detectors before and behind it find stays as it is. -/
theorem failing_check_removes_its_findings {υ : Type} (front back : List (Detector υ)) (d : Detector υ)
    (check : Check υ) (unit : Option υ) (record : Record) (toggles : Toggles)
    (hFails : ({ d with check } : Detector υ).applies unit toggles = true →
      (({ d with check } : Detector υ).report unit record).Fails record) :
    (inspect (front ++ d :: back) unit record toggles).findings =
        (inspect front unit record toggles).findings ++ (inspect [d] unit record toggles).findings ++
          (inspect back unit record toggles).findings ∧
      (inspect (front ++ { d with check } :: back) unit record toggles).findings =
        (inspect front unit record toggles).findings ++ (inspect back unit record toggles).findings ∧
      (inspect (front ++ { d with check } :: back) unit record toggles).failedRules =
        (inspect front unit record toggles).failedRules ++
          (if ({ d with check } : Detector υ).applies unit toggles then [d.rule.id] else []) ++
          (inspect back unit record toggles).failedRules ∧
      (d.applies unit toggles = true → ¬ (d.report unit record).Fails record →
        (inspect [d] unit record toggles).findings.map some =
          (d.report unit record).hits.map (·.finding? d.rule record)) := by
  have hFailed := inspect_singleton_of_fails hFails
  refine ⟨?_, ?_, ?_, ?_⟩
  · rw [inspect_between]
    simp [Inspection.join]
  · rw [inspect_between, hFailed]
    simp [Inspection.join]
  · rw [inspect_between, hFailed]
    simp [Inspection.join]
  · intro hApplies hSound
    rw [inspect_singleton, if_pos hApplies]
    exact Detector.map_some_inspect hSound

/-- The list is not closed, and its line starts with a tab. -/
def tabbedData : Record where
  path := "a.json"
  content := "\t["
  kind := .structuredData
  sizeBytes := 2

def abandonedCheck : Check Empty :=
  .lexical fun _ _ => { hits := [{}, {}], failure := some "abandoned" }

theorem tabbedData_keeps_tab_finding :
    (inspect [LineRules.detector Empty LineRules.invalidJson (LineRules.jsonFault 100),
        LineRules.detector Empty LineRules.jsonTabIndent LineRules.firstTab]
      none tabbedData .allOn).findings.map (·.ruleId) = ["invalid-json", "json-tab-indent"] ∧
    (inspect [⟨LineRules.invalidJson, abandonedCheck⟩,
        LineRules.detector Empty LineRules.jsonTabIndent LineRules.firstTab]
      none tabbedData .allOn).findings.map (·.ruleId) = ["json-tab-indent"] := by
  have hRemoved := failing_check_removes_its_findings []
    [LineRules.detector Empty LineRules.jsonTabIndent LineRules.firstTab]
    (LineRules.detector Empty LineRules.invalidJson (LineRules.jsonFault 100)) abandonedCheck none tabbedData .allOn
    (fun _ => .inl (Option.some_ne_none _))
  constructor
  · refine (congrArg (List.map (·.ruleId)) hRemoved.1).trans ?_
    decide +kernel
  · refine (congrArg (List.map (·.ruleId)) hRemoved.2.1).trans ?_
    decide +kernel

/-! ## Parsers -/

def Finding.isFrom (f : Finding) (group : Catalogue.Group) : Bool :=
  group.rules.any (·.id == f.ruleId)

namespace Finding

variable {f : Finding} {group group' : Catalogue.Group} {rule : Rule}

theorem isFrom_iff : f.isFrom group = true ↔ ∃ rule ∈ group.rules, rule.id = f.ruleId := by
  simp [isFrom]

theorem IsOf.isFrom (hOf : f.IsOf rule) (hRule : rule ∈ group.rules) : f.isFrom group = true :=
  isFrom_iff.mpr ⟨rule, hRule, hOf.ruleId.symm⟩

/-- No finding is from two groups. -/
theorem eq_of_isFrom (h : f.isFrom group = true) (h' : f.isFrom group' = true) : group = group' := by
  obtain ⟨rule, hRule, hId⟩ := isFrom_iff.mp h
  obtain ⟨rule', hRule', hId'⟩ := isFrom_iff.mp h'
  exact Catalogue.Group.eq_of_id_eq hRule hRule' (hId.trans hId'.symm)

theorem isFrom_eq_false (h : f.isFrom group = true) (hNe : group ≠ group') : f.isFrom group' = false := by
  rw [Bool.eq_false_iff]
  intro h'
  exact hNe (eq_of_isFrom h h')

theorem ruleId_ne_of_isFrom (h : f.isFrom group = true) : f.ruleId ≠ syntaxError.id := by
  obtain ⟨rule, hRule, hId⟩ := isFrom_iff.mp h
  rw [← hId]
  exact Catalogue.Group.id_ne_complaint hRule (.inl rfl)

theorem IsOf.isFrom_eq_false (hOf : f.IsOf rule) (hRule : rule = syntaxError ∨ rule = analysisError)
    (group : Catalogue.Group) : f.isFrom group = false := by
  rw [Bool.eq_false_iff]
  intro h
  obtain ⟨rule', hRule', hId⟩ := isFrom_iff.mp h
  exact Catalogue.Group.id_ne_complaint hRule' hRule (hId.trans hOf.ruleId)

end Finding

namespace Record

variable {record : Record} {parsed : Except ParseFault (Option Parsed)} {toggles : Toggles} {nesting : Nat}
  {followAssets : Bool} {f : Finding}

theorem isFrom_structural (hf : f ∈ (record.structuralInspection parsed toggles).findings) :
    ∃ group, group.isStructural = true ∧ f.isFrom group = true := by
  obtain ⟨group, hGroup, rule, hRule, hOf⟩ := exists_structural_rule hf
  exact ⟨group, hGroup, hOf.isFrom hRule⟩

theorem isFrom_lexical (hf : f ∈ (record.lexicalInspection toggles nesting).findings) : f.isFrom .lines = true := by
  obtain ⟨rule, hRule, hOf⟩ := exists_lexical_rule hf
  exact hOf.isFrom hRule

/-- Whether a parser refused a text as malformed, or met issues in it. -/
def isBroken : Except ParseFault (Option Parsed) → Bool
  | .error (.malformed _) => true
  | .ok (some parsed) => !parsed.issues.isEmpty
  | _ => false

theorem firstIssue?_eq_none_iff {issues : List Issue} : firstIssue? issues = none ↔ issues = [] := by
  unfold firstIssue?
  split <;> simp

/-- A broken text is complained about as such. -/
theorem rule_eq_syntaxError_iff {rule : Rule} {issue : Issue} (h : parseIssue? parsed = some (rule, issue)) :
    rule = syntaxError ↔ isBroken parsed = true := by
  have hOther : analysisError ≠ syntaxError := by decide
  unfold parseIssue? at h
  split at h
  · cases h
    exact iff_of_true rfl rfl
  · cases h
    exact iff_of_false hOther Bool.false_ne_true
  · cases h
    exact iff_of_false hOther Bool.false_ne_true
  · rename_i parsed
    obtain ⟨first, hFirst, hEq⟩ := Option.map_eq_some_iff.mp h
    cases hEq
    have hIssues : parsed.issues ≠ [] := by
      intro hNil
      rw [firstIssue?_eq_none_iff.mpr hNil] at hFirst
      cases hFirst
    exact iff_of_true rfl (by simpa [isBroken] using hIssues)
  · cases h

theorem isBroken_eq_false (h : parseIssue? parsed = none) : isBroken parsed = false := by
  unfold parseIssue? at h
  split at h
  · cases h
  · cases h
  · cases h
  · rename_i parsed
    rw [Option.map_eq_none_iff, firstIssue?_eq_none_iff] at h
    simp [isBroken, h]
  · rfl

/-- A placed record gets at most one complaint, and one about its syntax just if it is broken. -/
theorem Placed.complaints (h : record.Placed) (parsed : Except ParseFault (Option Parsed))
    (toggles : Toggles) :
    ∃ complaints, record.parseFindings parsed toggles = .ok complaints ∧
      complaints.countP (·.ruleId == syntaxError.id) =
        (if toggles.isEnabled .quality && isBroken parsed then 1 else 0) ∧
      ∀ f ∈ complaints, ∀ group, f.isFrom group = false := by
  unfold Record.parseFindings
  split
  · rename_i rule issue hIssue
    obtain ⟨f, hOk, hOf⟩ := h.complaint rule issue
    have hRule := rule_of_parseIssue? hIssue
    have hBroken := rule_eq_syntaxError_iff hIssue
    have hConcern : rule.concern = .quality := by
      rcases hRule with rfl | rfl <;> rfl
    rw [hConcern, hOk]
    split
    · rename_i hOn
      refine ⟨[f], rfl, ?_, List.forall_mem_singleton.mpr (hOf.isFrom_eq_false hRule)⟩
      rw [List.countP_singleton, hOf.ruleId, hOn, Bool.true_and]
      -- a parser that gave up is complained about as well, but not as a syntax error
      rcases hRule with rfl | rfl
      · rw [hBroken.mp rfl]
        rfl
      · have hSound : isBroken parsed = false := by
          rw [Bool.eq_false_iff]
          intro hTrue
          exact absurd (hBroken.mpr hTrue) (by decide)
        rw [hSound]
        decide
    · rename_i hOff
      refine ⟨[], rfl, ?_, by simp⟩
      rw [Bool.eq_false_iff.mpr hOff]
      rfl
  · rename_i hNone
    refine ⟨[], rfl, ?_, by simp⟩
    rw [isBroken_eq_false hNone, Bool.and_false]
    rfl

def attempt (record : Record) (parsed : Except ParseFault (Option Parsed)) (toggles : Toggles)
    (nesting : Nat) (followAssets : Bool) : Except AnalysisFault Outcome := do
  let inspection := Inspection.join
    [record.structuralInspection parsed toggles, record.lexicalInspection toggles nesting]
  let complaints ← record.parseFindings parsed toggles
  let assets ← record.assetsOf parsed followAssets
  return {
    record, assets
    events := record.eventsOf parsed inspection
    findings := complaints ++ inspection.findings
    imports := record.importsOf parsed toggles
    derived := record.derivedFrom parsed }

theorem analyze_eq_attempt (record : Record) (toggles : Toggles) (nesting : Nat) (followAssets : Bool) :
    record.analyze toggles nesting followAssets =
      (record.attempt record.parse toggles nesting followAssets).tryCatch fun fault =>
        record.failedOutcome fault (record.eventsOf record.parse (.join
          [record.structuralInspection record.parse toggles, record.lexicalInspection toggles nesting])) toggles := by
  unfold analyze attempt
  dsimp only
  split
  · rename_i hOk
    rw [hOk]
    rfl
  · rename_i hError
    rw [hError]
    rfl

theorem Placed.attempt (h : record.Placed) (parsed : Except ParseFault (Option Parsed)) (toggles : Toggles)
    (nesting : Nat) (followAssets : Bool) :
    ∃ complaints : List Finding, (∀ f ∈ complaints, ∀ group, f.isFrom group = false) ∧
      complaints.countP (·.ruleId == syntaxError.id) =
        (if toggles.isEnabled .quality && isBroken parsed then 1 else 0) ∧
      ((∃ o, record.attempt parsed toggles nesting followAssets = .ok o) ↔
        ∃ assets, record.assetsOf parsed followAssets = .ok assets) ∧
      ∀ o, record.attempt parsed toggles nesting followAssets = .ok o →
        o.findings = complaints ++ (record.structuralInspection parsed toggles).findings ++
          (record.lexicalInspection toggles nesting).findings := by
  obtain ⟨complaints, hOk, hCount, hFrom⟩ := h.complaints parsed toggles
  refine ⟨complaints, hFrom, hCount, ?_, ?_⟩
  · unfold Record.attempt
    rw [hOk]
    cases record.assetsOf parsed followAssets with
    | error fault => exact iff_of_false (by rintro ⟨o, hO⟩; cases hO) (by rintro ⟨assets, hA⟩; cases hA)
    | ok assets => exact iff_of_true ⟨_, rfl⟩ ⟨assets, rfl⟩
  · intro o hO
    unfold Record.attempt at hO
    rw [hOk] at hO
    cases hAssets : record.assetsOf parsed followAssets with
    | error fault =>
      rw [hAssets] at hO
      cases hO
    | ok assets =>
      rw [hAssets] at hO
      cases hO
      simp [Inspection.join]

theorem filter_lines_structural :
    (record.structuralInspection parsed toggles).findings.filter (·.isFrom .lines) = [] := by
  refine List.filter_eq_nil_iff.mpr fun f hf => ?_
  obtain ⟨group, hGroup, hFrom⟩ := isFrom_structural hf
  rw [Bool.not_eq_true]
  apply Finding.isFrom_eq_false hFrom
  rintro rfl
  cases hGroup

theorem filter_lines_lexical (hWhole : record.synthetic = false) :
    (record.lexicalInspection toggles nesting).findings.filter (·.isFrom .lines) =
      (inspect (LineRules.detectors Empty nesting record.kind) none record toggles).findings := by
  rw [List.filter_eq_self.mpr fun f hf => isFrom_lexical hf, lexicalInspection, hWhole]
  rfl

theorem countP_syntaxError_eq_zero {findings : List Finding}
    (h : ∀ f ∈ findings, ∃ group, f.isFrom group = true) :
    findings.countP (·.ruleId == syntaxError.id) = 0 := by
  refine List.countP_eq_zero.mpr fun f hf hEq => ?_
  obtain ⟨group, hFrom⟩ := h f hf
  exact Finding.ruleId_ne_of_isFrom hFrom (beq_iff_eq.mp hEq)

/-- Whatever the parser gave for a placed record, its analysis ends unless the address of an asset is refused.
It complains about the syntax once if the parser refused the text or met issues, and never otherwise. Nothing
structural is found in a text without a parsed form, and what the rules for lines find in a file does not depend
on the parser. -/
theorem one_syntaxError_per_broken_record (record : Record) (hPlaced : record.Placed)
    (parsed : Except ParseFault (Option Parsed)) (toggles : Toggles) (nesting : Nat) (followAssets : Bool) :
    ((∃ o, record.attempt parsed toggles nesting followAssets = .ok o) ↔
        ∃ assets, record.assetsOf parsed followAssets = .ok assets) ∧
      ∀ o, record.attempt parsed toggles nesting followAssets = .ok o →
        o.findings.countP (·.ruleId == syntaxError.id) =
            (if toggles.isEnabled .quality && isBroken parsed then 1 else 0) ∧
          (∀ fault, parsed = .error fault → ∀ f ∈ o.findings, ∀ group : Catalogue.Group,
            group.isStructural = true → f.isFrom group = false) ∧
          (record.synthetic = false → o.findings.filter (·.isFrom .lines) =
            (inspect (LineRules.detectors Empty nesting record.kind) none record toggles).findings) ∧
          (parsed = record.parse → record.analyze toggles nesting followAssets = .ok o) := by
  obtain ⟨complaints, hFrom, hCount, hEnds, hFindings⟩ := hPlaced.attempt parsed toggles nesting followAssets
  refine ⟨hEnds, fun o hO => ?_⟩
  -- complaints, structural and lexical findings follow each other, and their rules tell them apart
  rw [hFindings o hO]
  have hStructural : ∀ f ∈ (record.structuralInspection parsed toggles).findings,
      ∃ group, f.isFrom group = true := by
    intro f hf
    obtain ⟨group, -, hGroup⟩ := isFrom_structural hf
    exact ⟨group, hGroup⟩
  have hLexical : ∀ f ∈ (record.lexicalInspection toggles nesting).findings, ∃ group, f.isFrom group = true :=
    fun f hf => ⟨.lines, isFrom_lexical hf⟩
  refine ⟨?_, ?_, ?_, ?_⟩
  · rw [List.countP_append, List.countP_append, countP_syntaxError_eq_zero hStructural,
      countP_syntaxError_eq_zero hLexical, hCount, Nat.add_zero]
  · rintro fault rfl f hf group hGroup
    have hNothing : (record.structuralInspection (.error fault) toggles).findings = [] := rfl
    rw [hNothing, List.append_nil, List.mem_append] at hf
    rcases hf with hf | hf
    · exact hFrom f hf group
    · refine Finding.isFrom_eq_false (isFrom_lexical hf) ?_
      rintro rfl
      cases hGroup
  · intro hWhole
    have hComplaints : complaints.filter (·.isFrom .lines) = [] := by
      refine List.filter_eq_nil_iff.mpr fun f hf => ?_
      rw [hFrom f hf]
      exact Bool.false_ne_true
    rw [List.filter_append, List.filter_append, hComplaints, filter_lines_structural,
      filter_lines_lexical hWhole]
    rfl
  · rintro rfl
    rw [analyze_eq_attempt, hO]
    rfl

def unopenedSheet : Record where
  path := "a.css"
  content := "a\n\n\n\n\n\n\n\n\n\n\nb"
  kind := .stylesheet
  sizeBytes := 13

theorem unopenedSheet_one_syntaxError :
    ∃ o, unopenedSheet.attempt unopenedSheet.parse .allOn 100 false = .ok o ∧
      o.findings.countP (·.ruleId == syntaxError.id) = 1 ∧
      (o.findings.filter (·.isFrom .lines)).map (·.ruleId) = [LineRules.undocumentedFile.id] ∧
      unopenedSheet.analyze .allOn 100 false = .ok o := by
  have hBroken : isBroken unopenedSheet.parse = true := by decide +kernel
  obtain ⟨hEnds, hAll⟩ :=
    one_syntaxError_per_broken_record unopenedSheet (Int.le_refl 0) unopenedSheet.parse .allOn 100 false
  obtain ⟨o, hO⟩ := hEnds.mpr ⟨[], assetsOf_false _⟩
  obtain ⟨hCount, -, hLines, hAnalyze⟩ := hAll o hO
  refine ⟨o, hO, ?_, ?_, hAnalyze rfl⟩
  · rw [hCount, hBroken]
    rfl
  · rw [hLines rfl]
    decide +kernel

end Record

end WebAudit
