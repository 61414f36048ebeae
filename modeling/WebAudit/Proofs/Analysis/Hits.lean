import WebAudit.Proofs.Analysis.Selection
import WebAudit.Proofs.Related
import WebAudit.Proofs.Script.CallHits

/-!
# Findings and the hits they are made of

A hit that names its last line is one at a node of a script, and a node never ends on an earlier row than it
starts. All other checks leave the last line out. Every finding of a record is made of a hit under a rule that
is selected, be it the hit of a detector or a complaint about the analysis itself.
-/

namespace WebAudit

/-- The hit has no last line, or one that is not before the line that it is reported on. -/
def Hit.Extends (h : Hit) : Prop :=
  ∀ stop, h.endLine = some stop → max h.line 1 ≤ stop

theorem Hit.extends_of_no_end {h : Hit} (hNone : h.endLine = none) : h.Extends := by
  intro stop hStop
  rw [hNone] at hStop
  cases hStop

theorem Hit.noEnd_map {α : Type} {items : List α} {make : α → Hit} (h : ∀ x, (make x).endLine = none) :
    ∀ hit ∈ items.map make, hit.endLine = none :=
  List.forall_mem_map.mpr fun x _ => h x

/-! ## Scripts -/

namespace Script

theorem Node.line_le_endLine (n : Node) : n.line ≤ n.endLine :=
  Nat.succ_le_succ n.span.rows

theorem Node.extends_of_endLine {n : Node} {hit : Hit} (hLine : hit.line = n.line)
    (hStop : hit.endLine = some (n.endLine : Int)) : hit.Extends := by
  have hRows := n.line_le_endLine
  have hPos : 1 ≤ n.line := Nat.succ_pos _
  intro stop hSome
  rw [hStop] at hSome
  cases hSome
  omega

theorem Node.Reports.extends {n : Node} {hit : Hit} (h : n.Reports hit) : hit.Extends := by
  obtain ⟨title, description, rfl | rfl⟩ := h
  · exact n.extends_of_endLine rfl rfl
  · exact Hit.extends_of_no_end rfl

@[grind .]
theorem Node.extends_hit (n : Node) (title description : Option String) :
    (n.hit title description).Extends :=
  (n.reports_hit title description).extends

@[grind .]
theorem Node.extends_startHit (n : Node) (title description : Option String) :
    (n.startHit title description).Extends :=
  Hit.extends_of_no_end rfl

@[grind .]
theorem Call.extends_hit (c : Call) (title description : Option String) :
    (c.hit title description).Extends :=
  c.site.node.extends_hit title description

namespace Source

variable {s : Source}

/-! Most checks look at constructs one by one. -/

theorem extends_filterMap {α : Type} {items : List α} {nodeOf : α → Node} {check : α → Option Hit}
    (h : ∀ x hit, check x = some hit → (nodeOf x).Reports hit) :
    ∀ hit ∈ items.filterMap check, hit.Extends := by
  intro hit hHit
  obtain ⟨x, -, hSome⟩ := List.mem_filterMap.mp hHit
  exact (h x hit hSome).extends

theorem extends_dynamicEval : ∀ hit ∈ s.dynamicEval, hit.Extends := by
  refine List.forall_mem_append.mpr ⟨extends_filterMap reports_evalHit, ?_⟩
  exact extends_filterMap fun site => reports_functionConstructorHit site.node

theorem extends_markupWrites : ∀ hit ∈ s.markupWrites, hit.Extends := by
  unfold markupWrites
  simp only [List.forall_mem_append]
  refine ⟨⟨⟨?_, ?_⟩, ?_⟩, ?_⟩
  · exact extends_filterMap fun site => reports_markupAssignmentHit site.node
  · exact extends_filterMap fun site => reports_markupAssignmentHit site.node
  · exact extends_filterMap reports_markupCallHit
  · exact extends_filterMap fun site => reports_elementMarkupHit site.node

theorem extends_sqlInjections : ∀ hit ∈ s.sqlInjections, hit.Extends := by
  grind [sqlInjections, templateSqlHit, concatenationSqlHit]

theorem extends_queriesInLoops : ∀ hit ∈ s.queriesInLoops, hit.Extends := by
  grind [queriesInLoops]

theorem extends_largeLiterals : ∀ hit ∈ s.largeLiterals, hit.Extends := by
  grind [largeLiterals, largeLiteralHit]

theorem extends_unpaired (setter clearer : String) : ∀ hit ∈ s.unpaired setter clearer, hit.Extends := by
  grind [unpaired]

theorem extends_excessParameters : ∀ hit ∈ s.excessParameters, hit.Extends := by
  grind [excessParameters]

theorem extends_legacyDeclarations : ∀ hit ∈ s.legacyDeclarations, hit.Extends := by
  grind [legacyDeclarations]

theorem extends_debugStatements : ∀ hit ∈ s.debugStatements, hit.Extends := by
  grind [debugStatements]

theorem extends_explicitAny : ∀ hit ∈ s.explicitAny, hit.Extends := by
  grind [explicitAny]

theorem extends_suppressedTypes : ∀ hit ∈ s.suppressedTypes, hit.Extends := by
  grind [suppressedTypes]

theorem extends_unhandledFailures : ∀ hit ∈ s.unhandledFailures, hit.Extends := by
  grind [unhandledFailures]

/-! The others make their hits themselves. -/

theorem extends_hardcodedSecrets : ∀ hit ∈ s.hardcodedSecrets, hit.Extends := by
  intro hit hHit
  obtain ⟨l, -, hSome⟩ := List.mem_filterMap.mp hHit
  unfold secretHit at hSome
  split at hSome
  · cases hSome
  · obtain ⟨word, -, rfl⟩ := Option.map_eq_some_iff.mp hSome
    exact Hit.extends_of_no_end rfl

theorem extends_complexFunctions : ∀ hit ∈ s.complexFunctions, hit.Extends := by
  intro hit hHit
  obtain ⟨d, -, hSome⟩ := List.mem_filterMap.mp hHit
  unfold complexityHit at hSome
  dsimp only at hSome
  split at hSome
  · cases hSome
  · cases hSome
    exact d.site.node.extends_of_endLine rfl rfl

theorem extends_averageComplexity : ∀ hit ∈ s.averageComplexity, hit.Extends := by
  unfold averageComplexity
  dsimp only
  split
  · simp
  · exact List.forall_mem_singleton.mpr (Hit.extends_of_no_end rfl)

theorem extends_largeFile : ∀ hit ∈ s.largeFile, hit.Extends := by
  unfold largeFile
  dsimp only
  split
  · simp
  · exact List.forall_mem_singleton.mpr (Hit.extends_of_no_end rfl)

end Source

theorem extends_detectors (s : Source) (record : Record) :
    ∀ d ∈ detectors, ∀ hit ∈ (d.report (some s) record).hits, hit.Extends := by
  unfold detectors
  simp only [List.forall_mem_cons]
  exact ⟨Source.extends_dynamicEval, Source.extends_markupWrites, Source.extends_sqlInjections,
    Source.extends_hardcodedSecrets, Source.extends_queriesInLoops, Source.extends_largeLiterals,
    Source.extends_unpaired _ _, Source.extends_unpaired _ _, Source.extends_complexFunctions,
    Source.extends_averageComplexity, Source.extends_excessParameters, Source.extends_legacyDeclarations,
    Source.extends_debugStatements, Source.extends_unhandledFailures, Source.extends_explicitAny,
    Source.extends_suppressedTypes, Source.extends_largeFile, by simp⟩

end Script

/-! ## Stylesheets -/

namespace Stylesheet

namespace StyleRule

variable {r : StyleRule}

@[simp]
theorem endLine_hit (description : String) : (r.hit description).endLine = none :=
  rfl

@[simp]
theorem endLine_declarationHit (d : Declaration) (description : String) : (d.hit description).endLine = none :=
  rfl

theorem noEnd_universalSelector : ∀ hit ∈ r.universalSelector, hit.endLine = none := by
  unfold universalSelector
  split <;> simp

theorem noEnd_deepSelectors : ∀ hit ∈ r.deepSelectors, hit.endLine = none :=
  Hit.noEnd_map fun _ => rfl

theorem noEnd_stackedShadows : ∀ hit ∈ r.stackedShadows, hit.endLine = none := by
  grind [stackedShadows, endLine_declarationHit]

theorem noEnd_fixedPositions : ∀ hit ∈ r.fixedPositions, hit.endLine = none :=
  Hit.noEnd_map fun _ => rfl

theorem noEnd_importantOverrides : ∀ hit ∈ r.importantOverrides, hit.endLine = none :=
  Hit.noEnd_map fun _ => rfl

theorem noEnd_vendorOnly : ∀ hit ∈ r.vendorOnly, hit.endLine = none := by
  grind [vendorOnly, endLine_declarationHit]

theorem noEnd_focusRemoved : ∀ hit ∈ r.focusRemoved, hit.endLine = none := by
  grind [focusRemoved, endLine_declarationHit]

theorem noEnd_lightColors : ∀ hit ∈ r.lightColors, hit.endLine = none := by
  grind [lightColors, endLine_declarationHit]

theorem noEnd_smallFonts : ∀ hit ∈ r.smallFonts, hit.endLine = none := by
  grind [smallFonts, endLine_declarationHit]

end StyleRule

theorem Document.noEnd_duplicatesFrom (offset : Int) (seen : List ((String × Option String) × Nat))
    (rules : List StyleRule) : ∀ hit ∈ duplicatesFrom offset seen rules, hit.endLine = none := by
  fun_induction duplicatesFrom offset seen rules with
  | case1 => simp
  | case2 seen r rs key line hSeen ih => exact List.forall_mem_cons.mpr ⟨rfl, ih⟩
  | case3 seen r rs key hSeen ih => exact ih

theorem noEnd_detector {rule : Rule} {check : StyleRule → List Hit}
    (h : ∀ r, ∀ hit ∈ check r, hit.endLine = none) (document : Document) (record : Record) :
    ∀ hit ∈ ((detector rule check).report (some document) record).hits, hit.endLine = none := by
  intro hit hHit
  obtain ⟨r, -, hHit⟩ := List.mem_flatMap.mp hHit
  exact h r hit hHit

theorem noEnd_detectors (document : Document) (record : Record) :
    ∀ d ∈ detectors, ∀ hit ∈ (d.report (some document) record).hits, hit.endLine = none := by
  unfold detectors
  simp only [List.forall_mem_cons]
  refine ⟨?_, ?_, ?_, ?_, Document.noEnd_duplicatesFrom _ _ _, ?_, ?_, ?_, ?_, ?_, by simp⟩
  all_goals apply noEnd_detector
  · exact fun r => r.noEnd_universalSelector
  · exact fun r => r.noEnd_deepSelectors
  · exact fun r => r.noEnd_stackedShadows
  · exact fun r => r.noEnd_fixedPositions
  · exact fun r => r.noEnd_importantOverrides
  · exact fun r => r.noEnd_vendorOnly
  · exact fun r => r.noEnd_focusRemoved
  · exact fun r => r.noEnd_lightColors
  · exact fun r => r.noEnd_smallFonts

end Stylesheet

/-! ## Pages -/

namespace Markup

@[simp]
theorem endLine_hit (t : Tag) (description : Option String) : (t.hit description).endLine = none :=
  rfl

namespace Document

@[simp]
theorem endLine_pageHit : pageHit.endLine = none :=
  rfl

theorem noEnd_blockingAssets (d : Document) : ∀ hit ∈ d.blockingAssets, hit.endLine = none := by
  grind [blockingAssets, blockingScript, blockingStyle]

theorem noEnd_extraHeadings (d : Document) : ∀ hit ∈ d.extraHeadings, hit.endLine = none := by
  unfold extraHeadings
  dsimp only
  split <;> simp

theorem noEnd_missingPolicy (d : Document) (record : Record) :
    ∀ hit ∈ d.missingPolicy record, hit.endLine = none := by
  unfold missingPolicy
  split
  · simp
  · split <;> simp

theorem noEnd_missingTitle (d : Document) : ∀ hit ∈ d.missingTitle, hit.endLine = none := by
  unfold missingTitle
  split <;> simp

theorem noEnd_missingSummary (d : Document) : ∀ hit ∈ d.missingSummary, hit.endLine = none := by
  unfold missingSummary
  split <;> simp

end Document

theorem noEnd_detectors (document : Document) (record : Record) :
    ∀ d ∈ detectors, ∀ hit ∈ (d.report (some document) record).hits, hit.endLine = none := by
  unfold detectors
  simp only [List.forall_mem_cons]
  refine ⟨document.noEnd_missingPolicy record, ?_, ?_, ?_, document.noEnd_blockingAssets, ?_, ?_, ?_, ?_, ?_, ?_,
    document.noEnd_extraHeadings, by simp⟩
  · exact Hit.noEnd_map fun _ => rfl
  · exact Hit.noEnd_map fun _ => rfl
  · exact Hit.noEnd_map fun _ => rfl
  · exact Hit.noEnd_map fun _ => rfl
  · exact Hit.noEnd_map fun _ => rfl
  · exact Hit.noEnd_map fun _ => rfl
  · exact Hit.noEnd_map fun _ => rfl
  · exact document.noEnd_missingTitle
  · exact document.noEnd_missingSummary

end Markup

/-! ## Lines -/

namespace LineRules

theorem noEnd_missingComments (lines : List String) (record : Record) :
    ∀ hit ∈ (missingComments lines record).hits, hit.endLine = none := by
  unfold missingComments
  split
  · simp
  · split <;> simp

theorem noEnd_jsonFault (nesting : Nat) (lines : List String) (record : Record) :
    ∀ hit ∈ (jsonFault nesting lines record).hits, hit.endLine = none := by
  unfold jsonFault
  dsimp only
  split
  · simp
  · split <;> simp

theorem noEnd_firstTab (lines : List String) (record : Record) :
    ∀ hit ∈ (firstTab lines record).hits, hit.endLine = none := by
  unfold firstTab
  split <;> simp

theorem noEnd_longLines (lines : List String) (record : Record) :
    ∀ hit ∈ (longLines lines record).hits, hit.endLine = none := by
  grind [longLines]

theorem noEnd_noContent (lines : List String) (record : Record) :
    ∀ hit ∈ (noContent lines record).hits, hit.endLine = none := by
  unfold noContent
  split <;> simp

theorem noEnd_detectors {υ : Type} (nesting : Nat) (kind : ContentKind) (record : Record) :
    ∀ d ∈ detectors υ nesting kind, ∀ hit ∈ (d.report none record).hits, hit.endLine = none := by
  cases kind
  case script | stylesheet | markup =>
    exact List.forall_mem_singleton.mpr (noEnd_missingComments record.lines record)
  case structuredData =>
    exact List.forall_mem_cons.mpr ⟨noEnd_jsonFault nesting record.lines record,
      List.forall_mem_singleton.mpr (noEnd_firstTab record.lines record)⟩
  case prose => exact List.forall_mem_singleton.mpr (noEnd_longLines record.lines record)
  case plainText => exact List.forall_mem_singleton.mpr (noEnd_noContent record.lines record)
  case unsupported => simp [detectors]

end LineRules

/-! ## Records -/

def recordRules : List Rule :=
  [syntaxError, analysisError] ++ Catalogue.Group.all.flatMap Catalogue.Group.rules

theorem Catalogue.Group.rules_subset_recordRules (group : Catalogue.Group) : group.rules ⊆ recordRules := by
  intro rule hRule
  refine List.mem_append_right _ (List.mem_flatMap.mpr ⟨group, ?_, hRule⟩)
  cases group <;> decide

namespace Record

variable {record : Record} {toggles : Toggles} {nesting : Nat} {followAssets : Bool} {o : Outcome} {f : Finding}

/-- The finding is made of a hit, under a rule for records whose concern is selected. -/
def Yields (record : Record) (toggles : Toggles) (f : Finding) : Prop :=
  ∃ rule ∈ recordRules, toggles.isEnabled rule.concern = true ∧
    ∃ hit : Hit, hit.Extends ∧ hit.finding? rule record = some f

theorem yields_complaint {rule : Rule} {issue : Issue} (hRule : rule = syntaxError ∨ rule = analysisError)
    (hOn : toggles.isEnabled rule.concern = true) (h : record.complaint rule issue = .ok f) :
    record.Yields toggles f := by
  unfold complaint at h
  dsimp only at h
  split at h
  · rename_i hFinding
    cases h
    refine ⟨rule, ?_, hOn, _, Hit.extends_of_no_end rfl, hFinding⟩
    rcases hRule with rfl | rfl
    · exact List.mem_cons_self
    · exact List.mem_cons_of_mem _ List.mem_cons_self
  · cases h

theorem yields_parseFindings {parsed : Except ParseFault (Option Parsed)} {complaints : List Finding}
    (h : record.parseFindings parsed toggles = .ok complaints) : ∀ f ∈ complaints, record.Yields toggles f := by
  unfold parseFindings at h
  split at h
  · rename_i rule issue hIssue
    split at h
    · rename_i hOn
      cases hComplaint : record.complaint rule issue with
      | error fault =>
        rw [hComplaint] at h
        cases h
      | ok f =>
        rw [hComplaint] at h
        cases h
        exact List.forall_mem_singleton.mpr (yields_complaint (rule_of_parseIssue? hIssue) hOn hComplaint)
    · cases h
      simp
  · cases h
    simp

theorem yields_failedOutcome {fault : AnalysisFault} {events : List Event}
    (h : record.failedOutcome fault events toggles = .ok o) : ∀ f ∈ o.findings, record.Yields toggles f := by
  unfold failedOutcome at h
  dsimp only at h
  split at h
  · rename_i hOn
    obtain ⟨f, hComplaint, h⟩ := bind_eq_ok.mp h
    cases h
    exact List.forall_mem_singleton.mpr (yields_complaint (.inr rfl) hOn hComplaint)
  · cases h
    simp

theorem yields_inspect {υ : Type} {detectors : List (Detector υ)} {unit : Option υ}
    (hRules : detectors.map (·.rule) ⊆ recordRules)
    (hExtends : ∀ d ∈ detectors, ∀ hit ∈ (d.report unit record).hits, hit.Extends)
    (hf : f ∈ (inspect detectors unit record toggles).findings) : record.Yields toggles f := by
  obtain ⟨d, hd, hApplies, hf⟩ := exists_applied_detector hf
  obtain ⟨hit, hHit, hFinding⟩ := Detector.exists_hit hf
  exact ⟨d.rule, hRules (List.mem_map_of_mem hd), (Bool.and_eq_true_iff.mp hApplies).1, hit,
    hExtends d hd hit hHit, hFinding⟩

theorem yields_structuralInspection {parsed : Except ParseFault (Option Parsed)}
    (hf : f ∈ (record.structuralInspection parsed toggles).findings) : record.Yields toggles f := by
  unfold structuralInspection at hf
  split at hf
  · rename_i parsed
    cases parsed with
    | script source =>
      exact yields_inspect (Catalogue.Group.rules_subset_recordRules .script)
        (Script.extends_detectors source record) hf
    | stylesheet document =>
      refine yields_inspect (Catalogue.Group.rules_subset_recordRules .stylesheet) ?_ hf
      exact fun d hd hit hHit => Hit.extends_of_no_end (Stylesheet.noEnd_detectors document record d hd hit hHit)
    | markup document =>
      refine yields_inspect (Catalogue.Group.rules_subset_recordRules .markup) ?_ hf
      exact fun d hd hit hHit => Hit.extends_of_no_end (Markup.noEnd_detectors document record d hd hit hHit)
  · cases hf

theorem yields_lexicalInspection (hf : f ∈ (record.lexicalInspection toggles nesting).findings) :
    record.Yields toggles f := by
  unfold lexicalInspection at hf
  split at hf
  · cases hf
  · refine yields_inspect ?_ ?_ hf
    · rw [Catalogue.map_rule_detectors]
      exact List.Subset.trans (Catalogue.lexical_subset_lines record.kind)
        (Catalogue.Group.rules_subset_recordRules .lines)
    · exact fun d hd hit hHit =>
        Hit.extends_of_no_end (LineRules.noEnd_detectors nesting record.kind record d hd hit hHit)

/-- Whatever is found in a record is made of a hit. -/
theorem yields_of_analyze (h : record.analyze toggles nesting followAssets = .ok o) :
    ∀ f ∈ o.findings, record.Yields toggles f := by
  unfold analyze at h
  dsimp only at h
  split at h
  · rename_i outcome hOutcome
    cases h
    obtain ⟨complaints, hComplaints, hOutcome⟩ := bind_eq_ok.mp hOutcome
    obtain ⟨assets, -, hOutcome⟩ := bind_eq_ok.mp hOutcome
    cases hOutcome
    intro f hf
    simp only [Inspection.join, List.flatMap_cons, List.flatMap_nil, List.append_nil, List.mem_append] at hf
    rcases hf with hf | hf | hf
    · exact yields_parseFindings hComplaints f hf
    · exact yields_structuralInspection hf
    · exact yields_lexicalInspection hf
  · exact yields_failedOutcome h

end Record

end WebAudit
