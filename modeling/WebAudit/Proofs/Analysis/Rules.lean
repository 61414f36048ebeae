import Mathlib.Data.List.Nodup
import Mathlib.Data.List.Pairwise
import WebAudit.Analysis.Catalogue
import WebAudit.Analysis.Outcome

/-!
# Findings and their rules

A finding carries the concern of the rule it is of, and an id that starts with the id of that rule. No
two rules share an id. So findings of different concerns never have the same id.
-/

namespace WebAudit

namespace Finding

theorem length_digest (key : String) : (digest key).length = idDigits := by
  rw [digest, String.length_ofList, List.length_take, Digest.Sha256.length_hex]
  rfl

/-- An id can only be cut in one way into a rule and a digest. -/
theorem append_digest_inj {ruleId ruleId' key key' : String}
    (h : ruleId ++ "-" ++ digest key = ruleId' ++ "-" ++ digest key') :
    ruleId = ruleId' ∧ digest key = digest key' := by
  have hChars := congrArg String.toList h
  simp only [String.toList_append] at hChars
  -- digests are of one length
  have hLength : (digest key).toList.length = (digest key').toList.length := by
    rw [String.length_toList, String.length_toList, length_digest, length_digest]
  obtain ⟨hFront, hDigest⟩ := List.append_inj' hChars hLength
  obtain ⟨hRule, -⟩ := List.append_inj' hFront rfl
  exact ⟨String.toList_inj.mp hRule, String.toList_inj.mp hDigest⟩

/-- The id of a finding determines the id of its rule, whatever path and rule id contain. -/
theorem ruleId_eq_of_makeId_eq {path path' ruleId ruleId' salt salt' : String} {line line' : Int}
    (h : makeId path ruleId line salt = makeId path' ruleId' line' salt') : ruleId = ruleId' :=
  (append_digest_inj h).1

structure IsOf (f : Finding) (rule : Rule) : Prop where
  ruleId : f.ruleId = rule.id
  concern : f.concern = rule.concern
  id : ∃ line, f.id = makeId f.path rule.id line

end Finding

theorem Hit.isOf_finding? {h : Hit} {rule : Rule} {record : Record} {f : Finding}
    (hf : h.finding? rule record = some f) : f.IsOf rule := by
  unfold Hit.finding? at hf
  dsimp only at hf
  split at hf
  · contradiction
  · cases hf
    exact ⟨rfl, rfl, _, rfl⟩

theorem Imports.isOf_finding (rule : Rule) (path : String) (line : Int)
    (description snippet : String) : (finding rule path line description snippet).IsOf rule :=
  ⟨rfl, rfl, line, rfl⟩

/-! ## All rules -/

def reportedRules : List Rule :=
  [syntaxError, analysisError, Imports.circularDependency, Imports.unusedFile] ++
    Catalogue.Group.all.flatMap Catalogue.Group.rules

theorem nodup_reportedRules : (reportedRules.map (·.id)).Nodup := by
  decide +kernel

theorem Catalogue.Group.mem_all (group : Catalogue.Group) : group ∈ Catalogue.Group.all := by
  cases group <;> decide

theorem Catalogue.Group.rules_subset (group : Catalogue.Group) : group.rules ⊆ reportedRules := by
  intro rule hRule
  exact List.mem_append_right _ (List.mem_flatMap.mpr ⟨group, group.mem_all, hRule⟩)

/-- Which rules judge lines does not depend on how deep data may be nested. -/
theorem Catalogue.map_rule_detectors (nesting : Nat) (kind : ContentKind) :
    (LineRules.detectors Empty nesting kind).map (·.rule) = Catalogue.lexical kind := by
  cases kind <;> rfl

theorem Catalogue.lexical_subset_lines (kind : ContentKind) :
    Catalogue.lexical kind ⊆ Catalogue.Group.lines.rules := by
  cases kind <;> decide

/-- A rule of a detector is none of those that complain about the analysis itself. -/
theorem Catalogue.Group.id_ne_complaint {group : Catalogue.Group} {rule complaint : Rule}
    (h : rule ∈ group.rules) (hComplaint : complaint = syntaxError ∨ complaint = analysisError) :
    rule.id ≠ complaint.id := by
  have hNodup := nodup_reportedRules
  rw [reportedRules, List.map_append] at hNodup
  have hRule : rule ∈ Catalogue.Group.all.flatMap Catalogue.Group.rules :=
    List.mem_flatMap.mpr ⟨group, group.mem_all, h⟩
  have hMem : complaint ∈ [syntaxError, analysisError, Imports.circularDependency, Imports.unusedFile] := by
    rcases hComplaint with rfl | rfl <;> simp
  intro hEq
  exact (List.nodup_append.mp hNodup).2.2 _ (List.mem_map_of_mem hMem) _ (List.mem_map_of_mem hRule)
    hEq.symm

theorem Catalogue.Group.id_ne_analysisError {group : Catalogue.Group} {rule : Rule} (h : rule ∈ group.rules) :
    rule.id ≠ analysisError.id :=
  id_ne_complaint h (.inr rfl)

/-- The id of a rule tells its group. -/
theorem Catalogue.Group.eq_of_id_eq {group group' : Catalogue.Group} {rule rule' : Rule}
    (h : rule ∈ group.rules) (h' : rule' ∈ group'.rules) (hId : rule.id = rule'.id) : group = group' := by
  have hNodup := nodup_reportedRules
  rw [reportedRules, List.map_append, List.map_flatMap] at hNodup
  have hDisjoint := (List.nodup_flatMap.mp (List.nodup_append.mp hNodup).2.1).2
  have : Std.Symm (Function.onFun List.Disjoint fun g : Catalogue.Group => g.rules.map (·.id)) :=
    ⟨fun _ _ hApart _ hx hy => hApart hy hx⟩
  by_contra hNe
  apply hDisjoint.forall group.mem_all group'.mem_all hNe (List.mem_map_of_mem h)
  rw [hId]
  exact List.mem_map_of_mem h'

namespace Finding

def IsKnown (f : Finding) : Prop :=
  ∃ rule ∈ reportedRules, f.IsOf rule

theorem concern_eq_of_id_eq {f g : Finding} (hf : f.IsKnown) (hg : g.IsKnown) (h : f.id = g.id) :
    f.concern = g.concern := by
  obtain ⟨rule, hRule, hOf⟩ := hf
  obtain ⟨rule', hRule', hOf'⟩ := hg
  obtain ⟨line, hId⟩ := hOf.id
  obtain ⟨line', hId'⟩ := hOf'.id
  rw [hId, hId'] at h
  have hSame : rule = rule' :=
    List.inj_on_of_nodup_map nodup_reportedRules hRule hRule' (ruleId_eq_of_makeId_eq h)
  rw [hOf.concern, hOf'.concern, hSame]

end Finding

end WebAudit
