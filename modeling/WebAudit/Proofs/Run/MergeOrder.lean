import WebAudit.Proofs.Finding.Outline
import WebAudit.Proofs.Imports.Soundness
import WebAudit.Proofs.Run.Tally
import WebAudit.Run.Audit

/-!
# The order of merges

Records are analyzed side by side, so their outcomes may be merged in any order. What is counted does not
depend on that order. Neither does the graph of imports, since each script file brings its imports once.
Findings come in another order, but they are sorted and get their ids by what is shown of them. So the
report is the same, except that findings with the same outline may stand for each other.
-/

namespace WebAudit

/-! ## Findings about imports -/

theorem Imports.fresh_finding (rule : Rule) (path : String) {line : Int} (hLine : 1 ≤ line)
    (description snippet : String) : (finding rule path line description snippet).Fresh where
  id := by
    have hMax : max line 1 = line := by omega
    simp only [Finding.HasFirstId, finding, hMax]
  column _ h := by cases h

def Imports.Batch.LinesPositive (batch : Imports.Batch) : Prop :=
  ∀ entry ∈ batch, ∀ target ∈ entry.2, 1 ≤ target.2

theorem Imports.fresh_findings {batch : Batch} (h : batch.LinesPositive) {paths patterns : List String}
    {f : Finding} (hf : f ∈ findings batch paths patterns) : f.Fresh := by
  unfold findings at hf
  rcases List.mem_append.mp hf with hf | hf
  · obtain ⟨c, hc, rfl⟩ := List.mem_map.mp hf
    obtain ⟨first, rest, hRuns⟩ := (proper_graphOf batch paths).cycles_runThrough c hc
    have hRecorded := (mem_edges_graphOf.mp hRuns.edge).2.2.2
    refine fresh_finding _ _ ?_ _ _
    cases hLookup : batch.lookup c.closing.source with
    | none => simp [hLookup] at hRecorded
    | some targets =>
      rw [hLookup] at hRecorded
      obtain ⟨front, back, rfl, _⟩ := List.lookup_eq_some_iff.mp hLookup
      exact h (c.closing.source, targets) (by simp) _ hRecorded
  · obtain ⟨path, -, rfl⟩ := List.mem_map.mp hf
    exact fresh_finding _ _ (Int.le_refl 1) _ _

/-! ## Outcomes of a run -/

/-- Outcomes as the analysis of a batch gives them: script files have different paths, only they bring
imports, and findings are fresh. -/
structure Outcome.Regular (outcomes : List Outcome) : Prop where
  paths : ((outcomes.filter (·.record.isScriptFile)).map (·.record.path)).Nodup
  imports : ∀ o ∈ outcomes, ∀ targets, o.imports = some targets →
    o.record.isScriptFile = true ∧ ∀ target ∈ targets, 1 ≤ target.2
  findings : ∀ o ∈ outcomes, ∀ f ∈ o.findings, f.Fresh

namespace Outcome.Regular

variable {outcomes outcomes' : List Outcome}

theorem perm (h : Regular outcomes) (hPerm : outcomes.Perm outcomes') : Regular outcomes' where
  paths := ((hPerm.filter _).map _).nodup_iff.mp h.paths
  imports o ho := h.imports o (hPerm.mem_iff.mpr ho)
  findings o ho := h.findings o (hPerm.mem_iff.mpr ho)

theorem nodup_importEntries (h : Regular outcomes) :
    (Table.keys (outcomes.filterMap importItem?)).Nodup := by
  refine List.Nodup.sublist ?_ h.paths
  have hScript : ∀ o ∈ outcomes, o.importItem?.isSome = true → o.record.isScriptFile = true := by
    intro o ho hSome
    obtain ⟨targets, hTargets⟩ := Option.isSome_iff_exists.mp (by simpa [importItem?] using hSome)
    exact (h.imports o ho targets hTargets).1
  clear h
  induction outcomes with
  | nil => exact List.Sublist.slnil
  | cons o os ih =>
    obtain ⟨hHead, hTail⟩ := List.forall_mem_cons.mp hScript
    have hRest := ih hTail
    cases hEntry : o.importItem? with
    | none =>
      rw [List.filterMap_cons_none hEntry, List.filter_cons]
      split
      · exact hRest.cons _
      · exact hRest
    | some entry =>
      have hPath : entry.1 = o.record.path := by
        obtain ⟨targets, -, rfl⟩ := Option.map_eq_some_iff.mp hEntry
        rfl
      have hFile : o.record.isScriptFile = true := hHead (by rw [hEntry]; rfl)
      rw [List.filterMap_cons_some hEntry, List.filter_cons, if_pos hFile, List.map_cons, Table.keys,
        List.map_cons, hPath]
      exact hRest.cons_cons _

end Outcome.Regular

/-! ## Tallies -/

namespace Tally

variable {outcomes outcomes' : List Outcome}

theorem imports_of_regular (h : Outcome.Regular outcomes) :
    (outcomes.foldl merge {}).imports = outcomes.filterMap Outcome.importItem? :=
  imports_foldl_merge (t := {}) h.nodup_importEntries

theorem linesPositive_of_regular (h : Outcome.Regular outcomes) :
    (outcomes.foldl merge {}).imports.LinesPositive := by
  rw [imports_of_regular h]
  intro entry hEntry target hTarget
  obtain ⟨o, ho, hSome⟩ := List.mem_filterMap.mp hEntry
  obtain ⟨targets, hTargets, rfl⟩ := Option.map_eq_some_iff.mp hSome
  exact (h.imports o ho targets hTargets).2 target hTarget

/-- The tallies of a run and of the same run in another order. -/
structure Reorders (t t' : Tally) : Prop where
  findings : t.findings.Perm t'.findings
  imports : ∀ path, t.imports.lookup path = t'.imports.lookup path
  scriptPaths : ∀ path, path ∈ t.scriptPaths ↔ path ∈ t'.scriptPaths
  kinds : t.kinds = t'.kinds
  filesAnalyzed : t.filesAnalyzed = t'.filesAnalyzed
  totalLines : t.totalLines = t'.totalLines

theorem reorders_of_perm (h : Outcome.Regular outcomes) (hPerm : outcomes.Perm outcomes') :
    (outcomes.foldl merge {}).Reorders (outcomes'.foldl merge {}) where
  findings := by
    rw [findings_foldl_merge, findings_foldl_merge]
    exact (hPerm.flatMap_right _).append_left _
  imports path := by
    rw [imports_of_regular h, imports_of_regular (h.perm hPerm)]
    exact Table.lookup_eq_of_perm h.nodup_importEntries (hPerm.filterMap _) path
  scriptPaths path := by
    rw [scriptPaths_foldl_merge, scriptPaths_foldl_merge]
    exact ((hPerm.flatMap_right _).append_left _).mem_iff
  kinds := funext fun kind => by
    rw [kinds_foldl_merge, kinds_foldl_merge, (hPerm.map _).sum_nat]
  filesAnalyzed := by
    rw [filesAnalyzed_foldl_merge, filesAnalyzed_foldl_merge, (hPerm.map _).sum_nat]
  totalLines := by
    rw [totalLines_foldl_merge, totalLines_foldl_merge, (hPerm.map _).sum_nat]

/-- The imports of both tallies are judged alike. -/
theorem Reorders.withImports {t t' : Tally} (h : t.Reorders t') :
    t.withImports.Reorders t'.withImports where
  findings := by
    have hGraph := Imports.graphOf_congr h.imports h.scriptPaths
    unfold Tally.withImports Imports.findings
    rw [hGraph]
    exact h.findings.append_right _
  imports := h.imports
  scriptPaths := h.scriptPaths
  kinds := h.kinds
  filesAnalyzed := h.filesAnalyzed
  totalLines := h.totalLines

end Tally

/-! ## Reports -/

namespace Run

def bookOf (toggles : Toggles) (outcomes : List Outcome) : Book :=
  (outcomes.foldl Book.merge {}).judgeImports toggles false

def reportOf (toggles : Toggles) (outcomes : List Outcome) : Report :=
  (bookOf toggles outcomes).close false

theorem tally_foldl_merge (b : Book) (outcomes : List Outcome) :
    (outcomes.foldl Book.merge b).tally = outcomes.foldl Tally.merge b.tally := by
  induction outcomes generalizing b with
  | nil => rfl
  | cons o os ih => exact ih (b.merge o)

theorem tally_bookOf (toggles : Toggles) (outcomes : List Outcome) :
    (bookOf toggles outcomes).tally =
      if toggles.isEnabled .quality then (outcomes.foldl Tally.merge {}).withImports
      else outcomes.foldl Tally.merge {} := by
  have hTally := tally_foldl_merge {} outcomes
  unfold bookOf Book.judgeImports
  cases toggles.isEnabled .quality with
  | true => exact congrArg Tally.withImports hTally
  | false => exact hTally

variable {outcomes outcomes' : List Outcome}

theorem reorders_bookOf (h : Outcome.Regular outcomes) (hPerm : outcomes.Perm outcomes')
    (toggles : Toggles) :
    (bookOf toggles outcomes).tally.Reorders (bookOf toggles outcomes').tally := by
  have hReorders := Tally.reorders_of_perm h hPerm
  rw [tally_bookOf, tally_bookOf]
  split
  · exact hReorders.withImports
  · exact hReorders

theorem fresh_bookOf (h : Outcome.Regular outcomes) (toggles : Toggles) :
    ∀ f ∈ (bookOf toggles outcomes).tally.findings, f.Fresh := by
  have hFresh : ∀ f ∈ (outcomes.foldl Tally.merge {}).findings, f.Fresh := by
    intro f hf
    rw [Tally.findings_foldl_merge, List.mem_append, List.mem_flatMap] at hf
    obtain hf | ⟨o, ho, hf⟩ := hf
    · cases hf
    · exact h.findings o ho f hf
  rw [tally_bookOf]
  split
  · refine List.forall_mem_append.mpr ⟨hFresh, fun f hf => ?_⟩
    exact Imports.fresh_findings (Tally.linesPositive_of_regular h) hf
  · exact hFresh

/-- A report does not depend on the order in which outcomes were merged: its counts are the same, and
so are the outlines of its findings, one by one. -/
theorem report_perm (toggles : Toggles) (h : Outcome.Regular outcomes)
    (hPerm : outcomes.Perm outcomes') :
    (reportOf toggles outcomes).filesAnalyzed = (reportOf toggles outcomes').filesAnalyzed ∧
    (reportOf toggles outcomes).totalLines = (reportOf toggles outcomes').totalLines ∧
    (reportOf toggles outcomes).kinds = (reportOf toggles outcomes').kinds ∧
    (reportOf toggles outcomes).summary = (reportOf toggles outcomes').summary ∧
    (reportOf toggles outcomes).findings.map Finding.outline =
      (reportOf toggles outcomes').findings.map Finding.outline := by
  have hReorders := reorders_bookOf h hPerm toggles
  refine ⟨hReorders.filesAnalyzed, hReorders.totalLines, hReorders.kinds, ?_, ?_⟩
  · calc
      summarize (finalize (bookOf toggles outcomes).tally.findings)
        = summarize (bookOf toggles outcomes).tally.findings := summarize_finalize _
      _ = summarize (bookOf toggles outcomes').tally.findings := summarize_perm hReorders.findings
      _ = summarize (finalize (bookOf toggles outcomes').tally.findings) :=
        (summarize_finalize _).symm
  · exact map_outline_finalize hReorders.findings (fresh_bookOf h toggles)

/-- Two scripts that import each other, and a second finding on a line of the first. -/
def mutualImports : List Outcome :=
  let finding (title : String) : Finding :=
    { id := Finding.makeId "a.js" "eval" 3, ruleId := "eval", title, description := "",
      severity := .low, concern := .security, path := "a.js", line := 3, column := some 4 }
  let script (path target : String) : Outcome :=
    { record := { path, content := "", kind := .script, sizeBytes := 0 }
      imports := some [(target, 2)] }
  [{ script "a.js" "b.js" with findings := [finding "first"] },
   { script "b.js" "a.js" with findings := [finding "second"] }]

theorem mutualImports_report_perm :
    Outcome.Regular mutualImports ∧ mutualImports.Perm mutualImports.reverse ∧
    (reportOf {} mutualImports).findings.map Finding.outline =
      (reportOf {} mutualImports.reverse).findings.map Finding.outline := by
  have hRegular : Outcome.Regular mutualImports := by
    refine ⟨by decide, by decide, ?_⟩
    simp only [mutualImports, List.forall_mem_cons, List.not_mem_nil, false_implies, implies_true,
      and_true]
    exact ⟨⟨rfl, by simp⟩, ⟨rfl, by simp⟩⟩
  have hPerm : mutualImports.Perm mutualImports.reverse := (List.reverse_perm _).symm
  exact ⟨hRegular, hPerm, (report_perm {} hRegular hPerm).2.2.2.2⟩

end Run

end WebAudit
