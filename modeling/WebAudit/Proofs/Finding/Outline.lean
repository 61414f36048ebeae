import WebAudit.Finding.Summary
import WebAudit.Proofs.Finding.Ids
import WebAudit.Proofs.Finding.Order

/-!
# Findings in outline

The outline of a finding is its id, its place, its rule and its description. Of a finding that carries its
first id all this follows from what it is sorted by, provided that columns are not negative, since a finding
without column is sorted as if it stood in front of the first one. Findings that come in another order
may swap places where they are sorted alike; the outlines of a report and its counts stay the same.
-/

namespace WebAudit

namespace Finding

structure Outline where
  id : String
  ruleId : String
  path : String
  line : Int
  column : Option Int
  description : String
deriving DecidableEq, Repr

def outline (f : Finding) : Outline :=
  ⟨f.id, f.ruleId, f.path, f.line, f.column, f.description⟩

/-- The finding is as it was made: under its first id, and in a column that there is. -/
structure Fresh (f : Finding) : Prop where
  id : f.HasFirstId
  column : ∀ column, f.column = some column → 0 ≤ column

def Outline.ofOrderKey (k : String ×ₗ Int ×ₗ Int ×ₗ String ×ₗ String) : Outline :=
  let (path, k) := ofLex k
  let (line, k) := ofLex k
  let (column, k) := ofLex k
  let (ruleId, description) := ofLex k
  { id := makeId path ruleId line, ruleId, path, line, description
    column := if column = -1 then none else some column }

theorem Fresh.outline_eq {f : Finding} (h : f.Fresh) : f.outline = .ofOrderKey f.orderKey := by
  have hColumn : f.column = if f.columnKey = -1 then none else some f.columnKey := by
    cases hColumn : f.column with
    | none => simp [columnKey, hColumn]
    | some column =>
      have hLe := h.column column hColumn
      have hKey : f.columnKey = column := by simp [columnKey, hColumn]
      rw [hKey, if_neg (by omega)]
  simp only [outline, Outline.ofOrderKey, orderKey, ofLex_toLex, Outline.mk.injEq, true_and, and_true]
  exact ⟨h.id, hColumn⟩

theorem outline_withRank {f g : Finding} (h : f.outline = g.outline) (rank : Nat) :
    (f.withRank rank).outline = (g.withRank rank).outline := by
  simp only [outline, Outline.mk.injEq] at h
  obtain ⟨hId, hRule, hPath, hLine, hColumn, hDescription⟩ := h
  unfold withRank outline salt
  split
  · simp only [hId, hRule, hPath, hLine, hColumn, hDescription]
  · simp only [hRule, hPath, hLine, hColumn, hDescription]

end Finding

open Finding (Fresh outline)

/-- Findings are put in an order that their keys alone determine. -/
theorem map_orderKey_mergeSort {findings findings' : List Finding} (h : findings.Perm findings') :
    (findings.mergeSort Finding.le).map Finding.orderKey =
      (findings'.mergeSort Finding.le).map Finding.orderKey := by
  have hSorted (l : List Finding) :
      ((l.mergeSort Finding.le).map Finding.orderKey).Pairwise (· ≤ ·) := by
    rw [List.pairwise_map]
    exact pairwise_mergeSort_of_key Finding.le_iff l
  have hPerm := ((List.mergeSort_perm findings Finding.le).trans h).trans
    (List.mergeSort_perm findings' Finding.le).symm
  exact (hPerm.map Finding.orderKey).eq_of_pairwise (fun _ _ _ _ => le_antisymm) (hSorted findings)
    (hSorted findings')

theorem map_outline_mergeSort {findings findings' : List Finding} (h : findings.Perm findings')
    (hFresh : ∀ f ∈ findings, f.Fresh) :
    (findings.mergeSort Finding.le).map outline = (findings'.mergeSort Finding.le).map outline := by
  have hKeys (l : List Finding) (hl : ∀ f ∈ l, f.Fresh) : (l.mergeSort Finding.le).map outline =
      ((l.mergeSort Finding.le).map Finding.orderKey).map .ofOrderKey := by
    rw [List.map_map]
    exact List.map_congr_left fun f hf => (hl f (List.mem_mergeSort.mp hf)).outline_eq
  rw [hKeys findings hFresh, hKeys findings' fun f hf => hFresh f (h.mem_iff.mpr hf),
    map_orderKey_mergeSort h]

/-- Ids are separated by what the outlines show. -/
theorem map_outline_separateFrom {findings findings' : List Finding} (seen : List String)
    (h : findings.map outline = findings'.map outline) :
    (separateFrom seen findings).map outline = (separateFrom seen findings').map outline := by
  induction findings generalizing seen findings' with
  | nil =>
    rw [List.map_eq_nil_iff.mp h.symm]
  | cons f fs ih =>
    cases findings' with
    | nil => cases h
    | cons g gs =>
      obtain ⟨hHead, hTail⟩ := List.cons.inj h
      have hId : f.id = g.id := congrArg Finding.Outline.id hHead
      rw [separateFrom, separateFrom, List.map_cons, List.map_cons, hId,
        Finding.outline_withRank hHead, ih (g.id :: seen) hTail]

/-- The outlines of a report do not depend on the order in which its findings came. -/
theorem map_outline_finalize {findings findings' : List Finding} (h : findings.Perm findings')
    (hFresh : ∀ f ∈ findings, f.Fresh) :
    (finalize findings).map outline = (finalize findings').map outline :=
  map_outline_separateFrom [] (map_outline_mergeSort h hFresh)

/-! ## Findings without their ids -/

def Finding.withoutId (f : Finding) : Finding :=
  { f with id := "" }

@[simp]
theorem Finding.withoutId_withRank (f : Finding) (rank : Nat) : (f.withRank rank).withoutId = f.withoutId := by
  unfold withRank
  split <;> rfl

/-- Apart from ids, a report has what was found. -/
theorem map_withoutId_finalize (findings : List Finding) :
    ((finalize findings).map Finding.withoutId).Perm (findings.map Finding.withoutId) := by
  have hRanked : (finalize findings).map Finding.withoutId =
      ((ranked findings).map (·.1)).map Finding.withoutId := by
    rw [finalize_eq, List.map_map, List.map_map]
    exact List.map_congr_left fun x _ => x.1.withoutId_withRank x.2
  rw [hRanked, ranked, map_fst_rankedFrom]
  exact (List.mergeSort_perm findings Finding.le).map Finding.withoutId

theorem exists_reported {findings : List Finding} {g : Finding} (hg : g ∈ findings) :
    ∃ f ∈ finalize findings, f.withoutId = g.withoutId :=
  List.mem_map.mp ((map_withoutId_finalize findings).mem_iff.mpr (List.mem_map_of_mem hg))

/-- A reported finding is one that was found, with its rank. -/
theorem exists_found {findings : List Finding} {f : Finding} (hf : f ∈ finalize findings) :
    ∃ g ∈ findings, ∃ rank, f = g.withRank rank := by
  rw [finalize_eq] at hf
  obtain ⟨x, hx, rfl⟩ := List.mem_map.mp hf
  exact ⟨x.1, mem_of_mem_ranked hx, x.2, rfl⟩

/-! ## Counts -/

theorem length_finalize (findings : List Finding) : (finalize findings).length = findings.length := by
  have hLength := congrArg List.length (map_fst_rankedFrom [] (findings.mergeSort Finding.le))
  rw [List.length_map, List.length_mergeSort] at hLength
  rw [finalize_eq, List.length_map, ranked, hLength]

theorem countP_finalize {p : Finding → Bool} (hRank : ∀ f rank, p (f.withRank rank) = p f)
    (findings : List Finding) : (finalize findings).countP p = findings.countP p := by
  have hComp : (p ∘ fun x : Finding × Nat => x.1.withRank x.2) = p ∘ Prod.fst :=
    funext fun x => hRank x.1 x.2
  rw [finalize_eq, List.countP_map, hComp, ← List.countP_map, ranked, map_fst_rankedFrom]
  exact (List.mergeSort_perm findings Finding.le).countP_eq p

/-- A report counts what was found, whatever ids it gives. -/
theorem summarize_finalize (findings : List Finding) :
    summarize (finalize findings) = summarize findings := by
  have hSeverity (f : Finding) (rank : Nat) : (f.withRank rank).severity = f.severity := by
    unfold Finding.withRank
    split <;> rfl
  have hConcern (f : Finding) (rank : Nat) : (f.withRank rank).concern = f.concern := by
    unfold Finding.withRank
    split <;> rfl
  unfold summarize
  rw [length_finalize]
  congr 1
  · funext s
    exact countP_finalize (fun f rank => by rw [hSeverity]) findings
  · funext c
    exact countP_finalize (fun f rank => by rw [hConcern]) findings

theorem summarize_perm {findings findings' : List Finding} (h : findings.Perm findings') :
    summarize findings = summarize findings' := by
  simp only [summarize, h.length_eq, h.countP_eq]

end WebAudit
