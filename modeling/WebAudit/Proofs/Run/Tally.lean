import Mathlib.Algebra.BigOperators.Group.List.Basic
import Mathlib.Algebra.GroupWithZero.Nat
import WebAudit.Proofs.Imports.Graph
import WebAudit.Run.Tally

/-!
# Tallies of many outcomes

Every merge adds something of the outcome to what a tally lists and counts. So after many merges it lists
what all outcomes add, in their order, and counts their sum. Imports are added too, as long as no two
outcomes bring those of the same path.
-/

namespace WebAudit

namespace Record

def fileCount (r : Record) : Nat :=
  if r.synthetic then 0 else 1

def kindCount (kind : ContentKind) (r : Record) : Nat :=
  if kind = r.kind then r.fileCount else 0

def fileLines (r : Record) : Nat :=
  if r.synthetic then 0 else r.lineCount

def isScriptFile (r : Record) : Bool :=
  !r.synthetic && r.kind == .script

/-- A file is of one kind. -/
theorem sum_kindCount (r : Record) :
    (ContentKind.all.map fun kind => r.kindCount kind).sum = r.fileCount := by
  cases hKind : r.kind <;> simp [ContentKind.all, kindCount, hKind]

end Record

def Outcome.importItem? (o : Outcome) : Option (String × Imports.Targets) :=
  o.imports.map (o.record.path, ·)

namespace Tally

/-! ## One merge -/

variable (t : Tally) (o : Outcome)

theorem findings_merge : (t.merge o).findings = t.findings ++ o.findings := by
  unfold merge
  cases o.record.synthetic <;> rfl

theorem scriptPaths_merge : (t.merge o).scriptPaths =
    t.scriptPaths ++ if o.record.isScriptFile then [o.record.path] else [] := by
  unfold merge Record.isScriptFile
  cases o.record.synthetic with
  | true => simp
  | false => by_cases hKind : o.record.kind = .script <;> simp [count, hKind]

theorem filesAnalyzed_merge : (t.merge o).filesAnalyzed = t.filesAnalyzed + o.record.fileCount := by
  unfold merge Record.fileCount
  cases o.record.synthetic <;> rfl

theorem totalLines_merge : (t.merge o).totalLines = t.totalLines + o.record.fileLines := by
  unfold merge Record.fileLines
  cases o.record.synthetic <;> rfl

theorem kinds_merge (kind : ContentKind) :
    (t.merge o).kinds kind = t.kinds kind + o.record.kindCount kind := by
  unfold merge Record.kindCount Record.fileCount
  cases o.record.synthetic with
  | true => simp
  | false => by_cases hKind : kind = o.record.kind <;> simp [count, hKind]

theorem imports_merge : (t.merge o).imports =
    match o.importItem? with
    | some (path, targets) => Table.put path targets t.imports
    | none => t.imports := by
  unfold merge Outcome.importItem?
  cases o.record.synthetic <;> cases o.imports <;> rfl

/-! ## Many merges -/

/-- A list that grows by a part of each outcome ends with all parts. -/
theorem list_foldl_merge {β : Type} (field : Tally → List β) {part : Outcome → List β}
    (hStep : ∀ t o, field (t.merge o) = field t ++ part o) (t : Tally) (os : List Outcome) :
    field (os.foldl merge t) = field t ++ os.flatMap part := by
  induction os generalizing t with
  | nil => simp
  | cons o os ih => rw [List.foldl_cons, ih, hStep, List.flatMap_cons, List.append_assoc]

/-- A number that grows by a part of each outcome ends with their sum. -/
theorem number_foldl_merge (field : Tally → Nat) {part : Outcome → Nat}
    (hStep : ∀ t o, field (t.merge o) = field t + part o) (t : Tally) (os : List Outcome) :
    field (os.foldl merge t) = field t + (os.map part).sum := by
  induction os generalizing t with
  | nil => simp
  | cons o os ih => rw [List.foldl_cons, ih, hStep, List.map_cons, List.sum_cons, Nat.add_assoc]

theorem findings_foldl_merge (t : Tally) (os : List Outcome) :
    (os.foldl merge t).findings = t.findings ++ os.flatMap (·.findings) :=
  list_foldl_merge (·.findings) findings_merge t os

theorem scriptPaths_foldl_merge (t : Tally) (os : List Outcome) :
    (os.foldl merge t).scriptPaths = t.scriptPaths ++
      os.flatMap fun o => if o.record.isScriptFile then [o.record.path] else [] :=
  list_foldl_merge (·.scriptPaths) scriptPaths_merge t os

theorem filesAnalyzed_foldl_merge (t : Tally) (os : List Outcome) :
    (os.foldl merge t).filesAnalyzed = t.filesAnalyzed + (os.map (·.record.fileCount)).sum :=
  number_foldl_merge (·.filesAnalyzed) filesAnalyzed_merge t os

theorem totalLines_foldl_merge (t : Tally) (os : List Outcome) :
    (os.foldl merge t).totalLines = t.totalLines + (os.map (·.record.fileLines)).sum :=
  number_foldl_merge (·.totalLines) totalLines_merge t os

theorem kinds_foldl_merge (t : Tally) (os : List Outcome) (kind : ContentKind) :
    (os.foldl merge t).kinds kind =
      t.kinds kind + (os.map (·.record.kindCount kind)).sum :=
  number_foldl_merge (·.kinds kind) (fun t o => kinds_merge t o kind) t os

/-- The kinds together count the files. -/
theorem sum_kinds_foldl_merge (t : Tally) (os : List Outcome) :
    (ContentKind.all.map (os.foldl merge t).kinds).sum =
      (ContentKind.all.map t.kinds).sum + (os.map (·.record.fileCount)).sum := by
  refine number_foldl_merge (fun t => (ContentKind.all.map t.kinds).sum) ?_ t os
  intro t o
  have hKinds : (t.merge o).kinds = fun kind => t.kinds kind + o.record.kindCount kind :=
    funext (kinds_merge t o)
  rw [hKinds, List.sum_map_add, Record.sum_kindCount]

theorem imports_foldl_merge {t : Tally} {os : List Outcome}
    (h : (Table.keys (t.imports ++ os.filterMap Outcome.importItem?)).Nodup) :
    (os.foldl merge t).imports = t.imports ++ os.filterMap Outcome.importItem? := by
  induction os generalizing t with
  | nil => simp
  | cons o os ih =>
    rw [List.foldl_cons]
    cases hEntry : o.importItem? with
    | none =>
      have hSame : (t.merge o).imports = t.imports := by rw [imports_merge, hEntry]
      rw [List.filterMap_cons_none hEntry] at h ⊢
      rw [ih (hSame.symm ▸ h), hSame]
    | some entry =>
      rw [List.filterMap_cons_some hEntry, Table.keys, List.map_append] at h
      have hFresh : entry.1 ∉ Table.keys t.imports := fun hMem =>
        (List.nodup_append.mp h).2.2 _ hMem _ (List.mem_map_of_mem List.mem_cons_self) rfl
      have hPut : (t.merge o).imports = t.imports ++ [entry] := by
        rw [imports_merge, hEntry]
        exact Table.put_of_notMem hFresh entry.2
      rw [← List.map_append, List.append_cons, ← hPut] at h
      rw [ih h, hPut, List.filterMap_cons_some hEntry, List.append_assoc, List.singleton_append]

end Tally

end WebAudit
