import Mathlib.Data.List.Forall2
import Mathlib.Data.List.Nodup
import Mathlib.Logic.Relation
import WebAudit.Imports.Findings
import WebAudit.Proofs.Finding.Order

/-!
# The graph of imports as a relation

The edges of the graph of a batch are the recorded imports between two different files of the batch.
Paths and cycles of the graph are those of the relation that the edges make. Files and edges are put in
an order of their own, so how a batch lists them makes no difference to the graph and what is found in it.
-/

namespace WebAudit

/-! ## Tables -/

theorem Table.lookup_eq_some_iff {α : Type} {table : List (String × α)} {key : String} {value : α}
    (h : (Table.keys table).Nodup) : table.lookup key = some value ↔ (key, value) ∈ table := by
  induction table with
  | nil => simp
  | cons entry rest ih =>
    obtain ⟨k, v⟩ := entry
    obtain ⟨hFresh, hRest⟩ := List.nodup_cons.mp h
    rw [List.lookup_cons, List.mem_cons, Prod.mk.injEq]
    by_cases hKey : key = k
    · subst hKey
      have hNotMem : (key, value) ∉ rest := fun hMem => hFresh (List.mem_map.mpr ⟨_, hMem, rfl⟩)
      simp [hNotMem, eq_comm]
    · rw [beq_eq_false_iff_ne.mpr hKey, ih hRest]
      simp [hKey]

theorem Table.lookup_eq_of_perm {α : Type} {table table' : List (String × α)}
    (hNodup : (Table.keys table).Nodup) (h : table.Perm table') (key : String) :
    table.lookup key = table'.lookup key := by
  refine Option.ext fun value => ?_
  rw [Table.lookup_eq_some_iff hNodup, Table.lookup_eq_some_iff ((h.map _).nodup_iff.mp hNodup),
    h.mem_iff]

theorem Table.put_of_notMem {α : Type} {table : List (String × α)} {key : String}
    (h : key ∉ Table.keys table) (value : α) :
    Table.put key value table = table ++ [(key, value)] := by
  induction table with
  | nil => rfl
  | cons entry rest ih =>
    have hHead : entry.1 ≠ key := fun hEq => h (hEq ▸ List.mem_cons_self)
    have hRest : key ∉ Table.keys rest := fun hMem => h (List.mem_cons_of_mem _ hMem)
    rw [Table.put, if_neg hHead, ih hRest, List.cons_append]

namespace Imports

/-! ## Batches -/

def Batch.line? (batch : Batch) (source target : String) : Option Int :=
  (batch.lookup source).bind (·.lookup target)

def Batch.ListsOnce (batch : Batch) : Prop :=
  ∀ entry ∈ batch, (Table.keys entry.2).Nodup

theorem Batch.ListsOnce.lookup {batch : Batch} (h : batch.ListsOnce) (source : String) :
    (Table.keys ((batch.lookup source).getD [])).Nodup := by
  cases hLookup : batch.lookup source with
  | none => exact List.nodup_nil
  | some targets =>
    obtain ⟨front, back, rfl, _⟩ := List.lookup_eq_some_iff.mp hLookup
    exact h (source, targets) (by simp)

theorem Batch.ListsOnce.line?_eq_some_iff {batch : Batch} (h : batch.ListsOnce)
    {source target : String} {line : Int} :
    batch.line? source target = some line ↔ (target, line) ∈ (batch.lookup source).getD [] := by
  rw [← Table.lookup_eq_some_iff (h.lookup source), Batch.line?]
  cases batch.lookup source with
  | none => simp
  | some targets => rfl

theorem Batch.ListsOnce.put {batch : Batch} (h : batch.ListsOnce) (path : String) {targets : Targets}
    (hTargets : (Table.keys targets).Nodup) : Batch.ListsOnce (Table.put path targets batch) := by
  induction batch with
  | nil => exact List.forall_mem_singleton.mpr hTargets
  | cons entry rest ih =>
    obtain ⟨hHead, hRest⟩ := List.forall_mem_cons.mp h
    rw [Table.put]
    split
    · exact List.forall_mem_cons.mpr ⟨hTargets, hRest⟩
    · exact List.forall_mem_cons.mpr ⟨hHead, ih hRest⟩

theorem nodup_addTarget {targets : List (String × Nat)} (h : (Table.keys targets).Nodup)
    (i : Script.Import) : (Table.keys (Script.Source.addTarget targets i)).Nodup := by
  unfold Script.Source.addTarget
  split
  · exact h
  · rename_i hNew
    have hFresh : i.module ∉ Table.keys targets := by
      simp only [Bool.or_eq_true, List.any_eq_true, beq_iff_eq, not_or] at hNew
      intro hMem
      obtain ⟨entry, hEntry, hKey⟩ := List.mem_map.mp hMem
      exact hNew.2 ⟨entry, hEntry, hKey⟩
    rw [Table.keys, List.map_append]
    refine List.nodup_append.mpr ⟨h, List.nodup_singleton _, ?_⟩
    intro key hKey last hLast hEq
    rw [hEq, List.mem_singleton.mp hLast] at hKey
    exact hFresh hKey

theorem nodup_importTargets (source : Script.Source) : (Table.keys source.importTargets).Nodup :=
  List.foldlRecOn (motive := fun targets => (Table.keys targets).Nodup) source.imports
    Script.Source.addTarget List.nodup_nil fun _ h i _ => nodup_addTarget h i

theorem nodup_targetsOf (source : Script.Source) : (Table.keys (targetsOf source)).Nodup := by
  have hKeys : Table.keys (targetsOf source) = Table.keys source.importTargets := by
    rw [Table.keys, targetsOf, List.map_map]
    rfl
  rw [hKeys]
  exact nodup_importTargets source

/-- Recorded imports are listed once for each file. -/
theorem listsOnce_records (records : List Record) :
    Batch.ListsOnce (records.foldl addRecord []) := by
  refine List.foldlRecOn records addRecord (by simp [Batch.ListsOnce]) ?_
  intro batch h r _
  unfold addRecord
  split
  · exact h.put r.path (nodup_targetsOf _)
  · exact h

theorem mem_edgesOf {batch : Batch} {files : List String} {source : String} {e : Edge} :
    e ∈ edgesOf batch files source ↔
      e.source = source ∧ e.target ∈ files ∧ e.target ≠ source ∧
        (e.target, e.line) ∈ (batch.lookup source).getD [] := by
  rw [edgesOf, List.mem_mergeSort, List.mem_filterMap]
  constructor
  · rintro ⟨⟨target, line⟩, hMem, hEdge⟩
    dsimp only at hEdge
    split at hEdge
    · rename_i hTarget
      rw [Bool.and_eq_true, List.contains_iff_mem, bne_iff_ne] at hTarget
      cases hEdge
      exact ⟨rfl, hTarget.1, hTarget.2, hMem⟩
    · cases hEdge
  · obtain ⟨s, target, line⟩ := e
    rintro ⟨rfl, hFile, hNe, hMem⟩
    refine ⟨(target, line), hMem, ?_⟩
    have hTarget : (files.contains target && target != s) = true := by
      rw [Bool.and_eq_true, List.contains_iff_mem, bne_iff_ne]
      exact ⟨hFile, hNe⟩
    dsimp only
    rw [if_pos hTarget]

theorem nodup_targets_edgesOf {batch : Batch} (h : batch.ListsOnce) (files : List String)
    (source : String) : ((edgesOf batch files source).map (·.target)).Nodup := by
  unfold edgesOf
  refine ((List.mergeSort_perm _ Edge.le).map _).nodup_iff.mpr ?_
  refine List.Nodup.sublist ?_ (h.lookup source)
  generalize (batch.lookup source).getD [] = targets
  induction targets with
  | nil => exact List.Sublist.slnil
  | cons entry rest ih =>
    obtain ⟨target, line⟩ := entry
    rw [List.filterMap_cons]
    dsimp only
    by_cases hTarget : (files.contains target && target != source) = true
    · rw [if_pos hTarget]
      exact ih.cons_cons target
    · rw [if_neg hTarget]
      exact ih.cons target

namespace Graph

/-- An edge leads from the first file to the second. -/
def Joins (g : Graph) (source target : String) : Prop :=
  ∃ e ∈ g.edges, e.source = source ∧ e.target = target

/-- The second file can be reached from the first, which it may be itself. -/
def Reaches (g : Graph) : String → String → Prop :=
  Relation.ReflTransGen g.Joins

def Acyclic (g : Graph) : Prop :=
  ∀ file, ¬ Relation.TransGen g.Joins file file

/-- Every file is listed once with its own edges, which lead to other files of the graph. -/
structure Proper (g : Graph) : Prop where
  nodup : g.files.Nodup
  source : ∀ entry ∈ g, ∀ e ∈ entry.2, e.source = entry.1
  target : ∀ e ∈ g.edges, e.target ∈ g.files
  noLoop : ∀ e ∈ g.edges, e.target ≠ e.source

theorem mem_edges {g : Graph} {e : Edge} : e ∈ g.edges ↔ ∃ entry ∈ g, e ∈ entry.2 :=
  List.mem_flatMap

theorem Proper.mem_edgesFrom {g : Graph} (h : g.Proper) {file : String} {e : Edge} :
    e ∈ g.edgesFrom file ↔ e ∈ g.edges ∧ e.source = file := by
  rw [mem_edges, edgesFrom]
  constructor
  · intro hEdge
    cases hLookup : g.lookup file with
    | none => simp [hLookup] at hEdge
    | some es =>
      rw [hLookup, Option.getD_some] at hEdge
      have hEntry : (file, es) ∈ g := (Table.lookup_eq_some_iff h.nodup).mp hLookup
      exact ⟨⟨(file, es), hEntry, hEdge⟩, h.source _ hEntry e hEdge⟩
  · rintro ⟨⟨⟨source, es⟩, hEntry, hEdge⟩, rfl⟩
    have hSource : e.source = source := h.source _ hEntry e hEdge
    rw [hSource, (Table.lookup_eq_some_iff h.nodup).mpr hEntry]
    exact hEdge

theorem Proper.source_mem_files {g : Graph} (h : g.Proper) {e : Edge} (hEdge : e ∈ g.edges) :
    e.source ∈ g.files := by
  obtain ⟨entry, hEntry, hMem⟩ := mem_edges.mp hEdge
  rw [h.source entry hEntry e hMem]
  exact List.mem_map_of_mem hEntry

end Graph

/-! ## The graph of a batch -/

theorem files_graphOf (batch : Batch) (paths : List String) :
    (graphOf batch paths).files = sortTags paths := by
  rw [Graph.files, Table.keys, graphOf, List.map_map]
  exact List.map_id _

@[simp]
theorem mem_files_graphOf {batch : Batch} {paths : List String} {file : String} :
    file ∈ (graphOf batch paths).files ↔ file ∈ paths := by
  rw [files_graphOf, mem_sortTags]

theorem mem_edges_graphOf {batch : Batch} {paths : List String} {e : Edge} :
    e ∈ (graphOf batch paths).edges ↔
      e.source ∈ paths ∧ e.target ∈ paths ∧ e.target ≠ e.source ∧
        (e.target, e.line) ∈ (batch.lookup e.source).getD [] := by
  rw [Graph.mem_edges, graphOf]
  constructor
  · rintro ⟨entry, hEntry, hEdge⟩
    obtain ⟨file, hFile, rfl⟩ := List.mem_map.mp hEntry
    obtain ⟨rfl, hTarget, hNe, hMem⟩ := mem_edgesOf.mp hEdge
    exact ⟨mem_sortTags.mp hFile, mem_sortTags.mp hTarget, hNe, hMem⟩
  · rintro ⟨hSource, hTarget, hNe, hMem⟩
    exact ⟨_, List.mem_map_of_mem (mem_sortTags.mpr hSource),
      mem_edgesOf.mpr ⟨rfl, mem_sortTags.mpr hTarget, hNe, hMem⟩⟩

theorem proper_graphOf (batch : Batch) (paths : List String) : (graphOf batch paths).Proper where
  nodup := files_graphOf batch paths ▸ nodup_sortTags paths
  source entry hEntry e hEdge := by
    obtain ⟨file, _, rfl⟩ := List.mem_map.mp hEntry
    exact (mem_edgesOf.mp hEdge).1
  target e hEdge := mem_files_graphOf.mpr (mem_edges_graphOf.mp hEdge).2.1
  noLoop e hEdge := (mem_edges_graphOf.mp hEdge).2.2.1

def Edge.orderKey (e : Edge) : String ×ₗ Int :=
  toLex (e.target, e.line)

theorem Edge.le_iff (a b : Edge) : a.le b = true ↔ a.orderKey ≤ b.orderKey := by
  unfold Edge.le
  rw [ite_ne_eq_true_iff, decide_eq_true_eq, Edge.orderKey, Edge.orderKey,
    Prod.Lex.toLex_le_toLex]

theorem Edge.eq_of_orderKey_eq {a b : Edge} (hSource : a.source = b.source)
    (hKey : a.orderKey = b.orderKey) : a = b := by
  obtain ⟨hTarget, hLine⟩ := Prod.mk.inj (toLex.injective hKey)
  cases a
  cases b
  cases hSource
  cases hTarget
  cases hLine
  rfl

theorem edgesOf_eq_of_perm {batch batch' : Batch} {source : String}
    (h : ((batch.lookup source).getD []).Perm ((batch'.lookup source).getD [])) (files : List String) :
    edgesOf batch files source = edgesOf batch' files source := by
  have hPerm : (edgesOf batch files source).Perm (edgesOf batch' files source) :=
    ((List.mergeSort_perm _ _).trans (h.filterMap _)).trans (List.mergeSort_perm _ _).symm
  refine hPerm.eq_of_pairwise ?_ (pairwise_mergeSort_of_key Edge.le_iff _)
    (pairwise_mergeSort_of_key Edge.le_iff _)
  intro a b ha hb hab hba
  have hSource : a.source = b.source := (mem_edgesOf.mp ha).1.trans (mem_edgesOf.mp hb).1.symm
  exact Edge.eq_of_orderKey_eq hSource (le_antisymm hab hba)

/-- The graph depends on what the files import and on which files there are, not on their order. -/
theorem graphOf_eq_of_perm {batch batch' : Batch} {paths paths' : List String}
    (hBatch : ∀ path, ((batch.lookup path).getD []).Perm ((batch'.lookup path).getD []))
    (hPaths : ∀ path, path ∈ paths ↔ path ∈ paths') : graphOf batch paths = graphOf batch' paths' := by
  unfold graphOf
  rw [sortTags_congr hPaths]
  refine List.map_congr_left ?_
  intro file _
  rw [edgesOf_eq_of_perm (hBatch file)]

theorem graphOf_congr {batch batch' : Batch} {paths paths' : List String}
    (hBatch : ∀ path, batch.lookup path = batch'.lookup path)
    (hPaths : ∀ path, path ∈ paths ↔ path ∈ paths') : graphOf batch paths = graphOf batch' paths' :=
  graphOf_eq_of_perm (fun path => by rw [hBatch]) hPaths

theorem nodup_targets_edgesFrom {batch : Batch} (h : batch.ListsOnce) (paths : List String)
    (file : String) : (((graphOf batch paths).edgesFrom file).map (·.target)).Nodup := by
  rw [Graph.edgesFrom]
  cases hLookup : (graphOf batch paths).lookup file with
  | none => exact List.nodup_nil
  | some es =>
    have hEntry := (Table.lookup_eq_some_iff (proper_graphOf batch paths).nodup).mp hLookup
    obtain ⟨source, _, hEq⟩ := List.mem_map.mp hEntry
    cases hEq
    exact nodup_targets_edgesOf h _ _

/-! ## The order of presentation -/

/-- The same imports; the files come in another order, and so do the targets of each file. -/
def Batch.Reorders (batch batch' : Batch) : Prop :=
  ∃ moved, batch.Perm moved ∧
    List.Forall₂ (fun entry entry' => entry.1 = entry'.1 ∧ entry.2.Perm entry'.2) moved batch'

theorem lookup_perm_of_forall₂ {batch batch' : Batch}
    (h : List.Forall₂ (fun entry entry' => entry.1 = entry'.1 ∧ entry.2.Perm entry'.2) batch batch')
    (path : String) : ((batch.lookup path).getD []).Perm ((batch'.lookup path).getD []) := by
  induction h with
  | nil => exact List.Perm.refl _
  | @cons entry entry' rest rest' hEntry _ ih =>
    obtain ⟨key, targets⟩ := entry
    obtain ⟨key', targets'⟩ := entry'
    obtain ⟨rfl, hTargets⟩ := hEntry
    rw [List.lookup_cons, List.lookup_cons]
    by_cases hKey : path = key
    · simpa [hKey] using hTargets
    · simpa [beq_eq_false_iff_ne.mpr hKey] using ih

theorem Batch.Reorders.lookup_perm {batch batch' : Batch} (h : batch.Reorders batch')
    (hKeys : (Table.keys batch).Nodup) (path : String) :
    ((batch.lookup path).getD []).Perm ((batch'.lookup path).getD []) := by
  obtain ⟨moved, hPerm, hTargets⟩ := h
  rw [Table.lookup_eq_of_perm hKeys hPerm]
  exact lookup_perm_of_forall₂ hTargets path

/-- Neither the order of files, targets and paths nor the repetition of paths changes what is found. -/
theorem findings_of_reorders {batch batch' : Batch} {paths paths' : List String}
    (hKeys : (Table.keys batch).Nodup) (hBatch : batch.Reorders batch')
    (hPaths : ∀ path, path ∈ paths ↔ path ∈ paths') (patterns : List String) :
    findings batch paths patterns = findings batch' paths' patterns := by
  unfold findings
  rw [graphOf_eq_of_perm (hBatch.lookup_perm hKeys) hPaths]

def mutualBatch : Batch :=
  [("b.js", [("a.js", 2), ("c.js", 4)]), ("a.js", [("c.js", 1), ("b.js", 3)])]

theorem mutualBatch_findings_of_reorders :
    (Table.keys mutualBatch).Nodup ∧
    mutualBatch.Reorders [("a.js", [("b.js", 3), ("c.js", 1)]), ("b.js", [("c.js", 4), ("a.js", 2)])] ∧
    findings mutualBatch ["b.js", "a.js", "c.js"] =
      findings [("a.js", [("b.js", 3), ("c.js", 1)]), ("b.js", [("c.js", 4), ("a.js", 2)])]
        ["c.js", "a.js", "c.js", "b.js"] := by
  have hKeys : (Table.keys mutualBatch).Nodup := by decide
  have hBatch : mutualBatch.Reorders
      [("a.js", [("b.js", 3), ("c.js", 1)]), ("b.js", [("c.js", 4), ("a.js", 2)])] :=
    ⟨mutualBatch.reverse, (List.reverse_perm mutualBatch).symm,
      .cons ⟨rfl, List.Perm.swap _ _ _⟩ (.cons ⟨rfl, List.Perm.swap _ _ _⟩ .nil)⟩
  have hPaths (path : String) :
      path ∈ ["b.js", "a.js", "c.js"] ↔ path ∈ ["c.js", "a.js", "c.js", "b.js"] := by
    simp only [List.mem_cons, List.not_mem_nil]
    tauto
  exact ⟨hKeys, hBatch, findings_of_reorders hKeys hBatch hPaths entryPatterns⟩

end Imports

end WebAudit
