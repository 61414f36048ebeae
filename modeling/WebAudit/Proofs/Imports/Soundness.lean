import WebAudit.Proofs.Imports.Search

/-!
# Reported cycles are cycles

A reported cycle is a simple closed path of the graph. It is cut out of the path of the search, so its
files differ, and its last edge is the one that led back; that its first file is found on the path is due to
the set of files on the stack. No edge is taken twice; therefore no pair of
files closes two of the reported cycles.
-/

namespace WebAudit.Imports

/-- The cycle leads from `first` through the files of `rest`, all different, along edges of the graph,
and its closing edge leads back to `first`. -/
structure Cycle.RunsThrough (g : Graph) (c : Cycle) (first : String) (rest : List String) : Prop where
  files : c.files = first :: rest ++ [first]
  nonempty : rest ≠ []
  nodup : (first :: rest).Nodup
  chain : c.files.IsChain g.Joins
  edge : c.closing ∈ g.edges
  source : rest.getLast? = some c.closing.source
  target : c.closing.target = first

/-- The two files that the closing edge of a cycle joins. -/
def Cycle.closingPair (c : Cycle) : String × String :=
  (c.closing.source, c.closing.target)

namespace Search

variable {g : Graph}

theorem Aligned.mem_path_iff {s : Search} (h : s.Aligned) {file : String} :
    s.onStack.contains file = true ↔ file ∈ s.path :=
  List.contains_iff_mem.trans (h.onStack file)

theorem Valid.isChain_path {s : Search} (h : Valid g s) : s.path.IsChain g.Joins := by
  rw [h.path, List.isChain_reverse]
  exact (List.isChain_map _).mpr h.chain

theorem exists_drop_idxOf {files : List String} {file : String} (h : file ∈ files) :
    ∃ rest, files.drop (files.idxOf file) = file :: rest := by
  have hIndex := List.idxOf_lt_length_of_mem h
  exact ⟨_, (List.drop_eq_getElem_cons hIndex).trans (by rw [List.getElem_idxOf])⟩

/-- Where the path goes on from a file, it goes on to the last file. -/
theorem Aligned.getLast?_rest {s : Search} (h : s.Aligned) {frame : Frame} {stack : List Frame}
    (hTop : s.stack = frame :: stack) {target : String} {rest : List String}
    (hRest : s.path.drop (s.path.idxOf target) = target :: rest) (hNe : frame.file ≠ target) :
    rest.getLast? = some frame.file := by
  have hLast : (target :: rest).getLast? = some frame.file := by
    rw [← hRest, List.getLast?_drop, h.path_of_stack_cons hTop, List.getLast?_concat, if_neg]
    intro hShort
    rw [List.drop_eq_nil_of_le (h.path_of_stack_cons hTop ▸ hShort)] at hRest
    cases hRest
  cases rest with
  | nil =>
    rw [List.getLast?_singleton, Option.some.injEq] at hLast
    exact absurd hLast.symm hNe
  | cons file files => rwa [List.getLast?_cons_cons] at hLast

theorem Valid.cycle_runsThrough (hProper : g.Proper) {s : Search} (hValid : Valid g s) {file : String}
    {e : Edge} {pending : List Edge} {stack : List Frame}
    (hTop : s.stack = ⟨file, e :: pending⟩ :: stack) (hOn : s.onStack.contains e.target = true) :
    ∃ first rest, (s.cycle e).RunsThrough g first rest := by
  obtain ⟨hEdge, hSource⟩ := hValid.next_edge hProper hTop
  have hNe : file ≠ e.target := fun hEq => hProper.noLoop e hEdge (hEq.symm.trans hSource.symm)
  obtain ⟨rest, hRest⟩ := exists_drop_idxOf (hValid.mem_path_iff.mp hOn)
  have hLast := hValid.getLast?_rest hTop hRest hNe
  have hSuffix : e.target :: rest <:+ s.path := hRest ▸ List.drop_suffix _ _
  have hFiles : (s.cycle e).files = e.target :: rest ++ [e.target] := by rw [cycle, hRest]
  refine ⟨e.target, rest, hFiles, ?_, hValid.nodup.sublist hSuffix.sublist, ?_, hEdge,
    hLast.trans (congrArg some hSource.symm), rfl⟩
  · rintro rfl
    cases hLast
  · rw [hFiles]
    refine (hValid.isChain_path.suffix hSuffix).append (List.IsChain.singleton _) ?_
    intro x hx y hy
    rw [List.getLast?_cons, hLast] at hx
    cases hx
    cases hy
    exact ⟨e, hEdge, hSource, rfl⟩

/-! ## Every edge closes at most one cycle -/

/-- No two cycles have the same closing pair, and no edge that is still to come makes one of their
pairs again. -/
structure Unrepeated (cycles : List Cycle) (s : Search) : Prop where
  nodup : (cycles.map Cycle.closingPair).Nodup
  visited : ∀ c ∈ cycles, c.closing.source ∈ s.visited
  pending : ∀ c ∈ cycles, ∀ frame ∈ s.stack, frame.file = c.closing.source →
    c.closing.target ∉ frame.pending.map (·.target)

variable {cycles : List Cycle} {s : Search}

theorem Unrepeated.leave {file : String} {frame : Frame} {stack : List Frame} (h : Unrepeated cycles s)
    (hTop : s.stack = frame :: stack) : Unrepeated cycles (s.leave file stack) where
  nodup := h.nodup
  visited := h.visited
  pending c hc f hf := h.pending c hc f (hTop ▸ List.mem_cons_of_mem frame hf)

theorem Unrepeated.take {file : String} {e : Edge} {pending : List Edge} {stack : List Frame}
    (h : Unrepeated cycles s) (hTop : s.stack = ⟨file, e :: pending⟩ :: stack) :
    Unrepeated cycles (s.take file pending stack) where
  nodup := h.nodup
  visited := h.visited
  pending c hc := by
    have hPending := h.pending c hc
    rw [hTop] at hPending
    obtain ⟨hHead, hTail⟩ := List.forall_mem_cons.mp hPending
    refine List.forall_mem_cons.mpr ⟨?_, hTail⟩
    intro hFile hMem
    exact hHead hFile (List.mem_cons_of_mem e.target hMem)

theorem Unrepeated.enter {file : String} (h : Unrepeated cycles s) (hNew : file ∉ s.visited) :
    Unrepeated cycles (s.enter g file) where
  nodup := h.nodup
  visited c hc := List.mem_cons_of_mem file (h.visited c hc)
  pending c hc := by
    refine List.forall_mem_cons.mpr ⟨?_, h.pending c hc⟩
    intro hFile
    have hSource : file = c.closing.source := hFile
    exact absurd (hSource ▸ h.visited c hc) hNew

theorem Unrepeated.restart {root : String} (h : Unrepeated cycles s) (hNew : root ∉ s.visited) :
    Unrepeated cycles (s.restart g root) :=
  Unrepeated.enter ⟨h.nodup, h.visited, by simp⟩ hNew

/-- An edge that closes a cycle is the first one with its pair, and the last. -/
theorem Unrepeated.close (hProper : g.Proper)
    (hTargets : ∀ file, ((g.edgesFrom file).map (·.target)).Nodup) {file : String} {e : Edge}
    {pending : List Edge} {stack : List Frame} (hValid : Valid g s) (h : Unrepeated cycles s)
    (hTop : s.stack = ⟨file, e :: pending⟩ :: stack) :
    Unrepeated (cycles ++ [s.cycle e]) (s.take file pending stack) := by
  obtain ⟨_, hSource⟩ := hValid.next_edge hProper hTop
  have hFrame : ⟨file, e :: pending⟩ ∈ s.stack := hTop ▸ List.mem_cons_self
  refine ⟨?_, ?_, ?_⟩
  · rw [List.map_append, List.map_singleton]
    refine List.nodup_append.mpr ⟨h.nodup, List.nodup_singleton _, ?_⟩
    intro pair hPair last hLast hEq
    obtain ⟨c, hc, rfl⟩ := List.mem_map.mp hPair
    rw [List.mem_singleton.mp hLast] at hEq
    obtain ⟨hSameSource, hSameTarget⟩ := Prod.mk.inj hEq
    apply h.pending c hc _ hFrame (hSource.symm.trans hSameSource.symm)
    rw [hSameTarget]
    exact List.mem_cons_self
  · refine List.forall_mem_append.mpr ⟨h.visited, ?_⟩
    intro c hc
    rw [List.mem_singleton.mp hc]
    exact hSource ▸ hValid.mem_visited hFrame
  · refine List.forall_mem_append.mpr ⟨(h.take hTop).pending, ?_⟩
    intro c hc
    rw [List.mem_singleton.mp hc]
    refine List.forall_mem_cons.mpr ⟨?_, ?_⟩
    · intro _
      have hPending := (hValid.pending _ hFrame).sublist.map (·.target)
      exact (List.nodup_cons.mp ((hTargets file).sublist hPending)).1
    · intro frame hBelow hFile
      have hNodup := hValid.nodup_stack
      rw [hTop] at hNodup
      exact absurd (List.mem_map.mpr ⟨frame, hBelow, hFile.trans hSource⟩) (List.nodup_cons.mp hNodup).1

theorem Unrepeated.step (hProper : g.Proper)
    (hTargets : ∀ file, ((g.edgesFrom file).map (·.target)).Nodup) {t : Search}
    {found : Option Cycle} (hValid : Valid g s) (h : Unrepeated cycles s) (hStep : Step g s found t) :
    Unrepeated (cycles ++ found.toList) t := by
  cases hStep with
  | close hTop => exact h.close hProper hTargets hValid hTop
  | leave hTop => exact (List.append_nil cycles).symm ▸ h.leave hTop
  | pass hTop => exact (List.append_nil cycles).symm ▸ h.take hTop
  | enter hTop _ _ hNew =>
    have hFresh := fun hMem => Bool.eq_false_iff.mp hNew (List.contains_iff_mem.mpr hMem)
    exact (List.append_nil cycles).symm ▸ (h.take hTop).enter hFresh

end Search

/-! ## All cycles of a graph -/

theorem Graph.Proper.cycles_runThrough {g : Graph} (hProper : g.Proper) :
    ∀ c ∈ g.cycles, ∃ first rest, c.RunsThrough g first rest := by
  have hRun := cycles_invariant (g := g) (P := fun cycles s =>
    Search.Valid g s ∧ ∀ c ∈ cycles, ∃ first rest, c.RunsThrough g first rest)
    ⟨Search.Valid.start g, by simp⟩ (fun h hStack hNew => ⟨h.1.restart hStack hNew, h.2⟩)
    (fun h hStep => ⟨h.1.step hProper hStep, by
      refine List.forall_mem_append.mpr ⟨h.2, ?_⟩
      intro c hc
      cases hStep with
      | close hTop hOn =>
        rw [List.mem_singleton.mp hc]
        exact h.1.cycle_runsThrough hProper hTop hOn
      | _ => cases hc⟩)
  obtain ⟨_, ⟨_, hCycles⟩, _⟩ := hRun
  exact hCycles

theorem Graph.Proper.nodup_closingPairs {g : Graph} (hProper : g.Proper)
    (hTargets : ∀ file, ((g.edgesFrom file).map (·.target)).Nodup) :
    (g.cycles.map Cycle.closingPair).Nodup := by
  have hRun := cycles_invariant (g := g) (P := fun cycles s =>
    Search.Valid g s ∧ Search.Unrepeated cycles s)
    ⟨Search.Valid.start g, List.nodup_nil, by simp, by simp⟩
    (fun h hStack hNew => ⟨h.1.restart hStack hNew, h.2.restart hNew⟩)
    (fun h hStep => ⟨h.1.step hProper hStep, h.2.step hProper hTargets h.1 hStep⟩)
  obtain ⟨_, ⟨_, hUnrepeated⟩, _⟩ := hRun
  exact hUnrepeated.nodup

/-- A line is recorded for every edge of the graph of a batch. -/
theorem line?_eq_some_of_mem_edges {batch : Batch} (h : batch.ListsOnce) {paths : List String}
    {e : Edge} (hEdge : e ∈ (graphOf batch paths).edges) :
    batch.line? e.source e.target = some e.line :=
  h.line?_eq_some_iff.mpr (mem_edges_graphOf.mp hEdge).2.2.2

/-- Every reported cycle is a simple closed path of imports between files of the batch, closed by an
edge with its recorded line. No two of them are closed by the same pair of files. The steps of a search
lead to its result, and they cannot go on without end. An import is listed once, as is asked for here, in every
batch that is recorded from files. -/
theorem reported_cycles_sound (batch : Batch) (paths : List String) (hOnce : batch.ListsOnce) :
    (∀ c ∈ (graphOf batch paths).cycles,
      (∃ first rest, c.RunsThrough (graphOf batch paths) first rest) ∧
      c.files.IsChain (fun source target => source ∈ paths ∧ target ∈ paths ∧
        ∃ line, batch.line? source target = some line) ∧
      batch.line? c.closing.source c.closing.target = some c.closing.line) ∧
    ((graphOf batch paths).cycles.map Cycle.closingPair).Nodup ∧
    (∀ s, (Search.run (graphOf batch paths) s).2.stack = [] ∧
      Relation.ReflTransGen (Search.Next (graphOf batch paths)) s (Search.run (graphOf batch paths) s).2) ∧
    WellFounded (fun t s => Search.Next (graphOf batch paths) s t) ∧
    ∀ records : List Record, Batch.ListsOnce (records.foldl addRecord []) := by
  have hProper := proper_graphOf batch paths
  refine ⟨?_, hProper.nodup_closingPairs (nodup_targets_edgesFrom hOnce paths),
    fun s => ⟨Search.stack_run s, Search.run_reaches s⟩, Search.wellFounded_next _, listsOnce_records⟩
  intro c hc
  obtain ⟨first, rest, hRuns⟩ := hProper.cycles_runThrough c hc
  refine ⟨⟨first, rest, hRuns⟩, ?_, line?_eq_some_of_mem_edges hOnce hRuns.edge⟩
  refine hRuns.chain.imp ?_
  rintro source target ⟨e, hEdge, rfl, rfl⟩
  obtain ⟨hSource, hTarget, _⟩ := mem_edges_graphOf.mp hEdge
  exact ⟨hSource, hTarget, e.line, line?_eq_some_of_mem_edges hOnce hEdge⟩

/-- Two cycles that share an import, an import of the file itself and one of no file. -/
def tangledBatch : Batch :=
  [("a.js", [("a.js", 1), ("b.js", 2)]), ("b.js", [("c.js", 5), ("a.js", 4), ("react", 1)]),
   ("c.js", [("a.js", 3)])]

theorem graphOf_tangledBatch : graphOf tangledBatch ["c.js", "a.js", "b.js"] =
    [("a.js", [⟨"a.js", "b.js", 2⟩]), ("b.js", [⟨"b.js", "a.js", 4⟩, ⟨"b.js", "c.js", 5⟩]),
     ("c.js", [⟨"c.js", "a.js", 3⟩])] := by
  have hFiles : sortTags ["c.js", "a.js", "b.js"] = ["a.js", "b.js", "c.js"] := by
    decide
  have hOrder : Edge.le ⟨"b.js", "c.js", 5⟩ ⟨"b.js", "a.js", 4⟩ = false := by
    decide
  rw [graphOf, hFiles]
  simp [edgesOf, tangledBatch, List.lookup_cons, hOrder, List.mergeSort,
    List.MergeSort.Internal.splitInTwo]

theorem cycles_tangledBatch : (graphOf tangledBatch ["c.js", "a.js", "b.js"]).cycles =
    [⟨["a.js", "b.js", "a.js"], ⟨"b.js", "a.js", 4⟩⟩,
     ⟨["a.js", "b.js", "c.js", "a.js"], ⟨"c.js", "a.js", 3⟩⟩] := by
  rw [graphOf_tangledBatch]
  simp [Graph.cycles, cyclesFrom, Graph.files, Table.keys, Search.restart, Search.enter, Search.leave,
    Search.cycle, Search.run, Graph.edgesFrom, List.lookup_cons]

theorem tangledBatch_cycle_sound :
    tangledBatch.ListsOnce ∧
    ⟨["a.js", "b.js", "c.js", "a.js"], ⟨"c.js", "a.js", 3⟩⟩ ∈
      (graphOf tangledBatch ["c.js", "a.js", "b.js"]).cycles ∧
    ∃ first rest, Cycle.RunsThrough (graphOf tangledBatch ["c.js", "a.js", "b.js"])
      ⟨["a.js", "b.js", "c.js", "a.js"], ⟨"c.js", "a.js", 3⟩⟩ first rest := by
  have hOnce : tangledBatch.ListsOnce := by
    unfold Batch.ListsOnce
    decide
  have hMem : ⟨["a.js", "b.js", "c.js", "a.js"], ⟨"c.js", "a.js", 3⟩⟩ ∈
      (graphOf tangledBatch ["c.js", "a.js", "b.js"]).cycles := by
    rw [cycles_tangledBatch]
    decide
  exact ⟨hOnce, hMem, ((reported_cycles_sound tangledBatch _ hOnce).1 _ hMem).1⟩

end WebAudit.Imports
