import WebAudit.Proofs.Imports.Soundness

/-!
# No cycle is missed

Files are finished in the order in which the search leaves them. An edge that closes no cycle leads to a
file that is finished earlier: that file is either finished already, or it is entered now and left
first. So the graph without the closing edges is acyclic, and every cycle has one of them.
-/

namespace WebAudit.Imports

/-! ## Cycles as lists of edges -/

namespace Graph

def closings (g : Graph) : List Edge :=
  g.cycles.map (·.closing)

def without (g : Graph) (removed : List Edge) : Graph :=
  g.map fun (file, es) => (file, es.filter fun e => !removed.contains e)

/-- Edges of the graph of which each starts where the one before it ends, and the first one where the
last one ends. -/
def IsCircuit (g : Graph) : List Edge → Prop
  | [] => False
  | e :: es => (∀ f ∈ e :: es, f ∈ g.edges) ∧ (e :: es ++ [e]).IsChain fun f f' => f.target = f'.source

theorem mem_edges_without {g : Graph} {removed : List Edge} {e : Edge} :
    e ∈ (g.without removed).edges ↔ e ∈ g.edges ∧ e ∉ removed := by
  rw [mem_edges, mem_edges, without]
  constructor
  · rintro ⟨entry, hEntry, hEdge⟩
    obtain ⟨⟨file, es⟩, hFile, rfl⟩ := List.mem_map.mp hEntry
    obtain ⟨hMem, hKept⟩ := List.mem_filter.mp hEdge
    exact ⟨⟨(file, es), hFile, hMem⟩, by simpa using hKept⟩
  · rintro ⟨⟨⟨file, es⟩, hFile, hMem⟩, hKept⟩
    exact ⟨_, List.mem_map_of_mem hFile, List.mem_filter.mpr ⟨hMem, by simpa using hKept⟩⟩

theorem transGen_of_isChain {R : String → String → Prop} {a b : String} {files : List String}
    (h : (a :: files ++ [b]).IsChain R) : Relation.TransGen R a b := by
  induction files generalizing a with
  | nil => exact .single (List.isChain_pair.mp h)
  | cons c files ih =>
    obtain ⟨hHead, hTail⟩ := List.isChain_cons_cons.mp h
    exact .head hHead (ih hTail)

theorem IsCircuit.not_acyclic {g : Graph} {es : List Edge} (h : g.IsCircuit es) : ¬ g.Acyclic := by
  cases es with
  | nil => exact h.elim
  | cons e es =>
    obtain ⟨hEdges, hChain⟩ := h
    intro hAcyclic
    apply hAcyclic e.source
    have hJoins : (e :: es ++ [e]).IsChain fun f f' => g.Joins f.source f'.source := by
      refine hChain.imp_of_mem_imp ?_
      intro f f' hf _ hMeet
      have hMem : f ∈ e :: es := by
        rcases List.mem_append.mp hf with hf | hf
        · exact hf
        · exact List.mem_singleton.mp hf ▸ List.mem_cons_self
      exact ⟨f, hEdges f hMem, rfl, hMeet⟩
    have hSources := (List.isChain_map (R := g.Joins) Edge.source).mpr hJoins
    rw [List.map_append] at hSources
    exact transGen_of_isChain hSources

theorem IsCircuit.without {g : Graph} {removed es : List Edge} (h : g.IsCircuit es)
    (hKept : ∀ e ∈ es, e ∉ removed) : (g.without removed).IsCircuit es := by
  cases es with
  | nil => exact h
  | cons e es =>
    exact ⟨fun f hf => mem_edges_without.mpr ⟨h.1 f hf, hKept f hf⟩, h.2⟩

end Graph

/-! ## The order in which files are finished -/

namespace Search

variable {g : Graph} {closed : List Edge}

/-- Of files in the order in which they were finished, the last one first: an edge from a file that is
not closed leads to a file that was finished before. -/
def Settled (g : Graph) (closed : List Edge) : List String → Prop
  | [] => True
  | file :: earlier => file ∉ earlier ∧
    (∀ e ∈ g.edgesFrom file, e ∈ closed ∨ e.target ∈ earlier) ∧ Settled g closed earlier

/-- Of the files on a path, where those in `done` will be finished before them: an edge from a file is
pending, closed, or leads to a file that will be finished before. -/
def Covered (g : Graph) (closed : List Edge) : List String → List Frame → Prop
  | _, [] => True
  | done, frame :: below =>
    (∀ e ∈ g.edgesFrom frame.file, e ∈ frame.pending ∨ e ∈ closed ∨ e.target ∈ done) ∧
    Covered g closed (frame.file :: done) below

theorem Settled.mono {closed' : List Edge} (hClosed : closed ⊆ closed') {done : List String}
    (h : Settled g closed done) : Settled g closed' done := by
  induction done with
  | nil => trivial
  | cons file earlier ih =>
    obtain ⟨hFresh, hEdges, hEarlier⟩ := h
    exact ⟨hFresh, fun e he => (hEdges e he).imp_left fun hMem => hClosed hMem, ih hEarlier⟩

theorem Covered.mono {closed' : List Edge} (hClosed : closed ⊆ closed') {path : List Frame}
    {done done' : List String} (hDone : done ⊆ done') (h : Covered g closed done path) :
    Covered g closed' done' path := by
  induction path generalizing done done' with
  | nil => trivial
  | cons frame below ih =>
    obtain ⟨hEdges, hBelow⟩ := h
    refine ⟨?_, ih (List.cons_subset_cons frame.file hDone) hBelow⟩
    intro e he
    rcases hEdges e he with hPending | hOld | hTarget
    · exact .inl hPending
    · exact .inr (.inl (hClosed hOld))
    · exact .inr (.inr (hDone hTarget))

/-- An edge can be taken once it is closed, or leads to a file that will be finished before. -/
theorem Covered.take {file : String} {e : Edge} {pending : List Edge} {path : List Frame}
    {closed' : List Edge} {done done' : List String}
    (h : Covered g closed done (⟨file, e :: pending⟩ :: path)) (hClosed : closed ⊆ closed')
    (hDone : done ⊆ done') (hTaken : e ∈ closed' ∨ e.target ∈ done') :
    Covered g closed' done' (⟨file, pending⟩ :: path) := by
  refine ⟨?_, h.2.mono hClosed (List.cons_subset_cons file hDone)⟩
  intro f hf
  rcases h.1 f hf with hPending | hOld | hTarget
  · rcases List.mem_cons.mp hPending with rfl | hPending
    · exact .inr hTaken
    · exact .inl hPending
  · exact .inr (.inl (hClosed hOld))
  · exact .inr (.inr (hDone hTarget))

theorem mem_earlier_of_joins (hProper : g.Proper) {file next : String} {earlier : List String}
    (hJoins : (g.without closed).Joins file next)
    (hEdges : ∀ e ∈ g.edgesFrom file, e ∈ closed ∨ e.target ∈ earlier) : next ∈ earlier := by
  obtain ⟨e, hEdge, hSource, rfl⟩ := hJoins
  obtain ⟨hMem, hOpen⟩ := Graph.mem_edges_without.mp hEdge
  exact (hEdges e (hProper.mem_edgesFrom.mpr ⟨hMem, hSource⟩)).resolve_left hOpen

/-- Without the closed edges, paths lead from finished files to others that are finished, too. -/
theorem Settled.transGen (hProper : g.Proper) {done : List String} (h : Settled g closed done) :
    ∀ file ∈ done, ∀ target, Relation.TransGen (g.without closed).Joins file target →
      target ∈ done ∧ file ≠ target := by
  induction done with
  | nil => simp
  | cons last earlier ih =>
    obtain ⟨hFresh, hEdges, hEarlier⟩ := h
    have ih := ih hEarlier
    intro file hFile target hPath
    rcases List.mem_cons.mp hFile with rfl | hFile
    · -- the first edge leads to a file that was finished earlier, and no path leads back from there
      have hMem : target ∈ earlier := by
        obtain ⟨next, hJoins, hRest⟩ := Relation.TransGen.head'_iff.mp hPath
        have hNext := mem_earlier_of_joins hProper hJoins hEdges
        rcases Relation.reflTransGen_iff_eq_or_transGen.mp hRest with rfl | hRest
        · exact hNext
        · exact (ih next hNext target hRest).1
      exact ⟨List.mem_cons_of_mem file hMem, fun hEq => hFresh (hEq ▸ hMem)⟩
    · obtain ⟨hMem, hNe⟩ := ih file hFile target hPath
      exact ⟨List.mem_cons_of_mem last hMem, hNe⟩

/-- The files in `done` are finished: they are those that were visited and are not on the path. -/
structure Finishes (g : Graph) (closed : List Edge) (s : Search) (done : List String) : Prop where
  visited_iff : ∀ file, file ∈ s.visited ↔ file ∈ done ∨ file ∈ s.stack.map (·.file)
  apart : ∀ frame ∈ s.stack, frame.file ∉ done
  settled : Settled g closed done
  covered : Covered g closed done s.stack

variable {done : List String} {s : Search}

theorem Finishes.leave {file : String} {stack : List Frame} (hValid : Valid g s)
    (h : Finishes g closed s done) (hTop : s.stack = ⟨file, []⟩ :: stack) :
    Finishes g closed (s.leave file stack) (file :: done) := by
  have hNodup := hValid.nodup_stack
  have hCovered := h.covered
  have hApart := h.apart
  rw [hTop] at hNodup hCovered hApart
  obtain ⟨hEdges, hBelow⟩ := hCovered
  refine ⟨?_, ?_, ⟨hApart _ List.mem_cons_self, ?_, h.settled⟩, hBelow⟩
  · intro f
    refine (h.visited_iff f).trans ?_
    rw [hTop, List.map_cons, List.mem_cons, List.mem_cons]
    exact or_left_comm.trans or_assoc.symm
  · intro frame hFrame hMem
    rcases List.mem_cons.mp hMem with hEq | hMem
    · exact (List.nodup_cons.mp hNodup).1 (List.mem_map.mpr ⟨frame, hFrame, hEq⟩)
    · exact hApart frame (List.mem_cons_of_mem _ hFrame) hMem
  · intro e he
    exact (hEdges e he).resolve_left List.not_mem_nil

/-- The edge that is taken changes neither the files on the stack nor those that are finished. -/
theorem Finishes.take {file : String} {e : Edge} {pending : List Edge} {stack : List Frame}
    {closed' : List Edge} (h : Finishes g closed s done)
    (hTop : s.stack = ⟨file, e :: pending⟩ :: stack) (hClosed : closed ⊆ closed')
    (hTaken : e ∈ closed' ∨ e.target ∈ done) : Finishes g closed' (s.take file pending stack) done := by
  have hVisited := h.visited_iff
  have hCovered := h.covered
  have hApart := h.apart
  rw [hTop] at hVisited hCovered hApart
  exact ⟨hVisited, List.forall_mem_cons.mpr (List.forall_mem_cons.mp hApart), h.settled.mono hClosed,
    hCovered.take hClosed (List.Subset.refl _) hTaken⟩

theorem Finishes.enter {file : String} (hNew : file ∉ s.visited)
    (hVisited : ∀ f, f ∈ s.visited ↔ f ∈ done ∨ f ∈ s.stack.map (·.file))
    (hApart : ∀ frame ∈ s.stack, frame.file ∉ done) (hSettled : Settled g closed done)
    (hCovered : Covered g closed (file :: done) s.stack) :
    Finishes g closed (s.enter g file) done where
  visited_iff f := by
    change f ∈ file :: s.visited ↔ f ∈ done ∨ f ∈ file :: s.stack.map (·.file)
    rw [List.mem_cons, List.mem_cons, hVisited f]
    exact or_left_comm
  apart := by
    refine List.forall_mem_cons.mpr ⟨?_, hApart⟩
    exact fun hMem => hNew ((hVisited file).mpr (.inl hMem))
  settled := hSettled
  covered := ⟨fun _ he => .inl he, hCovered⟩

theorem Finishes.restart {root : String} (h : Finishes g closed s done) (hStack : s.stack = [])
    (hNew : root ∉ s.visited) : Finishes g closed (s.restart g root) done := by
  refine Finishes.enter hNew ?_ (by simp) h.settled trivial
  exact fun file => hStack ▸ h.visited_iff file

theorem Finishes.step (hProper : g.Proper) {cycles : List Cycle} {t : Search}
    {found : Option Cycle} (hValid : Valid g s)
    (h : Finishes g (cycles.map (·.closing)) s done) (hStep : Step g s found t) :
    ∃ done', Finishes g ((cycles ++ found.toList).map (·.closing)) t done' := by
  have hGrow : cycles.map (·.closing) ⊆ (cycles ++ found.toList).map (·.closing) :=
    List.map_subset _ (List.subset_append_left _ _)
  cases hStep with
  | @leave file stack hTop =>
    rw [Option.toList_none, List.append_nil]
    exact ⟨file :: done, h.leave hValid hTop⟩
  | close hTop =>
    refine ⟨done, h.take hTop hGrow (.inl ?_)⟩
    rw [List.map_append]
    exact List.mem_append_right _ List.mem_cons_self
  | @enter file e pending stack hTop _ _ hNew =>
    rw [Option.toList_none, List.append_nil]
    have hFresh : e.target ∉ s.visited := fun hMem =>
      Bool.eq_false_iff.mp hNew (List.contains_iff_mem.mpr hMem)
    have hVisited := h.visited_iff
    have hApart := h.apart
    have hCovered := h.covered
    rw [hTop] at hVisited hApart hCovered
    exact ⟨done, Finishes.enter (s := s.take file pending stack) hFresh hVisited
      (List.forall_mem_cons.mpr (List.forall_mem_cons.mp hApart)) h.settled
      (hCovered.take (List.Subset.refl _) (List.subset_cons_self _ _) (.inr List.mem_cons_self))⟩
  | @pass file e pending stack hTop hOff hKnown =>
    refine ⟨done, h.take hTop hGrow (.inr ?_)⟩
    have hVisited : e.target ∈ s.visited := by
      have hTarget := hProper.target e (hValid.next_edge hProper hTop).1
      have hContains : ¬ s.visited.contains e.target = false := fun hNew => hKnown ⟨hTarget, hNew⟩
      exact List.contains_iff_mem.mp (by simpa using hContains)
    rcases (h.visited_iff e.target).mp hVisited with hDone | hStack
    · exact hDone
    · have hPath : e.target ∈ s.path := by rwa [hValid.path, List.mem_reverse]
      exact absurd (hValid.mem_path_iff.mpr hPath) (Bool.eq_false_iff.mp hOff)

end Search

/-! ## All cycles of a graph -/

theorem Graph.Proper.acyclic_without_closings {g : Graph} (hProper : g.Proper) :
    (g.without g.closings).Acyclic := by
  obtain ⟨t, ⟨_, done, hFinishes⟩, hEnd, hFiles⟩ := cycles_invariant (g := g)
    (P := fun cycles s =>
      Search.Valid g s ∧ ∃ done, Search.Finishes g (cycles.map Cycle.closing) s done)
    ⟨Search.Valid.start g, [], by simp, by simp, trivial, trivial⟩
    (fun ⟨hValid, done, h⟩ hStack hNew => ⟨hValid.restart hStack hNew, done, h.restart hStack hNew⟩)
    (fun ⟨hValid, _, h⟩ hStep => ⟨hValid.step hProper hStep, h.step hProper hValid hStep⟩)
  intro file hPath
  obtain ⟨_, ⟨e, hEdge, hSource, _⟩, _⟩ := Relation.TransGen.head'_iff.mp hPath
  have hFile : file ∈ g.files :=
    hSource ▸ hProper.source_mem_files (Graph.mem_edges_without.mp hEdge).1
  have hDone : file ∈ done := by
    refine ((hFinishes.visited_iff file).mp (hFiles file hFile)).resolve_right ?_
    rw [hEnd]
    exact List.not_mem_nil
  exact (hFinishes.settled.transGen hProper file hDone file hPath).2 rfl

theorem Graph.Proper.exists_closing_of_isCircuit {g : Graph} (hProper : g.Proper) {es : List Edge}
    (h : g.IsCircuit es) : ∃ e ∈ es, e ∈ g.closings := by
  by_contra hNone
  have hKept : ∀ e ∈ es, e ∉ g.closings := fun e he hClosing => hNone ⟨e, he, hClosing⟩
  exact (h.without hKept).not_acyclic hProper.acyclic_without_closings

theorem Graph.Proper.cycles_eq_nil_iff {g : Graph} (hProper : g.Proper) :
    g.cycles = [] ↔ g.Acyclic := by
  constructor
  · intro hNone file hPath
    apply hProper.acyclic_without_closings file
    refine Relation.TransGen.mono ?_ file file hPath
    rintro source target ⟨e, hEdge, hJoins⟩
    exact ⟨e, Graph.mem_edges_without.mpr ⟨hEdge, by simp [closings, hNone]⟩, hJoins⟩
  · intro hAcyclic
    by_contra hSome
    obtain ⟨c, hc⟩ := List.exists_mem_of_ne_nil _ hSome
    obtain ⟨first, rest, hRuns⟩ := hProper.cycles_runThrough c hc
    have hChain := hRuns.chain
    rw [hRuns.files] at hChain
    exact hAcyclic first (Graph.transGen_of_isChain hChain)

/-- Without the closing edges of the reported cycles the graph is acyclic; so one of them lies on every
circuit, and no cycle is reported exactly if there is none. -/
theorem closing_edges_meet_every_circuit (batch : Batch) (paths : List String) :
    ((graphOf batch paths).without (graphOf batch paths).closings).Acyclic ∧
    (∀ es, (graphOf batch paths).IsCircuit es → ∃ e ∈ es, e ∈ (graphOf batch paths).closings) ∧
    ((graphOf batch paths).cycles = [] ↔ (graphOf batch paths).Acyclic) :=
  have hProper := proper_graphOf batch paths
  ⟨hProper.acyclic_without_closings, fun _ h => hProper.exists_closing_of_isCircuit h,
    hProper.cycles_eq_nil_iff⟩

/-- The circuit through all three files of the tangled batch is met by the import that closes it. -/
theorem tangledBatch_circuit_closed :
    (graphOf tangledBatch ["c.js", "a.js", "b.js"]).IsCircuit
      [⟨"b.js", "c.js", 5⟩, ⟨"c.js", "a.js", 3⟩, ⟨"a.js", "b.js", 2⟩] ∧
    ∃ e ∈ [(⟨"b.js", "c.js", 5⟩ : Edge), ⟨"c.js", "a.js", 3⟩, ⟨"a.js", "b.js", 2⟩],
      e ∈ (graphOf tangledBatch ["c.js", "a.js", "b.js"]).closings := by
  have hCircuit : (graphOf tangledBatch ["c.js", "a.js", "b.js"]).IsCircuit
      [⟨"b.js", "c.js", 5⟩, ⟨"c.js", "a.js", 3⟩, ⟨"a.js", "b.js", 2⟩] := by
    refine ⟨?_, by simp⟩
    simp only [mem_edges_graphOf]
    decide
  exact ⟨hCircuit, (closing_edges_meet_every_circuit _ _).2.1 _ hCircuit⟩

end WebAudit.Imports
