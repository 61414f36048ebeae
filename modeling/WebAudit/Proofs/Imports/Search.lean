import Mathlib.Data.List.Chain
import WebAudit.Imports.Cycle
import WebAudit.Proofs.Imports.Graph

/-!
# The search for cycles, step by step

A search moves in steps: it leaves a file, closes a cycle, enters a file or passes an edge over. A run
is the sequence of all steps, which is finite. So whatever every step and every new root preserves
holds of the cycles that are reported in the end, and then all files were reached. In particular the
stack, the path and the set of files on the stack stay in step.
-/

namespace WebAudit.Imports

namespace Search

/-- The search after the next edge of the last file was taken. -/
def take (s : Search) (file : String) (pending : List Edge) (stack : List Frame) : Search :=
  { s with stack := ⟨file, pending⟩ :: stack }

inductive Step (g : Graph) (s : Search) : Option Cycle → Search → Prop
  | leave {file : String} {stack : List Frame} (hTop : s.stack = ⟨file, []⟩ :: stack) :
    Step g s none (s.leave file stack)
  | close {file : String} {e : Edge} {pending : List Edge} {stack : List Frame}
    (hTop : s.stack = ⟨file, e :: pending⟩ :: stack) (hOn : s.onStack.contains e.target = true) :
    Step g s (some (s.cycle e)) (s.take file pending stack)
  | enter {file : String} {e : Edge} {pending : List Edge} {stack : List Frame}
    (hTop : s.stack = ⟨file, e :: pending⟩ :: stack) (hOff : s.onStack.contains e.target = false)
    (hFile : e.target ∈ g.files) (hNew : s.visited.contains e.target = false) :
    Step g s none ((s.take file pending stack).enter g e.target)
  | pass {file : String} {e : Edge} {pending : List Edge} {stack : List Frame}
    (hTop : s.stack = ⟨file, e :: pending⟩ :: stack) (hOff : s.onStack.contains e.target = false)
    (hKnown : ¬ (e.target ∈ g.files ∧ s.visited.contains e.target = false)) :
    Step g s none (s.take file pending stack)

def Next (g : Graph) (s t : Search) : Prop :=
  ∃ found, Step g s found t

variable {g : Graph}

theorem exists_step {s : Search} (h : s.stack ≠ []) : ∃ found t, Step g s found t := by
  match hTop : s.stack, h with
  | ⟨file, []⟩ :: stack, _ => exact ⟨_, _, .leave hTop⟩
  | ⟨file, e :: pending⟩ :: stack, _ =>
    cases hOn : s.onStack.contains e.target with
    | true => exact ⟨_, _, .close hTop hOn⟩
    | false =>
      by_cases hNew : e.target ∈ g.files ∧ s.visited.contains e.target = false
      · exact ⟨_, _, .enter hTop hOn hNew.1 hNew.2⟩
      · exact ⟨_, _, .pass hTop hOn hNew⟩

theorem run_of_stack_eq_nil {s : Search} (h : s.stack = []) : run g s = ([], s) := by
  obtain ⟨stack, path, onStack, visited⟩ := s
  cases h
  rw [run]

theorem run_step {s t : Search} {found : Option Cycle} (h : Step g s found t) :
    run g s = (found.toList ++ (run g t).1, (run g t).2) := by
  obtain ⟨stack, path, onStack, visited⟩ := s
  cases h with
  | leave hTop =>
    cases hTop
    rw [run]
    rfl
  | close hTop hOn =>
    cases hTop
    rw [run, if_pos hOn]
    rfl
  | enter hTop hOff hFile hNew =>
    cases hTop
    rw [run, if_neg (Bool.eq_false_iff.mp hOff), dif_pos ⟨hFile, hNew⟩]
    rfl
  | pass hTop hOff hKnown =>
    cases hTop
    rw [run, if_neg (Bool.eq_false_iff.mp hOff), dif_neg hKnown]
    rfl

/-- No search goes on without end. -/
theorem wellFounded_next (g : Graph) : WellFounded fun t s => Next g s t := by
  refine Subrelation.wf (r := InvImage (Prod.Lex (· < ·) (· < ·))
    fun s : Search => (remaining g s.visited, work s.stack)) ?_
    (InvImage.wf _ (WellFounded.prod_lex Nat.lt_wfRel.wf Nat.lt_wfRel.wf))
  rintro t s ⟨found, hStep⟩
  cases hStep with
  | leave hTop => exact Prod.Lex.right _ (by simp [work, leave, hTop])
  | close hTop => exact Prod.Lex.right _ (by simp [work, take, hTop])
  | enter _ _ hFile hNew => exact Prod.Lex.left _ _ (remaining_enter hFile hNew)
  | pass hTop => exact Prod.Lex.right _ (by simp [work, take, hTop])

/-- What every step preserves holds at the end of a run, of all cycles reported until then. -/
theorem run_invariant {P : List Cycle → Search → Prop}
    (hStep : ∀ {cycles s found t}, P cycles s → Step g s found t → P (cycles ++ found.toList) t)
    (cycles : List Cycle) {s : Search} (h : P cycles s) : P (cycles ++ (run g s).1) (run g s).2 := by
  induction s using (wellFounded_next g).induction generalizing cycles with
  | _ s ih =>
    by_cases hStack : s.stack = []
    · rw [run_of_stack_eq_nil hStack, List.append_nil]
      exact h
    · obtain ⟨found, t, hMove⟩ := exists_step (g := g) hStack
      rw [run_step hMove, ← List.append_assoc]
      exact ih t ⟨found, hMove⟩ _ (hStep h hMove)

theorem stack_run (s : Search) : (run g s).2.stack = [] := by
  induction s using (wellFounded_next g).induction with
  | _ s ih =>
    by_cases hStack : s.stack = []
    · rw [run_of_stack_eq_nil hStack]
      exact hStack
    · obtain ⟨found, t, hMove⟩ := exists_step (g := g) hStack
      rw [run_step hMove]
      exact ih t ⟨found, hMove⟩

theorem run_reaches (s : Search) : Relation.ReflTransGen (Next g) s (run g s).2 :=
  run_invariant (P := fun _ t => Relation.ReflTransGen (Next g) s t)
    (fun h hStep => h.tail ⟨_, hStep⟩) [] Relation.ReflTransGen.refl

theorem Step.visited_subset {s t : Search} {found : Option Cycle} (h : Step g s found t) :
    s.visited ⊆ t.visited := by
  cases h with
  | enter => exact List.subset_cons_self _ _
  | _ => exact List.Subset.refl _

theorem visited_subset_run (s : Search) : s.visited ⊆ (run g s).2.visited :=
  run_invariant (P := fun _ t => s.visited ⊆ t.visited)
    (fun h hStep => List.Subset.trans h hStep.visited_subset) [] (List.Subset.refl _)

end Search

/-- What every step and every new root preserve holds when the search has gone through all roots. -/
theorem cyclesFrom_invariant {g : Graph} {P : List Cycle → Search → Prop}
    (hRoot : ∀ {cycles s root}, P cycles s → s.stack = [] → root ∉ s.visited → P cycles (s.restart g root))
    (hStep : ∀ {cycles s found t}, P cycles s → Search.Step g s found t →
      P (cycles ++ found.toList) t)
    (roots : List String) {cycles : List Cycle} {s : Search} (h : P cycles s) (hStack : s.stack = []) :
    ∃ t, P (cycles ++ cyclesFrom g s roots) t ∧ t.stack = [] ∧ s.visited ⊆ t.visited ∧
      ∀ root ∈ roots, root ∈ t.visited := by
  induction roots generalizing cycles s with
  | nil => exact ⟨s, by rwa [cyclesFrom, List.append_nil], hStack, List.Subset.refl _, by simp⟩
  | cons root roots ih =>
    rw [cyclesFrom]
    by_cases hKnown : s.visited.contains root = true
    · obtain ⟨t, hP, hEnd, hVisited, hRoots⟩ := ih h hStack
      rw [if_pos hKnown]
      refine ⟨t, hP, hEnd, hVisited, ?_⟩
      intro file hFile
      rcases List.mem_cons.mp hFile with rfl | hFile
      · exact hVisited (List.contains_iff_mem.mp hKnown)
      · exact hRoots file hFile
    · have hNew : root ∉ s.visited := fun hMem => hKnown (List.contains_iff_mem.mpr hMem)
      have hEntered := Search.visited_subset_run (g := g) (s.restart g root)
      have hRun := Search.run_invariant hStep cycles (hRoot h hStack hNew)
      obtain ⟨t, hP, hEnd, hVisited, hRoots⟩ := ih hRun (Search.stack_run _)
      rw [if_neg hKnown]
      refine ⟨t, by rwa [← List.append_assoc], hEnd, ?_, ?_⟩
      · exact fun file hFile => hVisited (hEntered (List.mem_cons_of_mem root hFile))
      · intro file hFile
        rcases List.mem_cons.mp hFile with rfl | hFile
        · exact hVisited (hEntered List.mem_cons_self)
        · exact hRoots file hFile

theorem cycles_invariant {g : Graph} {P : List Cycle → Search → Prop} (hStart : P [] {})
    (hRoot : ∀ {cycles s root}, P cycles s → s.stack = [] → root ∉ s.visited → P cycles (s.restart g root))
    (hStep : ∀ {cycles s found t}, P cycles s → Search.Step g s found t →
      P (cycles ++ found.toList) t) :
    ∃ t, P g.cycles t ∧ t.stack = [] ∧ ∀ file ∈ g.files, file ∈ t.visited := by
  obtain ⟨t, hP, hEnd, _, hFiles⟩ := cyclesFrom_invariant (P := P) hRoot hStep g.files hStart rfl
  exact ⟨t, hP, hEnd, hFiles⟩

/-! ## Stack, path and set -/

namespace Search

variable {g : Graph}

/-- The three containers agree: the path lists the files of the stack, each once, and the set holds those of the
path. All of them were reached. -/
structure Aligned (s : Search) : Prop where
  path : s.path = (s.stack.map (·.file)).reverse
  onStack : ∀ file, file ∈ s.onStack ↔ file ∈ s.path
  nodup : s.path.Nodup
  visited : s.path ⊆ s.visited

theorem Aligned.start : Aligned {} where
  path := rfl
  onStack _ := Iff.rfl
  nodup := List.nodup_nil
  visited := List.Subset.refl _

theorem Aligned.path_of_stack_cons {s : Search} (h : s.Aligned) {frame : Frame} {stack : List Frame}
    (hTop : s.stack = frame :: stack) : s.path = (stack.map (·.file)).reverse ++ [frame.file] := by
  rw [h.path, hTop, List.map_cons, List.reverse_cons]

/-- The file that is left is the last one of the path and occurs only there, so that taking it out of the set is
right. -/
theorem Aligned.leave {s : Search} (h : s.Aligned) {frame : Frame} {stack : List Frame}
    (hTop : s.stack = frame :: stack) : (s.leave frame.file stack).Aligned := by
  have hPath := h.path_of_stack_cons hTop
  have hRest : s.path.dropLast = (stack.map (·.file)).reverse := by rw [hPath, List.dropLast_concat]
  have hLast : frame.file ∉ s.path.dropLast := by
    have hNodup := h.nodup
    rw [hPath, List.nodup_append] at hNodup
    rw [hRest]
    exact fun hMem => hNodup.2.2 _ hMem _ List.mem_cons_self rfl
  refine ⟨hRest, ?_, h.nodup.sublist (List.dropLast_sublist _),
    List.Subset.trans (List.dropLast_subset _) h.visited⟩
  intro file
  change file ∈ s.onStack.filter (· != frame.file) ↔ file ∈ s.path.dropLast
  rw [List.mem_filter, h.onStack, bne_iff_ne]
  constructor
  · rintro ⟨hMem, hNe⟩
    rw [hPath, ← hRest] at hMem
    exact (List.mem_append.mp hMem).resolve_right fun hEq => hNe (List.mem_singleton.mp hEq)
  · intro hMem
    exact ⟨List.dropLast_subset _ hMem, fun hEq => hLast (hEq ▸ hMem)⟩

theorem Aligned.take {s : Search} (h : s.Aligned) {file : String} {e : Edge} {pending : List Edge}
    {stack : List Frame} (hTop : s.stack = ⟨file, e :: pending⟩ :: stack) :
    (s.take file pending stack).Aligned where
  path := (h.path_of_stack_cons hTop).trans List.reverse_cons.symm
  onStack := h.onStack
  nodup := h.nodup
  visited := h.visited

theorem Aligned.enter {s : Search} (h : s.Aligned) {file : String} (hNew : file ∉ s.visited) :
    (s.enter g file).Aligned where
  path := by
    change s.path ++ [file] = (file :: s.stack.map (·.file)).reverse
    rw [List.reverse_cons, h.path]
  onStack f := by
    change f ∈ file :: s.onStack ↔ f ∈ s.path ++ [file]
    rw [List.mem_cons, h.onStack, List.mem_append, List.mem_singleton, or_comm]
  nodup := by
    refine List.nodup_append.mpr ⟨h.nodup, List.nodup_singleton file, ?_⟩
    rintro f hMem _ hFile rfl
    exact hNew (h.visited (List.mem_singleton.mp hFile ▸ hMem))
  visited := by
    refine List.append_subset.mpr ⟨List.Subset.trans h.visited (List.subset_cons_self _ _), ?_⟩
    exact List.cons_subset.mpr ⟨List.mem_cons_self, List.nil_subset _⟩

/-- An empty stack leaves nothing on the path, so a new one can be begun. -/
theorem Aligned.restart {s : Search} (h : s.Aligned) (hStack : s.stack = []) {root : String}
    (hNew : root ∉ s.visited) : (s.restart g root).Aligned := by
  have hPath : s.path = [] := by rw [h.path, hStack]; rfl
  have hEmpty : Aligned { s with stack := [], path := [] } :=
    ⟨rfl, fun file => hPath ▸ h.onStack file, List.nodup_nil, List.nil_subset _⟩
  exact hEmpty.enter hNew

/-! ## The path of a search -/

/-- The stack of a search is a path of the graph, its end first; what is pending for a file are the last of its
edges. -/
structure Valid (g : Graph) (s : Search) : Prop extends s.Aligned where
  pending : ∀ frame ∈ s.stack, frame.pending <:+ g.edgesFrom frame.file
  chain : s.stack.IsChain fun upper lower => g.Joins lower.file upper.file

theorem Valid.start (g : Graph) : Valid g {} where
  toAligned := Aligned.start
  pending := by simp
  chain := List.IsChain.nil

theorem Valid.nodup_stack {s : Search} (h : Valid g s) : (s.stack.map (·.file)).Nodup :=
  List.nodup_reverse.mp (h.path ▸ h.nodup)

theorem Valid.mem_visited {s : Search} (h : Valid g s) {frame : Frame} (hFrame : frame ∈ s.stack) :
    frame.file ∈ s.visited := by
  apply h.visited
  rw [h.path, List.mem_reverse]
  exact List.mem_map_of_mem hFrame

theorem Valid.leave {s : Search} (h : Valid g s) {frame : Frame} {stack : List Frame}
    (hTop : s.stack = frame :: stack) : Valid g (s.leave frame.file stack) where
  toAligned := h.toAligned.leave hTop
  pending f hf := h.pending f (hTop ▸ List.mem_cons_of_mem frame hf)
  chain := List.IsChain.tail (hTop ▸ h.chain)

theorem Valid.take {s : Search} (h : Valid g s) {file : String} {e : Edge} {pending : List Edge}
    {stack : List Frame} (hTop : s.stack = ⟨file, e :: pending⟩ :: stack) :
    Valid g (s.take file pending stack) where
  toAligned := h.toAligned.take hTop
  pending := by
    have hPending := h.pending
    rw [hTop] at hPending
    obtain ⟨hHead, hTail⟩ := List.forall_mem_cons.mp hPending
    exact List.forall_mem_cons.mpr ⟨(List.suffix_cons e pending).trans hHead, hTail⟩
  chain := by
    have hChain := h.chain
    rw [hTop] at hChain
    obtain ⟨hHead, hTail⟩ := List.isChain_cons.mp hChain
    exact List.isChain_cons.mpr ⟨hHead, hTail⟩

theorem Valid.enter {s : Search} {file : String} (h : Valid g s) (hNew : file ∉ s.visited)
    (hJoins : ∀ frame ∈ s.stack.head?, g.Joins frame.file file) : Valid g (s.enter g file) where
  toAligned := h.toAligned.enter hNew
  pending := List.forall_mem_cons.mpr ⟨List.suffix_refl _, h.pending⟩
  chain := List.isChain_cons.mpr ⟨hJoins, h.chain⟩

/-- The edge that is taken next starts at the last file. -/
theorem Valid.next_edge (hProper : g.Proper) {s : Search} (h : Valid g s) {file : String} {e : Edge}
    {pending : List Edge} {stack : List Frame} (hTop : s.stack = ⟨file, e :: pending⟩ :: stack) :
    e ∈ g.edges ∧ e.source = file :=
  hProper.mem_edgesFrom.mp
    ((h.pending ⟨file, e :: pending⟩ (hTop ▸ List.mem_cons_self)).subset List.mem_cons_self)

theorem Valid.step (hProper : g.Proper) {s t : Search} {found : Option Cycle} (h : Valid g s)
    (hStep : Step g s found t) : Valid g t := by
  cases hStep with
  | leave hTop => exact h.leave hTop
  | close hTop => exact h.take hTop
  | pass hTop => exact h.take hTop
  | enter hTop _ _ hNew =>
    obtain ⟨hEdge, hSource⟩ := h.next_edge hProper hTop
    refine (h.take hTop).enter ?_ ?_
    · exact fun hMem => Bool.eq_false_iff.mp hNew (List.contains_iff_mem.mpr hMem)
    · intro frame hFrame
      cases hFrame
      exact ⟨_, hEdge, hSource, rfl⟩

theorem Valid.restart {s : Search} (h : Valid g s) (hStack : s.stack = []) {root : String}
    (hNew : root ∉ s.visited) : Valid g (s.restart g root) where
  toAligned := h.toAligned.restart hStack hNew
  pending := List.forall_mem_cons.mpr ⟨List.suffix_refl _, by simp⟩
  chain := List.IsChain.singleton _

end Search

end WebAudit.Imports
