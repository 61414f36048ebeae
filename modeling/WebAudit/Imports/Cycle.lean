import WebAudit.Imports.Graph

/-!
# Cycles of imports

A search in depth, which takes files and edges in order, finds an edge back to a file on the current
path for every cycle. The path from that file on, closed by the edge, is the cycle.
-/

namespace WebAudit.Imports

/-- A file on the current path and its edges that are still to be followed. -/
structure Frame where
  file : String
  pending : List Edge
deriving DecidableEq, Repr, Inhabited

/-- Files of which each imports the next, the first one again at the end, and the last import. -/
structure Cycle where
  files : List String
  closing : Edge
deriving DecidableEq, Repr, Inhabited

/-- The state of a search: the files that were entered and not left, the last one first; the path to it, its end
last; the set of its files; and all files that were reached. -/
structure Search where
  stack : List Frame := []
  path : List String := []
  onStack : List String := []
  visited : List String := []
deriving DecidableEq, Repr, Inhabited

namespace Search

/-- The cycle that an edge back to a file on the path closes. -/
def cycle (s : Search) (e : Edge) : Cycle :=
  ⟨s.path.drop (s.path.idxOf e.target) ++ [e.target], e⟩

def leave (s : Search) (file : String) (stack : List Frame) : Search :=
  ⟨stack, s.path.dropLast, s.onStack.filter (· != file), s.visited⟩

def enter (g : Graph) (s : Search) (file : String) : Search :=
  ⟨⟨file, g.edgesFrom file⟩ :: s.stack, s.path ++ [file], file :: s.onStack, file :: s.visited⟩

def remaining (g : Graph) (visited : List String) : Nat :=
  g.files.countP fun file => !visited.contains file

def work (stack : List Frame) : Nat :=
  stack.foldr (fun frame n => frame.pending.length + 1 + n) 0

theorem countP_unvisited_lt {files visited : List String} {file : String} (hFile : file ∈ files)
    (hNew : visited.contains file = false) :
    files.countP (fun x => !(file :: visited).contains x) <
      files.countP (fun x => !visited.contains x) := by
  induction files with
  | nil => simp at hFile
  | cons f fs ih =>
    have hLe : fs.countP (fun x => !(file :: visited).contains x) ≤
        fs.countP (fun x => !visited.contains x) := by
      apply List.countP_mono_left
      intro x _ hx
      simp only [List.contains_cons, Bool.not_or, Bool.and_eq_true] at hx
      exact hx.2
    rw [List.countP_cons, List.countP_cons]
    by_cases hf : f = file
    · have hOld : (!(file :: visited).contains f) = false := by simp [hf]
      have hNow : (!visited.contains f) = true := by rw [hf, hNew]; rfl
      rw [hOld, hNow]
      simp only [Bool.false_eq_true, if_false, if_true]
      omega
    · have hMem : file ∈ fs := (List.mem_cons.mp hFile).resolve_left fun h => hf h.symm
      have hSame : (file :: visited).contains f = visited.contains f := by simp [hf]
      rw [hSame]
      have := ih hMem
      omega

theorem remaining_enter {g : Graph} {visited : List String} {file : String}
    (hFile : file ∈ g.files) (hNew : visited.contains file = false) :
    remaining g (file :: visited) < remaining g visited :=
  countP_unvisited_lt hFile hNew

/-- Goes through the stack to its end, and gives the cycles found. -/
def run (g : Graph) (s : Search) : List Cycle × Search :=
  match s with
  | ⟨[], path, onStack, visited⟩ => ([], ⟨[], path, onStack, visited⟩)
  | ⟨⟨file, []⟩ :: stack, path, onStack, visited⟩ =>
    run g (leave ⟨⟨file, []⟩ :: stack, path, onStack, visited⟩ file stack)
  | ⟨⟨file, e :: pending⟩ :: stack, path, onStack, visited⟩ =>
    let here : Search := ⟨⟨file, pending⟩ :: stack, path, onStack, visited⟩
    if onStack.contains e.target then
      let (cycles, t) := run g here
      (here.cycle e :: cycles, t)
    else if _h : e.target ∈ g.files ∧ visited.contains e.target = false then
      run g (here.enter g e.target)
    else run g here
termination_by (remaining g s.visited, work s.stack)
decreasing_by
  · exact Prod.Lex.right _ (by simp [work, leave])
  · exact Prod.Lex.right _ (by simp [work])
  · exact Prod.Lex.left _ _ (remaining_enter _h.1 _h.2)
  · exact Prod.Lex.right _ (by simp [work])

/-- Starts again at a root, with a new stack and a new path. -/
def restart (g : Graph) (s : Search) (root : String) : Search :=
  enter g { s with stack := [], path := [] } root

end Search

/-- The cycles found from the given files on, except from those that were reached before. -/
def cyclesFrom (g : Graph) (s : Search) : List String → List Cycle
  | [] => []
  | root :: roots =>
    if s.visited.contains root then cyclesFrom g s roots
    else
      let (cycles, t) := Search.run g (s.restart g root)
      cycles ++ cyclesFrom g t roots

def Graph.cycles (g : Graph) : List Cycle :=
  cyclesFrom g {} g.files

end WebAudit.Imports
