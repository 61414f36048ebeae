import WebAudit.Finding.Basic
import WebAudit.Table

/-!
# The graph of imports

Every script file of a batch has the modules it imports, each with the line of the import. An import
that names another file of the batch is an edge.
-/

namespace WebAudit.Imports

abbrev Targets := List (String × Int)

abbrev Batch := List (String × Targets)

structure Edge where
  source : String
  target : String
  line : Int
deriving DecidableEq, Repr, Inhabited

/-- Edges of a file come in the order of their targets. -/
def Edge.le (a b : Edge) : Bool :=
  if a.target ≠ b.target then a.target < b.target else a.line ≤ b.line

abbrev Graph := List (String × List Edge)

namespace Graph

def files (g : Graph) : List String :=
  Table.keys g

def edges (g : Graph) : List Edge :=
  g.flatMap (·.2)

def edgesFrom (g : Graph) (file : String) : List Edge :=
  (g.lookup file).getD []

end Graph

def edgesOf (batch : Batch) (files : List String) (source : String) : List Edge :=
  let targets := (batch.lookup source).getD []
  let edges := targets.filterMap fun (target, line) =>
    if files.contains target && target != source then some ⟨source, target, line⟩ else none
  edges.mergeSort Edge.le

/-- The graph of a batch; only the given files are part of it. -/
def graphOf (batch : Batch) (paths : List String) : Graph :=
  let files := sortTags paths
  files.map fun file => (file, edgesOf batch files file)

end WebAudit.Imports
