import WebAudit.Script.Grammar.Statement

/-!
# Parsing

A script is read as a whole. Comments and errors were kept aside while reading; each is put back as
a child of the smallest node that it stands inside.
-/

namespace WebAudit.Script

/-- Puts an extra node among children, each of which ends before it or starts after it. -/
def Node.place (extra : Node) : List Node → List Node
  | [] => [extra]
  | n :: ns =>
    if extra.span.stop.byte ≤ n.span.start.byte then extra :: n :: ns
    else n :: place extra ns

mutual
def Node.attach (extra : Node) : Node → Node
  | .mk label children =>
    let label := { label with damaged := label.damaged || extra.isDamaged }
    match Node.attachInside extra children with
    | some children => .mk label children
    | none => .mk label (Node.place extra children)

/-- Puts an extra node into the child that it stands inside, if there is one. -/
def Node.attachInside (extra : Node) : List Node → Option (List Node)
  | [] => none
  | n :: ns =>
    if n.span.start.byte < extra.span.start.byte && extra.span.stop.byte < n.span.stop.byte then
      some (Node.attach extra n :: ns)
    else (Node.attachInside extra ns).map (n :: ·)
end

/-- Deep enough for any text of the given length: no goal leads back to itself more often than this
without a token in between. -/
def depthFor (length : Nat) : Nat :=
  8 * length + 64

def readProgram (set : Setting) (inserts : List (Nat × Kind)) (source : List Char) : Outcome Unit :=
  let start : State := { rest := source, inserts }
  match (Grammar.program (Grammar.nested (depthFor source.length))).run set start with
  | .ok _ s => .ok () (s.toToken set)
  | .stuck reach => .stuck reach

def State.tree (s : State) : Node :=
  let children := s.stack.reverse
  let root := Node.branch .program (.between {} s.point) children
  s.extras.foldl (fun root extra => Node.attach extra root) root

end WebAudit.Script
