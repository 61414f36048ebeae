import WebAudit.Script.Point
import WebAudit.Script.Kind

/-!
# Script trees

A node has a label and children; the label holds the kind, the role in the parent and the span. The
traversals keep an explicit stack whose depth is that of the tree, so that they do not nest calls;
beside them stands `preorder`, the same list by recursion on the tree.
-/

namespace WebAudit.Script

structure Label where
  kind : Kind
  span : Span
  role : Option Role := none
  /-- Inserted by a repair; such a node has no text. -/
  missing : Bool := false
  /-- The node or one below it is missing or an error. -/
  damaged : Bool := false
  text : kind.hasText = true → 0 < span.width
deriving DecidableEq, Repr

namespace Label

/-- The label of a node over a span; a construct that has text is none over an empty one. -/
def spanning (kind : Kind) (span : Span) : Label :=
  if h : kind.hasText = true → 0 < span.width then { kind, span, damaged := kind == .error, text := h }
  else { kind := .error, span, damaged := true, text := Bool.noConfusion }

instance : Inhabited Label := ⟨spanning .error default⟩

theorem span_spanning (kind : Kind) (span : Span) : (spanning kind span).span = span := by
  unfold spanning
  split <;> rfl

theorem kind_of_spanning {kind : Kind} {span : Span} (h : (spanning kind span).kind ≠ .error) :
    (spanning kind span).kind = kind := by
  unfold spanning at h ⊢
  split
  · rfl
  · rename_i hEmpty
    simp [hEmpty] at h

end Label

inductive Node where
  | mk (label : Label) (children : List Node)
deriving Repr, Inhabited

namespace Node

def label : Node → Label
  | mk l _ => l

def children : Node → List Node
  | mk _ cs => cs

@[inline] def kind (n : Node) : Kind := n.label.kind
@[inline] def span (n : Node) : Span := n.label.span
@[inline] def role (n : Node) : Option Role := n.label.role
@[inline] def isMissing (n : Node) : Bool := n.label.missing
@[inline] def isDamaged (n : Node) : Bool := n.label.damaged
@[inline] def isNamed (n : Node) : Bool := n.kind.isNamed

def withRole (n : Node) (r : Role) : Node :=
  mk { n.label with role := some r } n.children

def leaf (kind : Kind) (span : Span) : Node :=
  mk (.spanning kind span) []

def missingLeaf (kind : Kind) (p : Point) : Node :=
  mk { Label.spanning kind (.between p p) with missing := true, damaged := true } []

def branch (kind : Kind) (span : Span) (children : List Node) : Node :=
  let label := Label.spanning kind span
  mk { label with damaged := label.damaged || children.any isDamaged } children

def namedChildren (n : Node) : List Node :=
  n.children.filter isNamed

def child? (n : Node) (r : Role) : Option Node :=
  n.children.find? (·.role == some r)

mutual
def size : Node → Nat
  | mk _ cs => sizeAll cs + 1

def sizeAll : List Node → Nat
  | [] => 0
  | n :: ns => n.size + sizeAll ns
end

mutual
def preorder : Node → List Node
  | mk l cs => mk l cs :: preorderAll cs

def preorderAll : List Node → List Node
  | [] => []
  | n :: ns => n.preorder ++ preorderAll ns
end

def substitutionSpans (children : List Node) : List Span :=
  (children.filter (·.kind == .templateSubstitution)).map span

/-- All spans of the subtree lie in a text, and the substitutions of a template stand in it one after
the other. -/
inductive Within (text : List Char) : Node → Prop
  | mk {label : Label} {children : List Node} (hSpan : label.span.In text)
    (hChildren : ∀ n ∈ children, n.Within text)
    (hTemplate : label.kind = .template → label.span.Ordered (substitutionSpans children)) :
    Within text (.mk label children)

section Within

variable {text : List Char} {kind : Kind}

theorem Within.span {n : Node} (h : n.Within text) : n.span.In text := by
  obtain ⟨hSpan, -, -⟩ := h
  exact hSpan

theorem Within.children {n : Node} (h : n.Within text) : ∀ c ∈ n.children, c.Within text := by
  obtain ⟨-, hChildren, -⟩ := h
  exact hChildren

theorem Within.template {n : Node} (h : n.Within text) (hKind : n.kind = .template) :
    n.span.Ordered (substitutionSpans n.children) := by
  obtain ⟨-, -, hTemplate⟩ := h
  exact hTemplate hKind

theorem Within.withRole {n : Node} (h : n.Within text) (r : Role) : (n.withRole r).Within text :=
  .mk h.span h.children h.template

theorem within_leaf {span : Span} (h : span.In text) : (leaf kind span).Within text := by
  refine .mk ?_ (by simp) fun _ => Span.ordered_nil _
  rw [Label.span_spanning]
  exact h

theorem within_missingLeaf {p : Point} (h : p.In text) : (missingLeaf kind p).Within text := by
  refine .mk ?_ (by simp) fun _ => Span.ordered_nil _
  rw [Label.span_spanning]
  exact Span.in_between h h

theorem within_branch {span : Span} {children : List Node} (h : span.In text)
    (hChildren : ∀ n ∈ children, n.Within text)
    (hTemplate : kind = .template → span.Ordered (substitutionSpans children)) :
    (branch kind span children).Within text := by
  refine .mk ?_ hChildren ?_
  · rw [Label.span_spanning]
    exact h
  · intro (hKind : (Label.spanning kind span).kind = .template)
    change (Label.spanning kind span).span.Ordered _
    rw [Label.span_spanning]
    refine hTemplate ((Label.kind_of_spanning ?_).symm.trans hKind)
    rw [hKind]
    exact Kind.noConfusion

/-- A comment or an error, which can stand between any two tokens of a text. -/
structure Aside (text : List Char) (n : Node) : Prop where
  within : n.Within text
  extra : n.kind.isExtra = true

end Within

/-- One visit per pending node; a visit that answers `false` leaves the children out. -/
def walkFrom {σ : Type} (visit : Node → Nat → σ → Bool × σ) :
    Nat → List (Node × Nat) → σ → σ
  | 0, _, s => s
  | _ + 1, [], s => s
  | fuel + 1, (n, depth) :: pending, s =>
    match visit n depth s with
    | (true, s) => walkFrom visit fuel (n.children.map (·, depth + 1) ++ pending) s
    | (false, s) => walkFrom visit fuel pending s

/-- Visits the subtree of `n`, each node with its depth below `n` and before its children. -/
def walk {σ : Type} (visit : Node → Nat → σ → Bool × σ) (n : Node) (s : σ) : σ :=
  walkFrom visit n.size [(n, 0)] s

def subtreeFrom : Nat → List Node → List Node
  | 0, _ => []
  | _ + 1, [] => []
  | fuel + 1, n :: pending => n :: subtreeFrom fuel (n.children ++ pending)

def subtree (n : Node) : List Node :=
  subtreeFrom n.size [n]

end Node

/-- A node with the nodes above it, the nearest first. -/
structure Site where
  node : Node
  above : List Node := []
deriving Repr, Inhabited

namespace Site

def parent? (s : Site) : Option Node := s.above.head?

def children (s : Site) : List Site :=
  s.node.children.map fun c => ⟨c, s.node :: s.above⟩

def subtreeFrom : Nat → List Site → List Site
  | 0, _ => []
  | _ + 1, [] => []
  | fuel + 1, s :: pending => s :: subtreeFrom fuel (s.children ++ pending)

/-- The sites of the subtree, each before those of its children. -/
def subtree (s : Site) : List Site :=
  subtreeFrom s.node.size [s]

end Site

end WebAudit.Script
