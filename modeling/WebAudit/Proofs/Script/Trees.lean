import Mathlib.Logic.Relation
import WebAudit.Script.Source

/-!
# Walks over script trees

A walk keeps the sites that are still to be visited on a stack, and has as much fuel as the tree has
nodes. So it comes to every site below those on its stack, and to no other, and it visits them as the
recursion on the tree does: what is pending is visited one after the other, each with all below it.
-/

namespace WebAudit.Script

namespace Node

theorem size_pos (n : Node) : 0 < n.size := by
  obtain ⟨label, children⟩ := n
  rw [size]
  exact Nat.succ_pos _

theorem sizeAll_children (n : Node) : sizeAll n.children + 1 = n.size := by
  obtain ⟨label, children⟩ := n
  exact (size.eq_1 label children).symm

theorem sizeAll_append (ns ms : List Node) : sizeAll (ns ++ ms) = sizeAll ns + sizeAll ms := by
  induction ns with
  | nil => simp [sizeAll]
  | cons n ns ih =>
    rw [List.cons_append, sizeAll, sizeAll, ih]
    omega

theorem sizeAll_le_of_sublist {ns ms : List Node} (h : ns.Sublist ms) : sizeAll ns ≤ sizeAll ms := by
  induction h with
  | slnil => exact Nat.le_refl _
  | cons n _ ih => exact Nat.le_trans ih (Nat.le_add_left _ _)
  | cons_cons n _ ih => exact Nat.add_le_add_left ih _

theorem sizeAll_find?_add_le {p q : Node → Bool} (h : ∀ n, p n = true → q n = false) (ns : List Node) :
    sizeAll (ns.find? p).toList + sizeAll (ns.find? q).toList ≤ sizeAll ns := by
  induction ns with
  | nil => simp [sizeAll]
  | cons n ns ih =>
    cases hp : p n with
    | true =>
      rw [List.find?_cons_of_pos hp, List.find?_cons_of_neg (by simp [h n hp])]
      simp only [Option.toList_some, sizeAll]
      omega
    | false =>
      rw [List.find?_cons_of_neg (by simp [hp])]
      cases hq : q n with
      | true =>
        rw [List.find?_cons_of_pos hq]
        simp only [Option.toList_some, sizeAll]
        omega
      | false =>
        rw [List.find?_cons_of_neg (by simp [hq])]
        simp only [sizeAll]
        omega

theorem preorderAll_append (ns ms : List Node) : preorderAll (ns ++ ms) = preorderAll ns ++ preorderAll ms := by
  induction ns with
  | nil => simp [preorderAll]
  | cons n ns ih => simp [preorderAll, ih]

theorem preorder_eq (n : Node) : n.preorder = n :: preorderAll n.children := by
  obtain ⟨label, children⟩ := n
  exact preorder.eq_1 label children

theorem mem_preorderAll_iff {m : Node} {ns : List Node} : m ∈ preorderAll ns ↔ ∃ n ∈ ns, m ∈ n.preorder := by
  induction ns with
  | nil => simp [preorderAll]
  | cons n ns ih => simp [preorderAll, ih]

theorem subtreeFrom_eq_preorderAll {fuel : Nat} {pending : List Node} (h : sizeAll pending ≤ fuel) :
    subtreeFrom fuel pending = preorderAll pending := by
  induction fuel generalizing pending with
  | zero =>
    cases pending with
    | nil => simp [subtreeFrom, preorderAll]
    | cons n pending =>
      have hPos := n.size_pos
      rw [sizeAll] at h
      omega
  | succ fuel ih =>
    cases pending with
    | nil => simp [subtreeFrom, preorderAll]
    | cons n pending =>
      have hFuel : sizeAll (n.children ++ pending) ≤ fuel := by
        have hSize := n.sizeAll_children
        rw [sizeAll] at h
        rw [sizeAll_append]
        omega
      rw [subtreeFrom, ih hFuel, preorderAll_append, preorderAll, preorder_eq, List.cons_append]

theorem subtree_eq_preorder (n : Node) : n.subtree = n.preorder := by
  rw [subtree, subtreeFrom_eq_preorderAll (by simp [sizeAll])]
  simp [preorderAll]

/-! ## Visitors -/

section Visitors

variable {σ : Type} (visit : Node → Nat → σ → Bool × σ)

mutual
/-- The calls that a visitor gets by recursion on the tree, each node with its depth and before its
children, and the state behind them. The children are left out where the visit answers `false`. -/
def traverse : Node → Nat → σ → List (Node × Nat) × σ
  | mk label children, depth, s =>
    let visited := visit (mk label children) depth s
    let below := if visited.1 then traverseAll children (depth + 1) visited.2 else ([], visited.2)
    ((mk label children, depth) :: below.1, below.2)

def traverseAll : List Node → Nat → σ → List (Node × Nat) × σ
  | [], _, s => ([], s)
  | n :: ns, depth, s =>
    let first := traverse n depth s
    let others := traverseAll ns depth first.2
    (first.1 ++ others.1, others.2)
end

theorem traverse_eq (n : Node) (depth : Nat) (s : σ) :
    n.traverse visit depth s =
      let visited := visit n depth s
      let below := if visited.1 then traverseAll visit n.children (depth + 1) visited.2 else ([], visited.2)
      ((n, depth) :: below.1, below.2) := by
  obtain ⟨label, children⟩ := n
  rw [traverse]
  rfl

theorem foldl_traverse (ns : List Node) (depth : Nat) (s : σ) :
    (ns.map (·, depth)).foldl (fun s p => (p.1.traverse visit p.2 s).2) s = (traverseAll visit ns depth s).2 := by
  induction ns generalizing s with
  | nil => rw [traverseAll]; rfl
  | cons n ns ih =>
    rw [List.map_cons, List.foldl_cons, ih, traverseAll]

/-- What is on the stack is traversed one after the other. -/
theorem walkFrom_eq_foldl {fuel : Nat} {pending : List (Node × Nat)} (h : sizeAll (pending.map (·.1)) ≤ fuel)
    (s : σ) : walkFrom visit fuel pending s = pending.foldl (fun s p => (p.1.traverse visit p.2 s).2) s := by
  -- A visit takes one node off the total size of what is pending, whether or not its children go on the stack.
  induction fuel generalizing pending s with
  | zero =>
    cases pending with
    | nil => rfl
    | cons p pending =>
      have hPos := p.1.size_pos
      rw [List.map_cons, sizeAll] at h
      omega
  | succ fuel ih =>
    cases pending with
    | nil => rfl
    | cons p pending =>
      obtain ⟨n, depth⟩ := p
      have hSize := n.sizeAll_children
      simp only [List.map_cons, sizeAll] at h
      rw [List.foldl_cons, traverse_eq]
      cases hVisit : visit n depth s with
      | mk inside s' =>
        rw [walkFrom, hVisit]
        cases inside with
        | false => exact ih (by omega) s'
        | true =>
          have hFuel : sizeAll ((n.children.map (·, depth + 1) ++ pending).map (·.1)) ≤ fuel := by
            have hNodes : (n.children.map (·, depth + 1)).map (·.1) = n.children := by simp [Function.comp_def]
            rw [List.map_append, sizeAll_append, hNodes]
            omega
          have hBelow := ih hFuel s'
          rw [List.foldl_append, foldl_traverse] at hBelow
          exact hBelow

theorem walk_eq_traverse (n : Node) (s : σ) : n.walk visit s = (n.traverse visit 0 s).2 := by
  rw [walk, walkFrom_eq_foldl visit (by simp [sizeAll])]
  rfl

def recorded (n : Node) (depth : Nat) (s : List (Node × Nat) × σ) : Bool × (List (Node × Nat) × σ) :=
  let visited := visit n depth s.2
  (visited.1, (s.1 ++ [(n, depth)], visited.2))

mutual

theorem traverse_recorded : ∀ (n : Node) (depth : Nat) (calls : List (Node × Nat)) (s : σ),
    (n.traverse (recorded visit) depth (calls, s)).2 =
      (calls ++ (n.traverse visit depth s).1, (n.traverse visit depth s).2)
  | mk label children, depth, calls, s => by
    rw [traverse, traverse, recorded]
    cases visit (mk label children) depth s with
    | mk inside s' =>
      cases inside with
      | false => rfl
      | true =>
        have hBelow := traverseAll_recorded children (depth + 1) (calls ++ [(mk label children, depth)]) s'
        rw [List.append_assoc, List.singleton_append] at hBelow
        exact hBelow

theorem traverseAll_recorded : ∀ (ns : List Node) (depth : Nat) (calls : List (Node × Nat)) (s : σ),
    (traverseAll (recorded visit) ns depth (calls, s)).2 =
      (calls ++ (traverseAll visit ns depth s).1, (traverseAll visit ns depth s).2)
  | [], depth, calls, s => by
    rw [traverseAll, traverseAll, List.append_nil]
  | n :: ns, depth, calls, s => by
    rw [traverseAll, traverseAll, traverse_recorded n, traverseAll_recorded ns, List.append_assoc]

end

/-- A walk makes the calls of the recursion on the tree, and no others. -/
theorem walk_recorded (n : Node) (s : σ) : n.walk (recorded visit) ([], s) = n.traverse visit 0 s := by
  rw [walk_eq_traverse, traverse_recorded, List.nil_append]

def noting (note : Node → Nat → σ → σ) (n : Node) (depth : Nat) (s : σ) : Bool × σ :=
  (true, note n depth s)

mutual

theorem traverse_noting (note : Node → Nat → σ → σ) : ∀ (n : Node) (depth : Nat) (s : σ),
    (n.traverse (noting note) depth s).1.map (·.1) = n.preorder
  | mk label children, depth, s => by
    rw [traverse, preorder, ← traverseAll_noting note children (depth + 1) (note (mk label children) depth s)]
    rfl

theorem traverseAll_noting (note : Node → Nat → σ → σ) : ∀ (ns : List Node) (depth : Nat) (s : σ),
    (traverseAll (noting note) ns depth s).1.map (·.1) = preorderAll ns
  | [], depth, s => by
    rw [traverseAll, preorderAll, List.map_nil]
  | n :: ns, depth, s => by
    rw [traverseAll, preorderAll, List.map_append, traverse_noting note n, traverseAll_noting note ns]

end

end Visitors

end Node

namespace Site

def below (s : Site) (n : Node) : Site :=
  ⟨n, s.node :: s.above⟩

def Above (a b : Site) : Prop :=
  b ∈ a.children

theorem above_below {s : Site} {n : Node} (h : n ∈ s.node.children) : s.Above (s.below n) :=
  List.mem_map_of_mem h

theorem below_inj {a b : Site} {c d : Node} : a.below c = b.below d ↔ a = b ∧ c = d := by
  cases a
  cases b
  simp [below, and_comm]

theorem above_iff {a b : Site} : a.Above b ↔ ∃ c ∈ a.node.children, a.below c = b :=
  List.mem_map

theorem nodes_children (s : Site) : s.children.map (·.node) = s.node.children := by
  simp [children, Function.comp_def]

/-- A step takes one site off what is pending, and puts those below it there. -/
theorem sizeAll_children_append {fuel : Nat} {s : Site} {pending : List Site}
    (h : Node.sizeAll ((s :: pending).map (·.node)) ≤ fuel + 1) :
    Node.sizeAll ((s.children ++ pending).map (·.node)) ≤ fuel := by
  have hSize := s.node.sizeAll_children
  rw [List.map_cons, Node.sizeAll] at h
  rw [List.map_append, Node.sizeAll_append, nodes_children]
  omega

theorem mem_subtreeFrom_iff {fuel : Nat} {pending : List Site}
    (h : Node.sizeAll (pending.map (·.node)) ≤ fuel) {x : Site} :
    x ∈ subtreeFrom fuel pending ↔ ∃ s ∈ pending, Relation.ReflTransGen Above s x := by
  induction fuel generalizing pending with
  | zero =>
    cases pending with
    | nil => simp [subtreeFrom]
    | cons s pending =>
      have hPos := s.node.size_pos
      rw [List.map_cons, Node.sizeAll] at h
      omega
  | succ fuel ih =>
    cases pending with
    | nil => simp [subtreeFrom]
    | cons s pending =>
      rw [subtreeFrom, List.mem_cons, ih (sizeAll_children_append h)]
      simp only [List.mem_append, List.mem_cons, or_and_right, exists_or, exists_eq_left]
      rw [Relation.ReflTransGen.cases_head_iff, ← or_assoc, eq_comm]
      rfl

theorem mem_subtree_iff {s x : Site} : x ∈ s.subtree ↔ Relation.ReflTransGen Above s x := by
  rw [subtree, mem_subtreeFrom_iff (by simp [Node.sizeAll])]
  simp

theorem nodes_subtreeFrom (fuel : Nat) (pending : List Site) :
    (subtreeFrom fuel pending).map (·.node) = Node.subtreeFrom fuel (pending.map (·.node)) := by
  induction fuel generalizing pending with
  | zero => rfl
  | succ fuel ih =>
    cases pending with
    | nil => rfl
    | cons s pending =>
      rw [subtreeFrom, List.map_cons, ih, List.map_append, nodes_children, List.map_cons, Node.subtreeFrom]

theorem nodes_subtree (s : Site) : s.subtree.map (·.node) = s.node.preorder := by
  rw [subtree, nodes_subtreeFrom, ← s.node.subtree_eq_preorder]
  rfl

end Site

theorem Source.mem_sites_of_above {s : Source} {a b : Site} (ha : a ∈ s.sites) (h : a.Above b) :
    b ∈ s.sites :=
  Site.mem_subtree_iff.mpr ((Site.mem_subtree_iff.mp ha).tail h)

theorem Source.node_mem_preorder {s : Source} {site : Site} (h : site ∈ s.sites) : site.node ∈ s.root.preorder := by
  rw [← Site.nodes_subtree { node := s.root }]
  exact List.mem_map_of_mem h

theorem Source.nodes_sitesOf (script : Source) (kind : Kind) :
    (script.sitesOf kind).map (·.node) = script.root.preorder.filter (·.kind == kind) := by
  rw [← Site.nodes_subtree { node := script.root }, List.filter_map]
  rfl

/-- The walks over a script, which keep a stack, are the recursions on its tree: a visitor is called
on the same nodes in the same order, with the same depths and states, and a visitor that goes
everywhere on all of them; the subtree of a node is listed in that order, and so are the nodes of a kind. -/
theorem Source.walks_eq_recursion (script : Source) :
    (∀ (σ : Type) (visit : Node → Nat → σ → Bool × σ) (s : σ),
      script.root.walk (Node.recorded visit) ([], s) = script.root.traverse visit 0 s ∧
      script.root.walk visit s = (script.root.traverse visit 0 s).2) ∧
    (∀ (σ : Type) (note : Node → Nat → σ → σ) (s : σ),
      (script.root.traverse (Node.noting note) 0 s).1.map (·.1) = script.root.preorder) ∧
    (∀ n : Node, n.subtree = n.preorder) ∧
    (∀ s : Site, s.subtree.map (·.node) = s.node.preorder) ∧
    ∀ kind : Kind, (script.sitesOf kind).map (·.node) = script.root.preorder.filter (·.kind == kind) :=
  ⟨fun _ visit s => ⟨Node.walk_recorded visit script.root s, Node.walk_eq_traverse visit script.root s⟩,
    fun _ note s => Node.traverse_noting note script.root 0 s, Node.subtree_eq_preorder, Site.nodes_subtree,
    script.nodes_sitesOf⟩

end WebAudit.Script
