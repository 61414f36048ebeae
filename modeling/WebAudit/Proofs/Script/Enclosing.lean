import Mathlib.Data.List.Pairwise
import WebAudit.Proofs.Script.Trees
import WebAudit.Script.Query
import WebAudit.Script.Repair

/-!
# What a site is enclosed in

A fault is reported if no other one encloses it. The walk that gathers the faults leaves out what is not
damaged and stops when there are enough of them, and still finds the first ones in the order of the tree.
Whether a site is in the body of a loop is asked on the way up from it, by comparing bytes: as siblings share
none, the only sibling inside the bytes of a body is the body itself.
-/

namespace WebAudit.Script

/-! ## Faults -/

namespace Node

def isFault (n : Node) : Bool :=
  n.isMissing || n.kind == .error

/-- In the subtree, the damaged nodes are those with a fault at or below them. -/
def Marked (n : Node) : Prop :=
  ∀ m ∈ n.preorder, m.isDamaged = m.preorder.any isFault

instance (n : Node) : Decidable n.Marked :=
  List.decidableBAll (fun m : Node => m.isDamaged = m.preorder.any isFault) n.preorder

mutual
/-- The faults of the subtree that are not inside another one. -/
def outermost : Node → List Node
  | mk label children => if (mk label children).isFault then [mk label children] else outermostAll children

def outermostAll : List Node → List Node
  | [] => []
  | n :: ns => n.outermost ++ outermostAll ns
end

theorem outermost_eq (n : Node) : n.outermost = if n.isFault then [n] else outermostAll n.children := by
  obtain ⟨label, children⟩ := n
  rw [outermost]
  rfl

theorem Marked.isDamaged_eq {n : Node} (h : n.Marked) : n.isDamaged = n.preorder.any isFault := by
  refine h n ?_
  rw [preorder_eq]
  exact List.mem_cons_self

theorem Marked.children {n : Node} (h : n.Marked) : ∀ c ∈ n.children, c.Marked := by
  intro c hc m hm
  refine h m ?_
  rw [preorder_eq]
  exact List.mem_cons_of_mem n (mem_preorderAll_iff.mpr ⟨c, hc, hm⟩)

mutual

theorem outermost_eq_nil_iff : ∀ n : Node, n.outermost = [] ↔ n.preorder.any isFault = false
  | mk label children => by
    rw [outermost, preorder, List.any_cons, Bool.or_eq_false_iff, ← outermostAll_eq_nil_iff children]
    cases (mk label children).isFault with
    | true => simp
    | false => simp

theorem outermostAll_eq_nil_iff : ∀ ns : List Node, outermostAll ns = [] ↔ (preorderAll ns).any isFault = false
  | [] => by simp [outermostAll, preorderAll]
  | n :: ns => by
    rw [outermostAll, preorderAll, List.any_append, Bool.or_eq_false_iff, List.append_eq_nil_iff,
      outermost_eq_nil_iff n, outermostAll_eq_nil_iff ns]

end

end Node

namespace Site

def isOutermostFault (s : Site) : Bool :=
  s.node.isFault && !s.above.any Node.isFault

def outermost (s : Site) : List Node :=
  if s.above.any Node.isFault then [] else s.node.outermost

theorem outermost_children (s : Site) :
    s.children.flatMap outermost =
      if s.node.isFault || s.above.any Node.isFault then [] else Node.outermostAll s.node.children := by
  have hAll : ∀ ns : List Node, (ns.map fun c => (⟨c, s.node :: s.above⟩ : Site)).flatMap outermost =
      if s.node.isFault || s.above.any Node.isFault then [] else Node.outermostAll ns := by
    intro ns
    induction ns with
    | nil => simp [Node.outermostAll]
    | cons n ns ih =>
      rw [List.map_cons, List.flatMap_cons, ih, Node.outermostAll, outermost, List.any_cons]
      split <;> rfl
  exact hAll s.node.children

theorem outermost_subtreeFrom {fuel : Nat} {pending : List Site}
    (h : Node.sizeAll (pending.map (·.node)) ≤ fuel) :
    ((subtreeFrom fuel pending).filter isOutermostFault).map (·.node) = pending.flatMap outermost := by
  induction fuel generalizing pending with
  | zero =>
    cases pending with
    | nil => rfl
    | cons s pending =>
      have hPos := s.node.size_pos
      rw [List.map_cons, Node.sizeAll] at h
      omega
  | succ fuel ih =>
    cases pending with
    | nil => rfl
    | cons s pending =>
      have hBelow := ih (sizeAll_children_append h)
      rw [List.flatMap_append, outermost_children] at hBelow
      rw [subtreeFrom, List.flatMap_cons, outermost, Node.outermost_eq, List.filter_cons, isOutermostFault]
      cases hFault : s.node.isFault with
      | true =>
        rw [hFault, Bool.true_or, if_pos rfl] at hBelow
        cases s.above.any Node.isFault with
        | true => exact hBelow
        | false => exact congrArg (s.node :: ·) hBelow
      | false =>
        rw [hFault, Bool.false_or] at hBelow
        exact hBelow

theorem outermost_subtree (n : Node) :
    ((subtree { node := n }).filter isOutermostFault).map (·.node) = n.outermost := by
  rw [subtree, outermost_subtreeFrom (by simp [Node.sizeAll])]
  simp [outermost]

end Site

namespace Source

def faultIssue (s : Source) (n : Node) : Issue where
  line := n.span.start.row + 1
  column := some n.span.start.column
  message := if n.isMissing then "Missing " ++ Text.quote n.kind.spelling else errorMessage (s.textOf n)

theorem visitIssue_eq (s : Source) (n : Node) (depth : Nat) (found : List Issue) :
    s.visitIssue n depth found =
      if maxIssues ≤ found.length then (false, found)
      else if n.isFault then (false, found ++ [s.faultIssue n])
      else (n.isDamaged, found) := by
  rw [visitIssue, Node.isFault, faultIssue, issueAt, issueAt]
  cases n.isMissing with
  | true => simp only [if_true, Bool.true_or]
  | false => simp only [Bool.false_eq_true, if_false, Bool.false_or]

mutual

/-- A walk adds the outermost faults of a subtree to those found, as long as there is room for them. -/
theorem traverse_visitIssue (s : Source) : ∀ (n : Node) (depth : Nat) (found : List Issue),
    n.Marked → found.length ≤ maxIssues →
      (n.traverse s.visitIssue depth found).2 = (found ++ n.outermost.map s.faultIssue).take maxIssues
  | .mk label children, depth, found, hMarked, hRoom => by
    rw [Node.traverse, visitIssue_eq]
    by_cases hFull : maxIssues ≤ found.length
    · rw [if_pos hFull, List.take_append_of_le_length hFull, List.take_of_length_le hRoom]
      rfl
    · rw [if_neg hFull, Node.outermost]
      cases (Node.mk label children).isFault with
      | true =>
        rw [if_pos rfl, if_pos rfl, List.take_of_length_le]
        · rfl
        · rw [List.length_append]
          exact Nat.lt_of_not_le hFull
      | false =>
        rw [if_neg Bool.false_ne_true, if_neg Bool.false_ne_true]
        cases hDamaged : (Node.mk label children).isDamaged with
        | true => exact traverseAll_visitIssue s children (depth + 1) found hMarked.children hRoom
        | false =>
          -- The subtree is left out, and there is no fault in it.
          have hNone : Node.outermostAll children = [] := by
            rw [Node.outermostAll_eq_nil_iff]
            rw [hMarked.isDamaged_eq, Node.preorder, List.any_cons, Bool.or_eq_false_iff] at hDamaged
            exact hDamaged.2
          rw [hNone, List.map_nil, List.append_nil, List.take_of_length_le hRoom]
          rfl

theorem traverseAll_visitIssue (s : Source) : ∀ (ns : List Node) (depth : Nat) (found : List Issue),
    (∀ n ∈ ns, n.Marked) → found.length ≤ maxIssues →
      (Node.traverseAll s.visitIssue ns depth found).2 =
        (found ++ (Node.outermostAll ns).map s.faultIssue).take maxIssues
  | [], depth, found, hMarked, hRoom => by
    rw [Node.traverseAll, Node.outermostAll, List.map_nil, List.append_nil, List.take_of_length_le hRoom]
  | n :: ns, depth, found, hMarked, hRoom => by
    obtain ⟨hFirst, hOthers⟩ := List.forall_mem_cons.mp hMarked
    have hTake : ∀ xs ys : List Issue, (xs.take maxIssues ++ ys).take maxIssues = (xs ++ ys).take maxIssues := by
      intro xs ys
      have hLeft : maxIssues - min maxIssues xs.length = maxIssues - xs.length := by omega
      rw [List.take_append, List.take_append, List.take_take, Nat.min_self, List.length_take, hLeft]
    rw [Node.traverseAll, Node.outermostAll, List.map_append, ← List.append_assoc]
    dsimp only
    rw [traverse_visitIssue s n depth found hFirst hRoom,
      traverseAll_visitIssue s ns depth _ hOthers (List.length_take_le _ _), hTake]

end

/-- The issues of a script whose damaged nodes are those with a fault at or below them are its first twenty
outermost faults, each at its own place. No fault is left out with a subtree: there are issues just if the
script has errors. -/
theorem issues_eq_first_outermost_faults (s : Source) (h : s.root.Marked) :
    s.issues = ((s.sites.filter Site.isOutermostFault).take 20).map (fun site => s.faultIssue site.node) ∧
    (s.issues = [] ↔ s.hasErrors = false) := by
  have hSites : (s.sites.filter Site.isOutermostFault).map (·.node) = s.root.outermost :=
    Site.outermost_subtree s.root
  have hErrors : s.hasErrors = false ↔ s.root.outermost = [] := by
    rw [Node.outermost_eq_nil_iff, ← h.isDamaged_eq, hasErrors]
  have hIssues : s.issues = (s.root.outermost.map s.faultIssue).take 20 := by
    rw [issues]
    split
    · rw [Node.walk_eq_traverse, traverse_visitIssue s s.root 0 [] h (Nat.zero_le _), List.nil_append, maxIssues]
    · rename_i hSound
      rw [hErrors.mp (Bool.eq_false_iff.mpr hSound)]
      rfl
  constructor
  · rw [hIssues, ← hSites, List.map_map, List.map_take]
    rfl
  · rw [hIssues, hErrors, List.take_eq_nil_iff, List.map_eq_nil_iff]
    simp

/-- Eleven errors, each around a missing token, and eleven missing tokens further down. -/
def crowded : Source where
  dialect := .javascript
  text := "@\n".toList
  root :=
    let start : Point := ⟨0, 0, 0⟩
    let second : Point := ⟨2, 1, 0⟩
    let missing := Node.missingLeaf (.token ";") second
    .branch .program (.between start second)
      (.leaf .emptyStatement (.between start second) ::
        List.replicate 11 (.branch .error (.between start ⟨1, 0, 1⟩) [missing]) ++
        List.replicate 11 (.branch .expressionStatement (.between second second) [missing]))

theorem crowded_issues :
    crowded.root.Marked ∧ (crowded.sites.filter (·.node.isFault)).length = 33 ∧
    (crowded.sites.filter Site.isOutermostFault).length = 22 ∧
    crowded.issues = List.replicate 11 ⟨1, some 0, "Unexpected token near '@'"⟩ ++
      List.replicate 9 ⟨2, some 0, "Missing ';'"⟩ ∧ crowded.hasErrors = true := by
  have hMarked : crowded.root.Marked := by decide +kernel
  obtain ⟨hIssues, hEmpty⟩ := issues_eq_first_outermost_faults crowded hMarked
  have hView : ((crowded.sites.filter Site.isOutermostFault).take 20).map (fun site => crowded.faultIssue site.node) =
      List.replicate 11 ⟨1, some 0, "Unexpected token near '@'"⟩ ++
        List.replicate 9 ⟨2, some 0, "Missing ';'"⟩ := by
    decide +kernel
  rw [hView] at hIssues
  refine ⟨hMarked, by decide +kernel, by decide +kernel, hIssues, ?_⟩
  rw [← Bool.not_eq_false, ← hEmpty, hIssues]
  decide

end Source

/-! ## Loops -/

theorem Kind.isLoop_iff {k : Kind} :
    k.isLoop = Bool.true ↔ k ∈ [Kind.forStatement, .forInStatement, .whileStatement, .doStatement] := by
  unfold Kind.isLoop
  split <;> simp_all

def Span.Apart (s t : Span) : Prop :=
  s.stop.byte ≤ t.start.byte ∨ t.stop.byte ≤ s.start.byte

instance (s t : Span) : Decidable (s.Apart t) :=
  inferInstanceAs (Decidable (_ ∨ _))

theorem Span.Apart.symm {s t : Span} (h : s.Apart t) : t.Apart s :=
  Or.symm h

theorem Span.not_apart_of_covers {s t : Span} (hCovers : s.covers t = true) (hWidth : 0 < t.width) :
    ¬ s.Apart t := by
  simp only [covers, Bool.and_eq_true, decide_eq_true_eq] at hCovers
  unfold width at hWidth
  unfold Apart
  omega

namespace Node

/-- The node is not empty, and no two of its children share a byte. -/
structure Spaced (n : Node) : Prop where
  filled : 0 < n.span.width
  apart : n.children.Pairwise fun a b => a.span.Apart b.span

theorem Spaced.covers_iff_eq {n a b : Node} (h : n.Spaced) (ha : a ∈ n.children) (hb : b ∈ n.children)
    (hWidth : 0 < a.span.width) : b.span.covers a.span = true ↔ b = a := by
  constructor
  · intro hCovers
    by_contra hNe
    have hSymm : Std.Symm fun a b : Node => a.span.Apart b.span := ⟨fun _ _ => Span.Apart.symm⟩
    exact Span.not_apart_of_covers hCovers hWidth (h.apart.forall hb ha hNe)
  · rintro rfl
    simp [Span.covers]

end Node

namespace Site

open Relation (ReflTransGen)

theorem eq_of_above {a a' b : Site} (h : a.Above b) (h' : a'.Above b) : a = a' := by
  obtain ⟨c, -, rfl⟩ := above_iff.mp h
  obtain ⟨c', -, hSame⟩ := above_iff.mp h'
  exact (below_inj.mp hSame).1.symm

/-- The path of a site: the nodes above it, behind its own node. -/
def path (s : Site) : List Node :=
  s.node :: s.above

theorem path_suffix_of_above {a b : Site} (h : ReflTransGen Above a b) : a.path <:+ b.path := by
  induction h with
  | refl => exact List.suffix_refl _
  | tail _ hStep ih =>
    obtain ⟨c, -, rfl⟩ := above_iff.mp hStep
    exact ih.trans (List.suffix_cons c _)

def InBodyOf (s loop : Site) : Prop :=
  loop.node.kind ∈ [Kind.forStatement, .forInStatement, .whileStatement, .doStatement] ∧
    ∃ body, loop.node.child? .body = some body ∧ ReflTransGen Above (loop.below body) s

theorem not_inBodyOf_root (root : Node) (loop : Site) : ¬ InBodyOf { node := root } loop := by
  rintro ⟨-, body, -, hBelow⟩
  have hLength := (path_suffix_of_above hBelow).length_le
  simp [path, below] at hLength

theorem inBodyOf_below_iff {a loop : Site} {c : Node} (hc : c ∈ a.node.children) :
    (a.below c).InBodyOf loop ↔
      (loop = a ∧ a.node.kind.isLoop = true ∧ a.node.child? .body = some c) ∨ a.InBodyOf loop := by
  unfold InBodyOf
  rw [← Kind.isLoop_iff]
  constructor
  · rintro ⟨hLoop, body, hBody, hBelow⟩
    rcases hBelow.cases_tail with hSame | ⟨b, hBelow, hAbove⟩
    · obtain ⟨rfl, rfl⟩ := below_inj.mp hSame
      exact .inl ⟨rfl, hLoop, hBody⟩
    · obtain rfl := eq_of_above (above_below hc) hAbove
      exact .inr ⟨hLoop, body, hBody, hBelow⟩
  · rintro (⟨rfl, hLoop, hBody⟩ | ⟨hLoop, body, hBody, hBelow⟩)
    · exact ⟨hLoop, c, hBody, .refl⟩
    · exact ⟨hLoop, body, hBody, hBelow.tail (above_below hc)⟩

theorem insideLoop_below_iff {a : Site} {c : Node} (hSpaced : a.node.Spaced) (hc : c ∈ a.node.children)
    (hWidth : 0 < c.span.width) :
    (a.below c).insideLoop = true ↔
      (a.node.kind.isLoop = true ∧ a.node.child? .body = some c) ∨ a.insideLoop = true := by
  have hCovers : (a.node.child? .body).any (·.span.covers c.span) = true ↔ a.node.child? .body = some c := by
    cases hBody : a.node.child? .body with
    | none => simp
    | some body =>
      have hMem : body ∈ a.node.children := List.mem_of_find?_eq_some hBody
      rw [Option.any_some, hSpaced.covers_iff_eq hc hMem hWidth, Option.some.injEq]
  change (a.node.kind.isLoop && (a.node.child? .body).any (·.span.covers c.span) || a.insideLoop) = true ↔ _
  rw [Bool.or_eq_true, Bool.and_eq_true, hCovers]

end Site

namespace Source

/-- A site is found to be inside a loop by the bytes of bodies just if it is the site of the body of a loop or below
it. What is in another part of a loop is not in its body. -/
theorem insideLoop_iff_in_body (s : Source) (h : ∀ n ∈ s.root.preorder, n.Spaced) :
    (∀ site ∈ s.sites, site.insideLoop = true ↔ ∃ loop ∈ s.sites, site.InBodyOf loop) ∧
    ∀ loop ∈ s.sites, ∀ c ∈ loop.node.children, loop.node.child? .body ≠ some c →
      ∀ site ∈ (loop.below c).subtree, ¬ site.InBodyOf loop := by
  constructor
  · intro site hSite
    have hWay := Site.mem_subtree_iff.mp hSite
    clear hSite
    induction hWay with
    | refl =>
      simp only [Site.not_inBodyOf_root, and_false, exists_false, iff_false]
      exact Bool.false_ne_true
    | @tail a b hWay hAbove ih =>
      have ha : a ∈ s.sites := Site.mem_subtree_iff.mpr hWay
      have hb := node_mem_preorder (mem_sites_of_above ha hAbove)
      obtain ⟨c, hc, rfl⟩ := Site.above_iff.mp hAbove
      rw [Site.insideLoop_below_iff (h a.node (node_mem_preorder ha)) hc (h c hb).filled]
      simp only [Site.inBodyOf_below_iff hc, and_or_left, exists_or]
      refine or_congr ⟨fun hLoop => ⟨a, ha, rfl, hLoop⟩, ?_⟩ ih
      rintro ⟨loop, -, rfl, hLoop⟩
      exact hLoop
  · rintro loop - c - hOther site hSite ⟨-, body, hBody, hBelow⟩
    have hHeader := Site.path_suffix_of_above (Site.mem_subtree_iff.mp hSite)
    have hPaths : (loop.below c).path <:+ (loop.below body).path :=
      List.suffix_of_suffix_length_le hHeader (Site.path_suffix_of_above hBelow) (Nat.le_refl _)
    obtain ⟨rfl, -⟩ := List.cons.inj (hPaths.eq_of_length rfl)
    exact hOther hBody

/-- The first condition is in the head of the outer loop, the second one in the head of the inner loop, which is the
body of the outer one. -/
def nestedLoops : Source :=
  .parse .javascript "for(;a();)while(b())c()"

theorem nestedLoops_calls :
    (∀ n ∈ nestedLoops.root.preorder, n.Spaced) ∧
    (nestedLoops.sitesOf .call).map (fun site => (site.node.column, site.insideLoop)) =
      [(5, false), (16, true), (20, true)] ∧
    ∀ site ∈ nestedLoops.sitesOf .call,
      site.insideLoop = true ↔ ∃ loop ∈ nestedLoops.sites, site.InBodyOf loop := by
  have hSpaced : ∀ n ∈ nestedLoops.root.preorder, n.Spaced := by
    have hAll : (nestedLoops.root.preorder.all fun n =>
        decide (0 < n.span.width) && decide (n.children.Pairwise fun a b => a.span.Apart b.span)) = true := by
      decide +kernel
    intro n hn
    have hNode := List.all_eq_true.mp hAll n hn
    rw [Bool.and_eq_true, decide_eq_true_eq, decide_eq_true_eq] at hNode
    exact ⟨hNode.1, hNode.2⟩
  refine ⟨hSpaced, by decide +kernel, ?_⟩
  intro site hSite
  exact (insideLoop_iff_in_body nestedLoops hSpaced).1 site (List.mem_filter.mp hSite).1

end Source

end WebAudit.Script
