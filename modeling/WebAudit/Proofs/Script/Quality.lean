import Mathlib.Algebra.Order.BigOperators.Group.List
import Mathlib.Algebra.Order.Group.Nat
import Mathlib.Algebra.Order.Ring.Int
import Mathlib.Data.List.Nodup
import WebAudit.Proofs.Script.Trees
import WebAudit.Script.Quality
import WebAudit.Script.Repair

/-!
# What the quality checks report

The complexity of a function counts the branch points of its whole subtree, so a function is at least as
complex as those inside it, and reported with them. Of the calls that can fail without anything to handle
it, one is reported for each line. Whether something handles it is asked on the way up from the call: a
`try` around it in the same function, or a handler further up in the chain that starts with the call.
-/

namespace WebAudit

open Relation

def Severity.weight : Severity → Nat
  | low => 0
  | medium => 1
  | high => 2
  | critical => 3

namespace Script

/-! ## Complexity -/

namespace Node

theorem complexity_eq (n : Node) : n.complexity = 1 + (n.preorder.map branching).sum := by
  have hFold : ∀ (total : Nat) (ns : List Node),
      ns.foldl (fun total node => total + branching node) total = total + (ns.map branching).sum := by
    intro total ns
    induction ns generalizing total with
    | nil => simp
    | cons m ms ih =>
      rw [List.foldl_cons, ih, List.map_cons, List.sum_cons]
      omega
  rw [complexity, hFold, subtree_eq_preorder]

theorem sum_branching_preorderAll (ns : List Node) :
    ((preorderAll ns).map branching).sum = (ns.map fun c => c.complexity - 1).sum := by
  induction ns with
  | nil => simp [preorderAll]
  | cons n ns ih =>
    rw [preorderAll, List.map_append, List.sum_append, ih, List.map_cons, List.sum_cons, complexity_eq]
    omega

theorem complexity_sub_one (n : Node) :
    n.complexity - 1 = n.branching + (n.children.map fun c => c.complexity - 1).sum := by
  rw [complexity_eq, preorder_eq, List.map_cons, List.sum_cons, sum_branching_preorderAll]
  omega

theorem complexity_pos (n : Node) : 1 ≤ n.complexity := by
  rw [complexity_eq]
  omega

theorem complexity_le_of_mem {n c : Node} (h : c ∈ n.children) : c.complexity ≤ n.complexity := by
  have hChild : c.complexity - 1 ≤ (n.children.map fun c => c.complexity - 1).sum :=
    List.single_le_sum (by simp) _ (List.mem_map_of_mem h)
  have hSum := n.complexity_sub_one
  have hPos := n.complexity_pos
  omega

end Node

theorem Site.complexity_le_of_mem_subtree {outer inner : Site} (h : inner ∈ outer.subtree) :
    inner.node.complexity ≤ outer.node.complexity := by
  rw [mem_subtree_iff] at h
  induction h with
  | refl => exact Nat.le_refl _
  | tail _ hAbove ih =>
    obtain ⟨child, hChild, rfl⟩ := List.mem_map.mp hAbove
    exact Nat.le_trans (Node.complexity_le_of_mem hChild) ih

namespace Source

theorem complexityHit_isSome_iff {d : Definition} :
    (complexityHit d).isSome = true ↔ complexityLimit < d.site.node.complexity := by
  rw [complexityHit]
  split
  · rename_i hLow
    simp [hLow]
  · rename_i hHigh
    simp [Nat.not_le.mp hHigh]

theorem severity_of_complexityHit {d : Definition} {hit : Hit} (h : complexityHit d = some hit) :
    hit.severity = some (if severeComplexity < d.site.node.complexity then .high else .medium) := by
  rw [complexityHit] at h
  split at h
  · cases h
  · cases h
    rfl

/-- The complexity of a node is one more than its own branches and those of its children. So a function inside another is
not more complex than that, and if it is reported, so is the other, at least as severely. -/
theorem complexity_rises_with_nesting (s : Source) :
    (∀ n : Node, 1 ≤ n.complexity ∧
      n.complexity - 1 = n.branching + (n.children.map fun c => c.complexity - 1).sum) ∧
    ∀ f ∈ s.definitions, ∀ g ∈ s.definitions, f.site ∈ g.site.subtree →
      f.site.node.complexity ≤ g.site.node.complexity ∧
      ∀ inner, complexityHit f = some inner →
        ∃ outer ∈ s.complexFunctions, complexityHit g = some outer ∧
          ∃ a b, inner.severity = some a ∧ outer.severity = some b ∧ a.weight ≤ b.weight := by
  refine ⟨fun n => ⟨n.complexity_pos, n.complexity_sub_one⟩, ?_⟩
  intro f _ g hg hInside
  have hLe := Site.complexity_le_of_mem_subtree hInside
  refine ⟨hLe, ?_⟩
  intro inner hInner
  have hReported : (complexityHit g).isSome = true := by
    rw [complexityHit_isSome_iff]
    have hLimit := complexityHit_isSome_iff.mp (Option.isSome_of_eq_some hInner)
    omega
  obtain ⟨outer, hOuter⟩ := Option.isSome_iff_exists.mp hReported
  refine ⟨outer, List.mem_filterMap.mpr ⟨g, hg, hOuter⟩, hOuter, _, _, severity_of_complexityHit hInner,
    severity_of_complexityHit hOuter, ?_⟩
  split
  · rw [if_pos (by omega)]
  · split
    · decide
    · exact Nat.le_refl _

def nestedArrows : Source :=
  .parse .javascript "()=>()=>a||a||a||a||a||a||a||a||a||a||a"

theorem nestedArrows_both_reported :
    ∃ f ∈ nestedArrows.definitions, ∃ g ∈ nestedArrows.definitions, f.site ∈ g.site.subtree ∧
      g.site.node.column < f.site.node.column ∧ f.site.node.complexity ≤ g.site.node.complexity ∧
      ∃ inner outer, complexityHit f = some inner ∧ complexityHit g = some outer ∧
        outer ∈ nestedArrows.complexFunctions := by
  have hView : (nestedArrows.sites.filter (·.node.kind.isFunction)).map (fun outer =>
      (outer.node.column, (outer.subtree.filter (·.node.kind.isFunction)).map fun inner =>
        (inner.node.column, inner.node.complexity))) = [(0, [(0, 11), (4, 11)]), (4, [(4, 11)])] := by
    decide +kernel
  obtain ⟨outer, hOuter, hOuterView⟩ := List.mem_map.mp (hView ▸ List.mem_cons_self)
  obtain ⟨hColumn, hInside⟩ := Prod.mk.inj hOuterView
  obtain ⟨inner, hInner, hInnerView⟩ :=
    List.mem_map.mp (hInside ▸ List.mem_cons_of_mem (0, 11) List.mem_cons_self)
  obtain ⟨hInnerColumn, hComplexity⟩ := Prod.mk.inj hInnerView
  obtain ⟨hSubtree, hFunction⟩ := List.mem_filter.mp hInner
  have hSite : inner ∈ nestedArrows.sites :=
    Site.mem_subtree_iff.mpr ((Site.mem_subtree_iff.mp (List.mem_filter.mp hOuter).1).trans
      (Site.mem_subtree_iff.mp hSubtree))
  let f : Definition := ⟨inner, nestedArrows.definitionName inner, parameterCount inner.node⟩
  let g : Definition := ⟨outer, nestedArrows.definitionName outer, parameterCount outer.node⟩
  have hf : f ∈ nestedArrows.definitions := List.mem_map_of_mem (List.mem_filter.mpr ⟨hSite, hFunction⟩)
  have hg : g ∈ nestedArrows.definitions := List.mem_map_of_mem hOuter
  have hReported : (complexityHit f).isSome = true := by
    rw [complexityHit_isSome_iff, hComplexity]
    decide
  obtain ⟨hit, hHit⟩ := Option.isSome_iff_exists.mp hReported
  obtain ⟨hLe, hRises⟩ := (complexity_rises_with_nesting nestedArrows).2 f hf g hg hSubtree
  obtain ⟨outerHit, hMem, hOuterHit, -⟩ := hRises hit hHit
  refine ⟨f, hf, g, hg, hSubtree, ?_, hLe, hit, outerHit, hHit, hOuterHit, hMem⟩
  rw [hColumn, hInnerColumn]
  decide

end Source

/-! ## Failures that are handled -/

namespace Site

/-- The site is in the body of a `try` statement, and no function is around it there. -/
def InTryBody (site : Site) : Prop :=
  ∃ inner body statement outer, site.node :: site.above = inner ++ body :: statement :: outer ∧
    statement.kind = .tryStatement ∧ body.role = some .body ∧
    ∀ n ∈ inner ++ [body], n.kind.isFunction = false

theorem insideTryFrom_iff {current : Node} {above : List Node} :
    insideTryFrom current above = true ↔ InTryBody ⟨current, above⟩ := by
  induction above generalizing current with
  | nil =>
    simp only [insideTryFrom, Bool.false_eq_true, false_iff]
    rintro ⟨inner, body, statement, outer, hPath, -⟩
    have hLength := congrArg List.length hPath
    simp at hLength
    omega
  | cons p above ih =>
    rw [insideTryFrom]
    cases hFunction : current.kind.isFunction with
    | true =>
      simp only [if_pos, Bool.false_eq_true, false_iff]
      rintro ⟨inner, body, statement, outer, hPath, -, -, hPlain⟩
      have hFirst : current ∈ inner ++ [body] := by
        cases inner with
        | nil =>
          obtain ⟨rfl, -⟩ := List.cons.inj hPath
          simp
        | cons n inner =>
          obtain ⟨rfl, -⟩ := List.cons.inj hPath
          simp
      rw [hPlain current hFirst] at hFunction
      cases hFunction
    | false =>
      simp only [Bool.false_eq_true, if_false, Bool.or_eq_true, Bool.and_eq_true, beq_iff_eq, ih]
      constructor
      · rintro (⟨hTry, hBody⟩ | ⟨inner, body, statement, outer, hPath, hTry, hBody, hPlain⟩)
        · exact ⟨[], current, p, above, rfl, hTry, hBody, by simpa using hFunction⟩
        · refine ⟨current :: inner, body, statement, outer, congrArg (current :: ·) hPath, hTry, hBody, ?_⟩
          exact List.forall_mem_cons.mpr ⟨hFunction, hPlain⟩
      · rintro ⟨inner, body, statement, outer, hPath, hTry, hBody, hPlain⟩
        cases inner with
        | nil =>
          obtain ⟨rfl, hRest⟩ := List.cons.inj hPath
          obtain ⟨rfl, -⟩ := List.cons.inj hRest
          exact .inl ⟨hTry, hBody⟩
        | cons n inner =>
          obtain ⟨rfl, hRest⟩ := List.cons.inj hPath
          exact .inr ⟨inner, body, statement, outer, hRest, hTry, hBody, (List.forall_mem_cons.mp hPlain).2⟩

def Chained (a b : Site) : Prop :=
  ∃ member, a.above = member :: b.node :: b.above ∧ member.kind = .member ∧
    a.node.role = some .object ∧ b.node.kind = .call

end Site

namespace Source

def Catches (s : Source) (call : Node) : Prop :=
  s.memberProperty (call.child? .callee) = some "catch" ∨
    s.memberProperty (call.child? .callee) = some "then" ∧
      2 ≤ (((call.child? .arguments).map Node.contents).getD []).length

theorem takesFailure_iff {s : Source} {call : Node} : s.takesFailure call = true ↔ s.Catches call := by
  rw [takesFailure, Catches]
  split
  · rename_i hProperty
    simp [hProperty]
  · rename_i hProperty
    simp [hProperty]
  · rename_i hCatch hThen
    simp only [Bool.false_eq_true, false_iff]
    rintro (hProperty | ⟨hProperty, -⟩)
    · exact hCatch hProperty
    · exact hThen hProperty

theorem handlesFailure_iff {s : Source} {site : Site} :
    s.handlesFailure site.node site.above = true ↔
      ∃ last, ReflTransGen Site.Chained site last ∧ s.Catches last.node := by
  obtain ⟨call, above⟩ := site
  dsimp only
  fun_induction handlesFailure s call above with
  | case1 call member next above ih =>
    simp only [Bool.or_eq_true, Bool.and_eq_true, beq_iff_eq, takesFailure_iff]
    constructor
    · rintro (hCatches | ⟨⟨⟨hMember, hRole⟩, hCall⟩, hNext⟩)
      · exact ⟨_, .refl, hCatches⟩
      · obtain ⟨last, hChain, hCatches⟩ := ih.mp hNext
        exact ⟨last, .head ⟨member, rfl, hMember, hRole, hCall⟩ hChain, hCatches⟩
    · rintro ⟨last, hChain, hCatches⟩
      rcases hChain.cases_head with rfl | ⟨⟨b, rest⟩, ⟨m, hAbove, hMember, hRole, hCall⟩, hRest⟩
      · exact .inl hCatches
      · cases hAbove
        exact .inr ⟨⟨⟨hMember, hRole⟩, hCall⟩, ih.mpr ⟨last, hRest, hCatches⟩⟩
  | case2 call above hShort =>
    rw [takesFailure_iff]
    constructor
    · intro hCatches
      exact ⟨_, .refl, hCatches⟩
    · rintro ⟨last, hChain, hCatches⟩
      rcases hChain.cases_head with rfl | ⟨b, ⟨m, hAbove, -⟩, -⟩
      · exact hCatches
      · exact absurd hAbove (hShort m b.node b.above)

/-- Something handles the failure of a call: a `try` around it, or a handler, which is the call itself or
comes behind it in its chain. -/
def Handled (s : Source) (c : Site) : Prop :=
  c.InTryBody ∨ ∃ last, ReflTransGen Site.Chained c last ∧ s.Catches last.node

theorem isHandled_iff {s : Source} {site : Site} : s.isHandled site = true ↔ s.Handled site := by
  rw [isHandled, Bool.or_eq_true, handlesFailure_iff, Site.insideTry, Site.insideTryFrom_iff, Handled]

/-! ## Calls that can fail -/

def MayFail (c : Call) : Prop :=
  c.receiver = none ∧ c.name = "fetch" ∨ c.receiver = some "JSON" ∧ c.name = "parse" ∨
    c.receiver = some "axios" ∨ c.name = "then" ∧ c.receiver ≠ none

theorem isSome_mayFail_iff {c : Call} : (mayFail c).isSome = true ↔ MayFail c := by
  unfold mayFail MayFail
  split
  · rename_i h
    simp_all
  · split
    · rename_i h
      simp_all
    · split
      · rename_i h
        simp_all
      · split
        · rename_i h
          simp_all [Option.isSome_iff_ne_none]
        · rename_i h
          simp_all [Option.isSome_iff_ne_none]

/-- An `await` waits for a call: behind the keyword, this is the first thing that is no extra. -/
structure Awaits (a c : Site) : Prop where
  await : a.node.kind = .await
  call : c.node.kind = .call
  operand : ∃ n, a.node.namedChildren.find? (!·.kind.isExtra) = some n ∧ c = a.below n

-- An extra in front of the call is taken for what is awaited.
theorem awaited_eq_some_iff {a c : Site} (hAwait : a.node.kind = .await) :
    awaited a = some c ↔ Awaits a c ∧ a.node.namedChildren.head? = some c.node := by
  have hFind : a.children.find? (·.node.isNamed) = a.node.namedChildren.head?.map a.below := by
    rw [Site.children, List.find?_map, Node.namedChildren, List.head?_filter]
    rfl
  rw [awaited, hFind]
  cases hNamed : a.node.namedChildren with
  | nil => simp
  | cons m rest =>
    have hBelow : (a.below m).node = m := rfl
    simp only [List.head?_cons, Option.map_some, hBelow, Option.some.injEq]
    constructor
    · intro h
      split at h
      · rename_i hCall
        cases h
        refine ⟨⟨hAwait, eq_of_beq hCall, m, ?_, rfl⟩, rfl⟩
        simp [hNamed, eq_of_beq hCall, Kind.isExtra]
      · cases h
    · rintro ⟨⟨-, hCall, n, -, rfl⟩, rfl⟩
      exact if_pos (beq_iff_eq.mpr hCall)

/-- A call that can fail: one of those that are known to, or one that is awaited with nothing in front
of it. -/
def Candidate (s : Source) (c : Site) : Prop :=
  (∃ call ∈ s.calls, MayFail call ∧ call.site = c) ∨
    ∃ a ∈ s.sites, Awaits a c ∧ a.node.namedChildren.head? = some c.node

theorem exists_mem_failureCandidates_iff {s : Source} {c : Site} :
    (∃ what, (c, what) ∈ s.failureCandidates) ↔ s.Candidate c := by
  simp only [failureCandidates, List.mem_mergeSort, List.mem_append, List.mem_filterMap,
    Option.map_eq_some_iff, Prod.mk.injEq]
  constructor
  · rintro ⟨what, ⟨call, hCall, label, hLabel, rfl, -⟩ | ⟨a, ha, child, hChild, rfl, -⟩⟩
    · exact .inl ⟨call, hCall, isSome_mayFail_iff.mp (Option.isSome_of_eq_some hLabel), rfl⟩
    · obtain ⟨hSite, hKind⟩ := List.mem_filter.mp ha
      exact .inr ⟨a, hSite, (awaited_eq_some_iff (eq_of_beq hKind)).mp hChild⟩
  · rintro (⟨call, hCall, hMayFail, rfl⟩ | ⟨a, ha, hAwaits, hFirst⟩)
    · obtain ⟨label, hLabel⟩ := Option.isSome_iff_exists.mp (isSome_mayFail_iff.mpr hMayFail)
      exact ⟨label, .inl ⟨call, hCall, label, hLabel, rfl, rfl⟩⟩
    · refine ⟨"An awaited call", .inr ⟨a, ?_, c, ?_, rfl, rfl⟩⟩
      · exact List.mem_filter.mpr ⟨ha, beq_iff_eq.mpr hAwaits.await⟩
      · exact (awaited_eq_some_iff hAwaits.await).mpr ⟨hAwaits, hFirst⟩

/-! ## Lines -/

section Lines

variable {seen : List Nat} {candidates : List (Site × String)}

theorem mem_lines_oncePerLine_iff {line : Nat} :
    line ∈ (oncePerLine seen candidates).map (·.1.node.line) ↔
      line ∉ seen ∧ ∃ c ∈ candidates, c.1.node.line = line := by
  induction candidates generalizing seen with
  | nil => simp [oncePerLine]
  | cons c candidates ih =>
    rw [oncePerLine]
    split
    · rename_i hSeen
      rw [List.contains_iff_mem] at hSeen
      rw [ih]
      constructor
      · rintro ⟨hNew, d, hd, hLine⟩
        exact ⟨hNew, d, List.mem_cons_of_mem c hd, hLine⟩
      · rintro ⟨hNew, d, hd, rfl⟩
        rcases List.mem_cons.mp hd with rfl | hd
        · exact absurd hSeen hNew
        · exact ⟨hNew, d, hd, rfl⟩
    · rename_i hSeen
      rw [List.contains_iff_mem] at hSeen
      rw [List.map_cons, List.mem_cons, ih, List.mem_cons]
      constructor
      · rintro (rfl | ⟨hNew, d, hd, hLine⟩)
        · exact ⟨hSeen, c, List.mem_cons_self, rfl⟩
        · exact ⟨fun hLine => hNew (.inr hLine), d, List.mem_cons_of_mem c hd, hLine⟩
      · rintro ⟨hNew, d, hd, rfl⟩
        by_cases hSame : d.1.node.line = c.1.node.line
        · exact .inl hSame
        · rcases List.mem_cons.mp hd with rfl | hd
          · exact absurd rfl hSame
          · exact .inr ⟨fun h => h.elim hSame hNew, d, hd, rfl⟩

theorem nodup_lines_oncePerLine : ((oncePerLine seen candidates).map (·.1.node.line)).Nodup := by
  induction candidates generalizing seen with
  | nil => simp [oncePerLine]
  | cons c candidates ih =>
    rw [oncePerLine]
    split
    · exact ih
    · rw [List.map_cons, List.nodup_cons]
      refine ⟨?_, ih⟩
      rw [mem_lines_oncePerLine_iff]
      rintro ⟨hNew, -⟩
      exact hNew List.mem_cons_self

end Lines

theorem lines_unhandledFailures (s : Source) :
    s.unhandledFailures.map (·.line) =
      ((oncePerLine [] (s.failureCandidates.filter (!s.isHandled ·.1))).map (·.1.node.line)).map Nat.cast := by
  rw [unhandledFailures, List.map_map, List.map_map]
  rfl

/-- A line is reported once, just if a call that can fail starts on it and nothing handles the failure. -/
theorem unhandled_lines_reported_once (s : Source) :
    (s.unhandledFailures.map (·.line)).Nodup ∧
    ∀ line : Int, line ∈ s.unhandledFailures.map (·.line) ↔
      ∃ c, s.Candidate c ∧ (c.node.line : Int) = line ∧ ¬ s.Handled c := by
  rw [lines_unhandledFailures]
  refine ⟨nodup_lines_oncePerLine.map Nat.cast_injective, ?_⟩
  intro line
  simp only [List.mem_map (f := Nat.cast), mem_lines_oncePerLine_iff, List.not_mem_nil, not_false_eq_true,
    true_and, List.mem_filter, ← exists_mem_failureCandidates_iff, ← isHandled_iff, Bool.not_eq_true',
    Bool.not_eq_true]
  constructor
  · rintro ⟨-, ⟨⟨c, what⟩, ⟨hMem, hHandled⟩, rfl⟩, hLine⟩
    exact ⟨c, ⟨what, hMem⟩, hLine, hHandled⟩
  · rintro ⟨c, ⟨what, hMem⟩, hLine, hHandled⟩
    exact ⟨c.node.line, ⟨(c, what), ⟨hMem, hHandled⟩, rfl⟩, hLine⟩

def commentedAwait : Source :=
  .parse .javascript "await /* c */ f()"

theorem commentedAwait_not_reported :
    (∃ a ∈ commentedAwait.sites, ∃ c, Awaits a c ∧ ¬ commentedAwait.Handled c) ∧
    commentedAwait.unhandledFailures = [] := by
  have hView : (commentedAwait.sites.filter (·.node.kind == .await)).map (fun a =>
      (a.node.namedChildren.find? (!·.kind.isExtra)).map fun n =>
        (n.kind, commentedAwait.isHandled (a.below n))) = [some (.call, false)] := by
    decide +kernel
  have hEmpty : commentedAwait.unhandledFailures.isEmpty = true := by decide +kernel
  obtain ⟨a, ha, hOperand⟩ := List.mem_map.mp (hView ▸ List.mem_cons_self)
  obtain ⟨hSite, hAwait⟩ := List.mem_filter.mp ha
  obtain ⟨n, hFind, hn⟩ := Option.map_eq_some_iff.mp hOperand
  obtain ⟨hCall, hHandled⟩ := Prod.mk.inj hn
  refine ⟨⟨a, hSite, a.below n, ⟨eq_of_beq hAwait, hCall, n, hFind, rfl⟩, ?_⟩, List.isEmpty_iff.mp hEmpty⟩
  rw [← isHandled_iff, hHandled]
  decide

end Source

end Script

end WebAudit
