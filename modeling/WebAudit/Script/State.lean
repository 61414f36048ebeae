import WebAudit.Script.Node
import WebAudit.Script.Splitting

/-!
# The state of a reading

What is left of the text, the nodes completed so far, and how far reading ever came. All nodes lie in
the text that is read, and each step keeps it so.
-/

namespace WebAudit.Script

/-- A token that was wanted and not found. -/
structure Stall where
  wanted : Kind
  /-- The nodes completed so far, the latest first. -/
  stack : List Node
  /-- The comments and holes passed so far, the latest first. -/
  extras : List Node
  /-- Where the last token ended. -/
  stop : Point

/-- The furthest token at which reading got stuck. -/
structure Reach where
  offset : Nat := 0
  stalls : List Stall := []
  /-- How many goals have been tried so far. -/
  effort : Nat := 0

/-- The nodes that stood there lie in a text. -/
structure Stall.Within (text : List Char) (s : Stall) : Prop where
  stack : ∀ n ∈ s.stack, n.Within text
  extras : ∀ n ∈ s.extras, n.Aside text

def Reach.Within (text : List Char) (r : Reach) : Prop :=
  ∀ stall ∈ r.stalls, stall.Within text

def Reach.note (r : Reach) (offset : Nat) (stall : Stall) : Reach :=
  if r.offset < offset then { r with offset, stalls := [stall] }
  else if offset = r.offset then { r with stalls := stall :: r.stalls }
  else r

theorem Reach.Within.note {text : List Char} {r : Reach} {offset : Nat} {stall : Stall}
    (h : r.Within text) (hStall : stall.Within text) : (r.note offset stall).Within text := by
  unfold Reach.note
  split
  · exact List.forall_mem_singleton.mpr hStall
  · split
    · exact List.forall_mem_cons.mpr ⟨hStall, h⟩
    · exact h

/-- A stretch of text put aside. -/
structure Hole where
  error : Node
  /-- The statement in front of it had ended. -/
  closed : Bool

/-- What a repair did right before the next token. -/
inductive Gap where
  | none
  /-- It settled how the token is read, so that no line end can stand in front of it. -/
  | settled
  /-- It followed the end of a statement. -/
  | closed
deriving DecidableEq

structure Setting where
  dialect : Dialect
  /-- Bounds every repetition; the length of the text is enough. -/
  limit : Nat
  holes : List Hole := []

def Setting.Within (text : List Char) (set : Setting) : Prop :=
  ∀ hole ∈ set.holes, hole.error.Aside text

/-- How many goals may be tried before no second way is looked for any more. Text that can be read
takes a small part of this; it bounds the work on text in which what is open is never closed. -/
def Setting.patience (set : Setting) : Nat :=
  60 * set.limit + 6000

structure State where
  rest : List Char
  point : Point := {}
  stack : List Node := []
  height : Nat := 0
  /-- Comments and holes passed, the latest first. -/
  extras : List Node := []
  /-- Tokens to supply, by the byte offset of the place. -/
  inserts : List (Nat × Kind) := []
  /-- An operand has just been completed. -/
  operand : Bool := false
  gap : Gap := .none
  reach : Reach := {}

/-- Nodes that stand one after the other in front of an offset, the latest first. -/
structure Node.Stacked (stop : Nat) (stack : List Node) : Prop where
  forward : ∀ n ∈ stack, n.span.start.byte ≤ n.span.stop.byte
  behind : ∀ n ∈ stack, n.span.stop.byte ≤ stop
  apart : stack.Pairwise fun later earlier => earlier.span.stop.byte ≤ later.span.start.byte

/-- The state is one of reading a text. -/
structure State.Within (text : List Char) (s : State) : Prop where
  place : s.point.Before text s.rest
  stack : ∀ n ∈ s.stack, n.Within text
  extras : ∀ n ∈ s.extras, n.Aside text
  reach : s.reach.Within text
  order : Node.Stacked s.point.byte s.stack

inductive Outcome (α : Type) where
  | ok (value : α) (state : State)
  | stuck (reach : Reach)

def Outcome.Within {α : Type} (text : List Char) : Outcome α → Prop
  | .ok _ s => s.Within text
  | .stuck reach => reach.Within text

namespace Node.Stacked

variable {stop stop' : Nat} {n : Node} {stack : List Node}

theorem nil (stop : Nat) : Stacked stop [] := by
  constructor <;> simp

theorem mono (h : Stacked stop stack) (hStop : stop ≤ stop') : Stacked stop' stack where
  forward := h.forward
  behind n hn := Nat.le_trans (h.behind n hn) hStop
  apart := h.apart

theorem cons (h : Stacked stop stack) (hStart : stop ≤ n.span.start.byte)
    (hForward : n.span.start.byte ≤ n.span.stop.byte) (hStop : n.span.stop.byte ≤ stop') :
    Stacked stop' (n :: stack) where
  forward := List.forall_mem_cons.mpr ⟨hForward, h.forward⟩
  behind := List.forall_mem_cons.mpr ⟨hStop, fun m hm => by have := h.behind m hm; omega⟩
  apart := List.pairwise_cons.mpr ⟨fun m hm => Nat.le_trans (h.behind m hm) hStart, h.apart⟩

theorem push {p q : Point} (h : Stacked p.byte stack) (hSpan : n.span = .between p q)
    (hStop : p.byte ≤ q.byte) : Stacked q.byte (n :: stack) := by
  obtain ⟨hForward, hBehind⟩ := Span.stop_between hStop
  apply h.cons
  · exact Nat.le_of_eq (by rw [hSpan, Span.start_between])
  · rw [hSpan, Span.start_between]
    exact hForward
  · rw [hSpan]
    exact hBehind

/-- Only the spans matter. -/
theorem congr {m : Node} (h : Stacked stop (n :: stack)) (hSpan : m.span = n.span) :
    Stacked stop (m :: stack) := by
  obtain ⟨hForward, hBehind, hApart⟩ := h
  rw [List.forall_mem_cons, ← hSpan] at hForward hBehind
  rw [List.pairwise_cons, ← hSpan] at hApart
  exact ⟨List.forall_mem_cons.mpr hForward, List.forall_mem_cons.mpr hBehind, List.pairwise_cons.mpr hApart⟩

section Append

variable {later : List Node} {a b : Node}

theorem reverse_apart (h : Stacked stop (later ++ stack)) :
    later.reverse.Pairwise fun m n => m.span.stop.byte ≤ n.span.start.byte :=
  List.pairwise_reverse.mpr (List.pairwise_append.mp h.apart).1

theorem first_le (h : Stacked stop (later ++ stack)) (ha : later.reverse.head? = some a) :
    ∀ n ∈ later.reverse, a.span.start.byte ≤ n.span.start.byte := by
  obtain ⟨rest, hRest⟩ := List.head?_eq_some_iff.mp ha
  have hForward : a.span.start.byte ≤ a.span.stop.byte := by
    refine h.forward a (List.mem_append_left stack (List.mem_reverse.mp ?_))
    simp [hRest]
  have hApart := h.reverse_apart
  rw [hRest] at hApart ⊢
  intro n hn
  rcases List.mem_cons.mp hn with rfl | hn
  · exact Nat.le_refl _
  · exact Nat.le_trans hForward ((List.pairwise_cons.mp hApart).1 n hn)

theorem le_last (h : Stacked stop (later ++ stack)) (hb : later.reverse.getLast? = some b) :
    ∀ n ∈ later.reverse, n.span.stop.byte ≤ b.span.stop.byte := by
  obtain ⟨front, hFront⟩ := List.getLast?_eq_some_iff.mp hb
  have hForward : b.span.start.byte ≤ b.span.stop.byte := by
    refine h.forward b (List.mem_append_left stack (List.mem_reverse.mp ?_))
    simp [hFront]
  have hApart := h.reverse_apart
  rw [hFront] at hApart ⊢
  intro n hn
  rcases List.mem_append.mp hn with hn | hn
  · have hBefore := (List.pairwise_append.mp hApart).2.2 n hn b (List.mem_singleton.mpr rfl)
    exact Nat.le_trans hBefore hForward
  · obtain rfl := List.mem_singleton.mp hn
    exact Nat.le_refl _

/-- What is below a node stands in front of it. -/
theorem below (h : Stacked stop (later ++ stack)) (ha : a ∈ later) : Stacked a.span.start.byte stack where
  forward n hn := h.forward n (List.mem_append_right later hn)
  behind n hn := (List.pairwise_append.mp h.apart).2.2 a ha n hn
  apart := (List.pairwise_append.mp h.apart).2.1

end Append

end Node.Stacked

namespace State

/-- The text and place after `n` more bytes. -/
def skipBytes : Nat → List Char → Point → List Char × Point
  | _, [], p => ([], p)
  | 0, cs, p => (cs, p)
  | n + 1, c :: cs, p => skipBytes (n + 1 - c.utf8Size) cs (p.step c)

def skipHole (s : State) (hole : Hole) : State :=
  let (rest, point) := skipBytes hole.error.span.width s.rest s.point
  let gap := if hole.closed then Gap.closed else .settled
  { s with rest, point, extras := hole.error :: s.extras, gap }

def skipExtra (s : State) (kind : Kind) (text rest : List Char) : State :=
  let point := s.point.walk text
  { s with rest, point, extras := .leaf kind (.between s.point point) :: s.extras }

def skipOne (set : Setting) (s : State) : Option State :=
  match set.holes.find? (·.error.span.start.byte == s.point.byte) with
  | some hole => some (s.skipHole hole)
  | none =>
    match s.rest with
    | [] => none
    | c :: rest =>
      if Lexeme.isBlank c then some { s with rest, point := s.point.step c }
      else
        match Lexeme.comment s.rest with
        | some (text, rest) => some (s.skipExtra .comment text rest)
        | none =>
          if s.operand then none
          else (Lexeme.htmlComment s.rest).map fun (text, rest) => s.skipExtra .htmlComment text rest

def skipFrom (set : Setting) : Nat → State → State
  | 0, s => s
  | fuel + 1, s =>
    match s.skipOne set with
    | some s => skipFrom set fuel s
    | none => s

def toToken (set : Setting) (s : State) : State :=
  skipFrom set set.limit s

def shift (s : State) (kind : Kind) (text rest : List Char) : State :=
  let point := s.point.walk text
  { s with
    rest, point
    stack := .leaf kind (.between s.point point) :: s.stack
    height := s.height + 1
    operand := false
    gap := .none }

def insert (s : State) (kind : Kind) : State :=
  { s with
    stack := .missingLeaf kind s.point :: s.stack
    height := s.height + 1
    inserts := s.inserts.erase (s.point.byte, kind)
    operand := false
    gap := .settled }

def miss (set : Setting) (s : State) (wanted : Kind) : Reach :=
  s.reach.note (s.toToken set).point.byte ⟨wanted, s.stack, s.extras, s.point⟩

/-- The span of consecutive nodes, or an empty one at `p`. -/
def hull (p : Point) (children : List Node) : Span :=
  match children.head?, children.getLast? with
  | some a, some b => .between a.span.start b.span.stop
  | _, _ => .between p p

/-- Folds the nodes above `mark` into one node. -/
def reduce (s : State) (kind : Kind) (mark : Nat) : State :=
  let n := s.height - mark
  let children := (s.stack.take n).reverse
  { s with
    stack := .branch kind (hull s.point children) children :: s.stack.drop n
    height := mark + 1 }

/-- The state after so many goals have been tried. -/
def spend (s : State) (effort : Nat) : State :=
  { s with reach := { s.reach with effort } }

def mapTop (s : State) (f : Node → Node) : State :=
  match s.stack with
  | n :: ns => { s with stack := f n :: ns }
  | [] => s

section Within

variable {text : List Char} {set : Setting} {s : State}

theorem before_skipBytes {n : Nat} {cs : List Char} {p : Point} (h : p.Before text cs) :
    (skipBytes n cs p).2.Before text (skipBytes n cs p).1 := by
  fun_induction skipBytes n cs p with
  | case1 => exact h
  | case2 => exact h
  | case3 n c cs p ih => exact ih h.step

theorem byte_le_byte_skipBytes (n : Nat) (cs : List Char) (p : Point) :
    p.byte ≤ (skipBytes n cs p).2.byte := by
  fun_induction skipBytes n cs p with
  | case1 => exact Nat.le_refl _
  | case2 => exact Nat.le_refl _
  | case3 n c cs p ih => exact Nat.le_trans (Nat.le_of_lt (p.byte_lt_byte_step c)) ih

theorem Within.skipHole {hole : Hole} (h : s.Within text) (hHole : hole.error.Aside text) :
    (s.skipHole hole).Within text :=
  ⟨before_skipBytes h.place, h.stack, List.forall_mem_cons.mpr ⟨hHole, h.extras⟩, h.reach,
    h.order.mono (byte_le_byte_skipBytes _ _ _)⟩

/-- The span of a piece of text in front. -/
theorem Within.piece {piece rest : List Char} (h : s.Within text) (hSplit : piece ++ rest = s.rest) :
    (s.point.walk piece).Before text rest ∧ (Span.between s.point (s.point.walk piece)).In text := by
  have hPlace := h.place
  rw [← hSplit] at hPlace
  exact ⟨hPlace.walk, Span.in_between hPlace.isIn hPlace.walk.isIn⟩

theorem Within.skipExtra {kind : Kind} {piece rest : List Char} (h : s.Within text)
    (hSplit : piece ++ rest = s.rest) (hKind : kind.isExtra = true) :
    (s.skipExtra kind piece rest).Within text := by
  obtain ⟨hPlace, hSpan⟩ := h.piece hSplit
  have hLeaf : (Node.leaf kind (.between s.point (s.point.walk piece))).kind.isExtra = true := by
    unfold Node.leaf Label.spanning
    split
    · exact hKind
    · rfl
  exact ⟨hPlace, h.stack, List.forall_mem_cons.mpr ⟨⟨Node.within_leaf hSpan, hLeaf⟩, h.extras⟩, h.reach,
    h.order.mono (Point.byte_le_byte_walk _ _)⟩

theorem Within.skipOne {s' : State} (hSet : set.Within text) (h : s.Within text)
    (hSkip : s.skipOne set = some s') : s'.Within text := by
  unfold State.skipOne at hSkip
  split at hSkip
  · rename_i hole hFind
    cases hSkip
    exact h.skipHole (hSet hole (List.mem_of_find?_eq_some hFind))
  · split at hSkip
    · cases hSkip
    · rename_i c rest hRest
      split at hSkip
      · cases hSkip
        exact ⟨Point.Before.step (hRest ▸ h.place), h.stack, h.extras, h.reach,
          h.order.mono (Nat.le_of_lt (Point.byte_lt_byte_step _ _))⟩
      · split at hSkip
        · rename_i hComment
          cases hSkip
          exact h.skipExtra (Lexeme.Exact.append_eq hComment) rfl
        · split at hSkip
          · cases hSkip
          · obtain ⟨⟨piece, rest⟩, hComment, rfl⟩ := Option.map_eq_some_iff.mp hSkip
            exact h.skipExtra (Lexeme.Exact.append_eq hComment) rfl

theorem Within.skipFrom {fuel : Nat} (hSet : set.Within text) (h : s.Within text) :
    (skipFrom set fuel s).Within text := by
  induction fuel generalizing s with
  | zero => exact h
  | succ fuel ih =>
    rw [State.skipFrom]
    split
    · rename_i hSkip
      exact ih (h.skipOne hSet hSkip)
    · exact h

theorem Within.toToken (hSet : set.Within text) (h : s.Within text) : (s.toToken set).Within text :=
  h.skipFrom hSet

theorem Within.shift {kind : Kind} {piece rest : List Char} (h : s.Within text)
    (hSplit : piece ++ rest = s.rest) : (s.shift kind piece rest).Within text := by
  obtain ⟨hPlace, hSpan⟩ := h.piece hSplit
  exact ⟨hPlace, List.forall_mem_cons.mpr ⟨Node.within_leaf hSpan, h.stack⟩, h.extras, h.reach,
    h.order.push (Label.span_spanning _ _) (Point.byte_le_byte_walk _ _)⟩

theorem Within.insert (h : s.Within text) (kind : Kind) : (s.insert kind).Within text :=
  ⟨h.place, List.forall_mem_cons.mpr ⟨Node.within_missingLeaf h.place.isIn, h.stack⟩, h.extras, h.reach,
    h.order.push (Label.span_spanning _ _) (Nat.le_refl _)⟩

theorem Within.note (h : s.Within text) (offset : Nat) (wanted : Kind) (stop : Point) :
    (s.reach.note offset ⟨wanted, s.stack, s.extras, stop⟩).Within text :=
  h.reach.note ⟨h.stack, h.extras⟩

theorem in_hull {p : Point} {children : List Node} (hp : p.In text)
    (hChildren : ∀ n ∈ children, n.Within text) : (hull p children).In text := by
  unfold hull
  split
  · rename_i a b hFirst hLast
    exact Span.in_between (hChildren a (List.mem_of_head? hFirst)).span.start
      (hChildren b (List.mem_of_getLast? hLast)).span.stop
  · exact Span.in_between hp hp

section Hull

variable {p : Point} {later stack : List Node}

theorem hull_cases (p : Point) (children : List Node) :
    (children = [] ∧ hull p children = .between p p) ∨
      ∃ a b, children.head? = some a ∧ children.getLast? = some b ∧
        hull p children = .between a.span.start b.span.stop := by
  cases children with
  | nil => exact .inl ⟨rfl, rfl⟩
  | cons a rest =>
    have hLast : (a :: rest).getLast? = some ((a :: rest).getLast (List.cons_ne_nil a rest)) :=
      List.getLast?_eq_some_getLast _
    refine .inr ⟨a, _, rfl, hLast, ?_⟩
    rw [hull, hLast]
    rfl

theorem stacked_hull {kind : Kind} (h : Node.Stacked p.byte (later ++ stack)) :
    Node.Stacked p.byte (.branch kind (hull p later.reverse) later.reverse :: stack) := by
  have hSpan : (Node.branch kind (hull p later.reverse) later.reverse).span = hull p later.reverse :=
    Label.span_spanning _ _
  rcases hull_cases p later.reverse with ⟨hEmpty, hHull⟩ | ⟨a, b, ha, hb, hHull⟩
  · rw [List.reverse_eq_nil_iff] at hEmpty
    rw [hEmpty, List.nil_append] at h
    exact h.push (hSpan.trans hHull) (Nat.le_refl _)
  · have hMemA : a ∈ later := List.mem_reverse.mp (List.mem_of_head? ha)
    have hMemB : b ∈ later := List.mem_reverse.mp (List.mem_of_getLast? hb)
    have hStart := h.first_le ha b (List.mem_reverse.mpr hMemB)
    have hForward := h.forward b (List.mem_append_left stack hMemB)
    have hStop := h.behind b (List.mem_append_left stack hMemB)
    exact ((h.below hMemA).push (hSpan.trans hHull) (by omega)).mono hStop

theorem ordered_hull {stop : Nat} (h : Node.Stacked stop (later ++ stack))
    (hLater : ∀ n ∈ later.reverse, n.Within text) :
    (hull p later.reverse).Ordered (Node.substitutionSpans later.reverse) := by
  rcases hull_cases p later.reverse with ⟨hEmpty, -⟩ | ⟨a, b, ha, hb, hHull⟩
  · rw [hEmpty]
    exact Span.ordered_nil _
  · have hMemA := List.mem_of_head? ha
    have hMemB := List.mem_of_getLast? hb
    have hForward : ∀ n ∈ later.reverse, n.span.start.byte ≤ n.span.stop.byte :=
      fun n hn => h.forward n (List.mem_append_left stack (List.mem_reverse.mp hn))
    have hAll : (hull p later.reverse).Ordered (later.reverse.map Node.span) := by
      have hLe : a.span.start.byte ≤ b.span.stop.byte :=
        Nat.le_trans (h.first_le ha b hMemB) (hForward b hMemB)
      rw [hHull]
      constructor
      · rw [Span.start_between, List.forall_mem_map]
        exact h.first_le ha
      · rw [List.forall_mem_map]
        exact hForward
      · rw [Span.stop_between_of_in (hLater a hMemA).span.start (hLater b hMemB).span.stop hLe,
          List.forall_mem_map]
        exact h.le_last hb
      · exact List.pairwise_map.mpr h.reverse_apart
    exact hAll.sublist (List.filter_sublist.map _)

end Hull

theorem Within.reduce (h : s.Within text) (kind : Kind) (mark : Nat) :
    (s.reduce kind mark).Within text := by
  have hChildren : ∀ n ∈ (s.stack.take (s.height - mark)).reverse, n.Within text :=
    fun n hn => h.stack n (List.mem_of_mem_take (List.mem_reverse.mp hn))
  have hOrder := h.order
  rw [← List.take_append_drop (s.height - mark) s.stack] at hOrder
  refine ⟨h.place, List.forall_mem_cons.mpr ⟨?_, ?_⟩, h.extras, h.reach, ?_⟩
  · refine Node.within_branch (in_hull h.place.isIn hChildren) hChildren ?_
    intro _
    exact ordered_hull hOrder hChildren
  · exact fun n hn => h.stack n (List.mem_of_mem_drop hn)
  · exact stacked_hull hOrder

theorem Within.spend (h : s.Within text) (effort : Nat) : (s.spend effort).Within text :=
  ⟨h.place, h.stack, h.extras, h.reach, h.order⟩

theorem Within.withReach {reach : Reach} (h : s.Within text) (hReach : reach.Within text) :
    State.Within text { s with reach } :=
  ⟨h.place, h.stack, h.extras, hReach, h.order⟩

theorem Within.withRole (h : s.Within text) (r : Role) : (s.mapTop (·.withRole r)).Within text := by
  unfold mapTop
  split
  · rename_i n ns hStack
    obtain ⟨hTop, hRest⟩ := List.forall_mem_cons.mp (hStack ▸ h.stack)
    have hOrder := h.order
    rw [hStack] at hOrder
    exact ⟨h.place, List.forall_mem_cons.mpr ⟨hTop.withRole r, hRest⟩, h.extras, h.reach, hOrder.congr rfl⟩
  · exact h

end Within

end State

end WebAudit.Script
