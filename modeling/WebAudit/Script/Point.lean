/-!
# Places in a script

A place between two characters is known by the bytes before it, by the line breaks before it and by
the bytes since the last of these. Only `'\n'` breaks a line here, and widths are UTF-8 widths.
A span runs between two places and never ends on an earlier row than it starts.
-/

namespace WebAudit.Script

structure Point where
  byte : Nat := 0
  row : Nat := 0
  column : Nat := 0
deriving DecidableEq, Repr, Inhabited

namespace Point

def step (p : Point) (c : Char) : Point :=
  if c = '\n' then ⟨p.byte + 1, p.row + 1, 0⟩
  else ⟨p.byte + c.utf8Size, p.row, p.column + c.utf8Size⟩

def walk (p : Point) (cs : List Char) : Point :=
  cs.foldl step p

theorem row_le_row_step (p : Point) (c : Char) : p.row ≤ (p.step c).row := by
  unfold step
  split <;> simp

theorem row_le_row_walk (p : Point) (cs : List Char) : p.row ≤ (p.walk cs).row := by
  induction cs generalizing p with
  | nil => exact Nat.le_refl _
  | cons c cs ih => exact Nat.le_trans (row_le_row_step p c) (ih (p.step c))

theorem byte_lt_byte_step (p : Point) (c : Char) : p.byte < (p.step c).byte := by
  have hSize := c.utf8Size_pos
  unfold step
  split
  · simp
  · simp [hSize]

theorem byte_le_byte_walk (p : Point) (cs : List Char) : p.byte ≤ (p.walk cs).byte := by
  induction cs generalizing p with
  | nil => exact Nat.le_refl _
  | cons c cs ih => exact Nat.le_trans (Nat.le_of_lt (byte_lt_byte_step p c)) (ih (p.step c))

theorem walk_append (p : Point) (cs ds : List Char) : p.walk (cs ++ ds) = (p.walk cs).walk ds :=
  List.foldl_append

def Before (p : Point) (text rest : List Char) : Prop :=
  ∃ front, front ++ rest = text ∧ walk {} front = p

def In (p : Point) (text : List Char) : Prop :=
  ∃ rest, p.Before text rest

theorem before_start (text : List Char) : Before {} text text :=
  ⟨[], rfl, rfl⟩

theorem Before.walk {p : Point} {text cs rest : List Char} (h : p.Before text (cs ++ rest)) :
    (p.walk cs).Before text rest := by
  obtain ⟨front, hText, rfl⟩ := h
  refine ⟨front ++ cs, ?_, ?_⟩
  · rw [List.append_assoc, hText]
  · rw [walk_append]

theorem Before.step {p : Point} {text rest : List Char} {c : Char} (h : p.Before text (c :: rest)) :
    (p.step c).Before text rest := by
  have hWalk : p.Before text ([c] ++ rest) := h
  exact hWalk.walk

theorem Before.isIn {p : Point} {text rest : List Char} (h : p.Before text rest) : p.In text :=
  ⟨rest, h⟩

/-- From a place of a text there is a way to every place that is not in front of it. -/
theorem Before.exists_walk {p q : Point} {text rest : List Char} (hp : p.Before text rest) (hq : q.In text)
    (h : p.byte ≤ q.byte) : ∃ middle behind, middle ++ behind = rest ∧ p.walk middle = q := by
  obtain ⟨frontP, hTextP, rfl⟩ := hp
  obtain ⟨restQ, frontQ, hTextQ, rfl⟩ := hq
  rcases List.prefix_or_prefix_of_prefix ⟨rest, hTextP⟩ ⟨restQ, hTextQ⟩ with ⟨middle, rfl⟩ | ⟨more, rfl⟩
  · refine ⟨middle, restQ, ?_, (walk_append _ _ _).symm⟩
    rw [← hTextP, List.append_assoc] at hTextQ
    exact List.append_cancel_left hTextQ
  · cases more with
    | nil => exact ⟨[], rest, rfl, by simp [Point.walk]⟩
    | cons c cs =>
      rw [walk_append] at h
      have hStep := byte_lt_byte_step (Point.walk {} frontQ) c
      have hWalk := byte_le_byte_walk ((Point.walk {} frontQ).step c) cs
      exact absurd (Nat.lt_of_lt_of_le hStep hWalk) (Nat.not_lt.mpr h)

end Point

structure Span where
  start : Point
  stop : Point
  rows : start.row ≤ stop.row
deriving DecidableEq, Repr

namespace Span

instance : Inhabited Span := ⟨⟨{}, {}, Nat.le_refl _⟩⟩

/-- The span from `p` to `q`; it is empty at `p` should `q` lie on an earlier row. -/
def between (p q : Point) : Span :=
  if h : p.row ≤ q.row then ⟨p, q, h⟩ else ⟨p, p, Nat.le_refl _⟩

def width (s : Span) : Nat :=
  s.stop.byte - s.start.byte

theorem start_between (p q : Point) : (between p q).start = p := by
  unfold between
  split <;> rfl

/-- No byte of the span lies behind `q`, should `p` not lie behind it. -/
theorem stop_between {p q : Point} (h : p.byte ≤ q.byte) :
    p.byte ≤ (between p q).stop.byte ∧ (between p q).stop.byte ≤ q.byte := by
  unfold between
  split
  · exact ⟨h, Nat.le_refl _⟩
  · exact ⟨Nat.le_refl _, h⟩

/-- The span runs between places of a text. -/
structure In (s : Span) (text : List Char) : Prop where
  start : s.start.In text
  stop : s.stop.In text

theorem in_between {p q : Point} {text : List Char} (hp : p.In text) (hq : q.In text) :
    (between p q).In text := by
  unfold between
  split
  · exact ⟨hp, hq⟩
  · exact ⟨hp, hp⟩

theorem stop_between_of_in {p q : Point} {text : List Char} (hp : p.In text) (hq : q.In text)
    (h : p.byte ≤ q.byte) : (between p q).stop = q := by
  obtain ⟨rest, hBefore⟩ := hp
  obtain ⟨middle, -, -, rfl⟩ := hBefore.exists_walk hq h
  exact congrArg stop (dif_pos (Point.row_le_row_walk p middle))

/-- The spans stand in another one, one after the other. -/
structure Ordered (outer : Span) (inner : List Span) : Prop where
  start : ∀ s ∈ inner, outer.start.byte ≤ s.start.byte
  forward : ∀ s ∈ inner, s.start.byte ≤ s.stop.byte
  stop : ∀ s ∈ inner, s.stop.byte ≤ outer.stop.byte
  apart : inner.Pairwise fun s t => s.stop.byte ≤ t.start.byte

theorem ordered_nil (outer : Span) : outer.Ordered [] := by
  constructor <;> simp

theorem Ordered.sublist {outer : Span} {inner fewer : List Span} (h : outer.Ordered inner)
    (hFewer : fewer.Sublist inner) : outer.Ordered fewer where
  start s hs := h.start s (hFewer.subset hs)
  forward s hs := h.forward s (hFewer.subset hs)
  stop s hs := h.stop s (hFewer.subset hs)
  apart := h.apart.sublist hFewer

def covers (s t : Span) : Bool :=
  s.start.byte ≤ t.start.byte && t.stop.byte ≤ s.stop.byte

end Span

end WebAudit.Script
