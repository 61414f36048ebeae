import Mathlib.Data.List.Forall2
import WebAudit.Proofs.Text.Newlines
import WebAudit.Stylesheet.Locator

/-!
# Lookups in any text

Blanking comments keeps all offsets. A place is outside comments if a scan from the start comes to it, which
takes a comment in one step; what it takes as a comment ends with the first `*/` behind its start. The blanked
text has no comment in it, since its start and its end would be those of a comment that was there before.

The blocks of a text are found in its order, however its braces stand. A lookup that finds a block leaves those
behind it for later ones, and a lookup that fails leaves all; so the blocks that a sequence of lookups finds are
some of the blocks of the text, in their order.
-/

namespace WebAudit.Stylesheet

/-! ## Comments -/

def commentOf (body : List Char) : List Char :=
  '/' :: '*' :: (body ++ ['*', '/'])

/-- The text holds no end of a comment, also if a star follows it. -/
def IsBody (body : List Char) : Prop :=
  ¬ ['*', '/'] <:+: body ++ ['*']

instance (body : List Char) : Decidable (IsBody body) :=
  inferInstanceAs (Decidable (¬ _))

theorem exists_isBody {cs : List Char} (h : ['*', '/'] <:+: cs) :
    ∃ body rest, IsBody body ∧ cs = body ++ '*' :: '/' :: rest := by
  induction cs with
  | nil => simp at h
  | cons c cs ih =>
    by_cases hHere : ['*', '/'] <+: c :: cs
    · obtain ⟨rest, hRest⟩ := hHere
      exact ⟨[], rest, by decide, hRest.symm⟩
    · obtain ⟨body, rest, hBody, rfl⟩ := ih ((List.infix_cons_iff.mp h).resolve_left hHere)
      refine ⟨c :: body, rest, ?_, rfl⟩
      rw [IsBody, List.cons_append, List.infix_cons_iff, not_or]
      refine ⟨?_, hBody⟩
      intro hPrefix
      refine hHere (hPrefix.trans ?_)
      rw [List.cons_prefix_cons]
      exact ⟨rfl, (List.prefix_append_right_inj body).mpr ⟨'/' :: rest, rfl⟩⟩

theorem closedAt_append {body rest : List Char} (h : IsBody body) :
    closedAt (body ++ '*' :: '/' :: rest) = some (body.length + 2) := by
  induction body with
  | nil => rfl
  | cons c body ih =>
    rw [IsBody, List.cons_append, List.infix_cons_iff, not_or] at h
    rw [List.cons_append, closedAt, ih h.2]
    · rfl
    · rintro rest' rfl hRest
      refine h.1 ?_
      cases body with
      | nil => cases hRest
      | cons d body =>
        obtain ⟨rfl, -⟩ := List.cons.inj hRest
        exact ⟨body ++ ['*'], rfl⟩

theorem closedAt_eq_none {cs : List Char} (h : ¬ ['*', '/'] <:+: cs) : closedAt cs = none := by
  fun_induction closedAt cs with
  | case1 cs => exact absurd (List.prefix_append ['*', '/'] cs).isInfix h
  | case2 c cs hEnd ih =>
    rw [ih fun hInfix => h (hInfix.trans (List.suffix_cons c cs).isInfix)]
    rfl
  | case3 => rfl

theorem blankComments_commentOf {body : List Char} (h : IsBody body) (rest : List Char) :
    blankComments (commentOf body ++ rest) = (commentOf body).map blankOut ++ blankComments rest := by
  have hText : commentOf body ++ rest = '/' :: '*' :: (body ++ '*' :: '/' :: rest) := by simp [commentOf]
  have hSplit : body ++ '*' :: '/' :: rest = (body ++ ['*', '/']) ++ rest := by simp
  have hLength : body.length + 2 = (body ++ ['*', '/']).length := by simp
  rw [hText, blankComments, closedAt_append h]
  dsimp only
  rw [hSplit, hLength, List.take_left, List.drop_left]
  rfl

theorem blankComments_unclosed {cs : List Char} (h : ¬ ['*', '/'] <:+: cs) : blankComments cs = cs := by
  fun_induction blankComments cs with
  | case1 cs n hn ih =>
    rw [closedAt_eq_none fun hInfix => h (hInfix.trans (List.suffix_append ['/', '*'] cs).isInfix)] at hn
    cases hn
  | case2 cs hn => rfl
  | case3 c cs hOpen ih => rw [ih fun hInfix => h (hInfix.trans (List.suffix_cons c cs).isInfix)]
  | case4 => rfl

theorem length_blankComments (cs : List Char) : (blankComments cs).length = cs.length := by
  fun_induction blankComments cs with
  | case1 cs n hn ih =>
    simp only [List.cons_append, List.length_cons, List.length_append, List.length_map, ih]
    rw [← List.length_append, List.take_append_drop]
  | case2 cs hn => rfl
  | case3 c cs hOpen ih => rw [List.length_cons, List.length_cons, ih]
  | case4 => rfl

theorem blankOut_eq_newline_iff {c : Char} : blankOut c = '\n' ↔ c = '\n' := by
  unfold blankOut
  split <;> simp_all

theorem newlines_blankComments (cs : List Char) : Text.newlines (blankComments cs) = Text.newlines cs := by
  have hCons : ∀ {c xs}, c ≠ '\n' → Text.newlines (c :: xs) = Text.newlines xs :=
    fun hc => List.count_cons_of_ne hc
  have hMap : ∀ xs : List Char, Text.newlines (xs.map blankOut) = Text.newlines xs := by
    intro xs
    rw [Text.newlines, Text.newlines, List.count, List.countP_map]
    refine List.countP_congr fun c _ => ?_
    simp [blankOut_eq_newline_iff]
  fun_induction blankComments cs with
  | case1 cs n hn ih =>
    rw [List.cons_append, List.cons_append, hCons (by decide), hCons (by decide), Text.newlines_append, hMap, ih,
      ← Text.newlines_append, List.take_append_drop, hCons (by decide), hCons (by decide)]
  | case2 cs hn => rfl
  | case3 c cs hOpen ih =>
    unfold Text.newlines at ih ⊢
    rw [List.count_cons, List.count_cons, ih]
  | case4 => rfl

/-- A character at which no comment starts stays as it is. -/
theorem blankComments_cons {c : Char} {cs : List Char} (h : ∀ body, ¬ commentOf body <+: c :: cs) :
    blankComments (c :: cs) = c :: blankComments cs := by
  by_cases hOpen : ∃ rest, c = '/' ∧ cs = '*' :: rest
  · obtain ⟨rest, rfl, rfl⟩ := hOpen
    have hClosed : ¬ ['*', '/'] <:+: rest := by
      intro hInfix
      obtain ⟨body, behind, -, rfl⟩ := exists_isBody hInfix
      refine h body ⟨behind, ?_⟩
      simp [commentOf]
    rw [blankComments, closedAt_eq_none hClosed, blankComments, blankComments_unclosed hClosed]
    simp
  · rw [blankComments]
    rintro rest rfl rfl
    exact hOpen ⟨rest, rfl, rfl⟩

theorem blankComments_uncommented {cs : List Char} (h : ∀ body, ¬ commentOf body <:+: cs) :
    blankComments cs = cs := by
  induction cs with
  | nil => rw [blankComments]
  | cons c cs ih =>
    rw [blankComments_cons fun body hPrefix => h body hPrefix.isInfix,
      ih fun body hInfix => h body (hInfix.trans (List.suffix_cons c cs).isInfix)]

section Places

variable {text : List Char} {i j k : Nat}

/-- The comment that opens at one place is closed for the first time at the other. -/
def Closes (text : List Char) (i j : Nat) : Prop :=
  ∃ body, IsBody body ∧ commentOf body <+: text.drop i ∧ j = i + (commentOf body).length

/-- The places that are reached from the start character by character, where a comment is one step. -/
inductive Outside (text : List Char) : Nat → Prop
  | start : Outside text 0
  | character {i : Nat} (hOutside : Outside text i) (hEnd : i < text.length) (hOpen : ∀ j, ¬ Closes text i j) :
    Outside text (i + 1)
  | comment {i j : Nat} (hOutside : Outside text i) (hCloses : Closes text i j) : Outside text j

/-- The character behind a place is part of a comment. -/
def InComment (text : List Char) (k : Nat) : Prop :=
  ∃ i j, Outside text i ∧ Closes text i j ∧ i ≤ k ∧ k < j

theorem Closes.lt (h : Closes text i j) : i + 1 < j := by
  obtain ⟨body, -, -, rfl⟩ := h
  simp [commentOf]

theorem exists_closes {body : List Char} (h : commentOf body <+: text.drop i) : ∃ j, Closes text i j := by
  obtain ⟨rest, hRest⟩ := h
  have hInfix : ['*', '/'] <:+: body ++ ['*', '/'] ++ rest := ⟨body, rest, rfl⟩
  obtain ⟨first, behind, hFirst, hSplit⟩ := exists_isBody hInfix
  refine ⟨_, first, hFirst, ⟨behind, ?_⟩, rfl⟩
  rw [← hRest]
  simpa [commentOf] using hSplit.symm

theorem outside_or_inComment (h : k ≤ text.length) : Outside text k ∨ InComment text k := by
  induction k with
  | zero => exact .inl .start
  | succ k ih =>
    rcases ih (Nat.le_of_succ_le h) with hOutside | ⟨i, j, hOutside, hCloses, hLe, hLt⟩
    · by_cases hOpen : ∃ j, Closes text k j
      · obtain ⟨j, hCloses⟩ := hOpen
        exact .inr ⟨k, j, hOutside, hCloses, Nat.le_succ k, hCloses.lt⟩
      · exact .inl (.character hOutside h (not_exists.mp hOpen))
    · rcases Nat.lt_or_eq_of_le (Nat.succ_le_of_lt hLt) with hInside | rfl
      · exact .inr ⟨i, j, hOutside, hCloses, Nat.le_succ_of_le hLe, hInside⟩
      · exact .inl (.comment hOutside hCloses)

/-- No comment opens at a place of the text that is in none. -/
theorem not_commentOf_prefix_of_not_inComment (h : ¬ InComment text k) (hLt : k < text.length) (body : List Char) :
    ¬ commentOf body <+: text.drop k := by
  intro hComment
  have hOutside := (outside_or_inComment (Nat.le_of_lt hLt)).resolve_right h
  obtain ⟨j, hCloses⟩ := exists_closes hComment
  exact h ⟨k, j, hOutside, hCloses, Nat.le_refl k, Nat.lt_of_succ_lt hCloses.lt⟩

/-- From a place outside comments on, the rest of the text is blanked by itself. -/
theorem Outside.drop_blankComments (h : Outside text i) :
    (blankComments text).drop i = blankComments (text.drop i) := by
  induction h with
  | start => rfl
  | @character i hOutside hEnd hOpen ih =>
    have hCons := List.drop_eq_getElem_cons hEnd
    rw [← List.drop_drop, ih, hCons, blankComments_cons, List.drop_one, List.tail_cons]
    rintro body hComment
    rw [← hCons] at hComment
    obtain ⟨j, hCloses⟩ := exists_closes hComment
    exact hOpen j hCloses
  | @comment i j hOutside hCloses ih =>
    obtain ⟨body, hBody, ⟨rest, hRest⟩, rfl⟩ := hCloses
    have hDrop : text.drop (i + (commentOf body).length) = rest := by
      rw [← List.drop_drop, ← hRest, List.drop_left]
    rw [← List.drop_drop, ih, hDrop, ← hRest, blankComments_commentOf hBody, List.drop_left']
    rw [List.length_map]

theorem getElem?_blankComments_of_inComment (h : InComment text k) :
    (blankComments text)[k]? = text[k]?.map blankOut := by
  obtain ⟨i, j, hOutside, ⟨body, hBody, ⟨rest, hRest⟩, rfl⟩, hLe, hLt⟩ := h
  obtain ⟨d, rfl⟩ := Nat.exists_eq_add_of_le hLe
  have hInside : d < (commentOf body).length := by omega
  rw [← List.getElem?_drop, ← List.getElem?_drop, hOutside.drop_blankComments, ← hRest,
    blankComments_commentOf hBody, List.getElem?_append_left (by simpa using hInside),
    List.getElem?_append_left hInside, List.getElem?_map]

theorem getElem?_blankComments_of_not_inComment (h : ¬ InComment text k) :
    (blankComments text)[k]? = text[k]? := by
  rcases Nat.lt_or_ge k text.length with hLt | hGe
  · have hOutside := (outside_or_inComment (Nat.le_of_lt hLt)).resolve_right h
    have hCons := List.drop_eq_getElem_cons hLt
    have hOpen := not_commentOf_prefix_of_not_inComment h hLt
    rw [hCons] at hOpen
    have hHead : (text.drop k)[0]? = ((blankComments text).drop k)[0]? := by
      rw [hOutside.drop_blankComments, hCons, blankComments_cons hOpen]
      rfl
    simpa using hHead.symm
  · rw [List.getElem?_eq_none hGe, List.getElem?_eq_none (by rwa [length_blankComments])]

theorem getElem?_blankComments_eq_newline_iff :
    (blankComments text)[k]? = some '\n' ↔ text[k]? = some '\n' := by
  by_cases h : InComment text k
  · rw [getElem?_blankComments_of_inComment h]
    simp [blankOut_eq_newline_iff]
  · rw [getElem?_blankComments_of_not_inComment h]

/-- What is neither blank nor a newline in the blanked text was there before, and is outside comments. -/
theorem getElem?_of_blankComments {c : Char} (h : (blankComments text)[k]? = some c) (hBlank : c ≠ ' ')
    (hNewline : c ≠ '\n') : ¬ InComment text k ∧ text[k]? = some c := by
  by_cases hInside : InComment text k
  · rw [getElem?_blankComments_of_inComment hInside, Option.map_eq_some_iff] at h
    obtain ⟨d, -, rfl⟩ := h
    unfold blankOut at hBlank hNewline
    split at hBlank <;> simp_all
  · rw [getElem?_blankComments_of_not_inComment hInside] at h
    exact ⟨hInside, h⟩

/-- The start and the end of a comment in the blanked text would be those of a comment before. -/
theorem not_commentOf_infix_blankComments (body : List Char) : ¬ commentOf body <:+: blankComments text := by
  rintro ⟨front, behind, hText⟩
  have hChar : ∀ d c, (commentOf body)[d]? = some c → c ≠ ' ' → c ≠ '\n' →
      ¬ InComment text (front.length + d) ∧ text[front.length + d]? = some c := by
    intro d c hc hBlank hNewline
    obtain ⟨hd, -⟩ := List.getElem?_eq_some_iff.mp hc
    refine getElem?_of_blankComments ?_ hBlank hNewline
    rw [← hText, List.append_assoc, List.getElem?_append_right (Nat.le_add_right _ _), Nat.add_sub_cancel_left,
      List.getElem?_append_left hd, hc]
  have hDrop : ∀ {k c}, text[k]? = some c → text.drop k = c :: text.drop (k + 1) := by
    intro k c hc
    obtain ⟨hk, rfl⟩ := List.getElem?_eq_some_iff.mp hc
    exact List.drop_eq_getElem_cons hk
  obtain ⟨hUnclosed, hSlash⟩ : ¬ InComment text front.length ∧ text[front.length]? = some '/' :=
    hChar 0 '/' rfl (by decide) (by decide)
  obtain ⟨-, hStar⟩ := hChar 1 '*' rfl (by decide) (by decide)
  obtain ⟨-, hLastStar⟩ := hChar (body.length + 2) '*' (by simp [commentOf]) (by decide) (by decide)
  obtain ⟨-, hLastSlash⟩ := hChar (body.length + 3) '/' (by simp [commentOf]) (by decide) (by decide)
  have hOpen : text.drop front.length = '/' :: '*' :: text.drop (front.length + 2) := by
    rw [hDrop hSlash, hDrop hStar]
  have hEnd : (text.drop (front.length + 2)).drop body.length =
      '*' :: '/' :: text.drop (front.length + (body.length + 4)) := by
    rw [List.drop_drop, Nat.add_assoc, Nat.add_comm 2, hDrop hLastStar]
    exact congrArg _ (hDrop hLastSlash)
  have hComment : commentOf ((text.drop (front.length + 2)).take body.length) <+: text.drop front.length := by
    refine ⟨text.drop (front.length + (body.length + 4)), ?_⟩
    rw [commentOf, List.cons_append, List.cons_append, List.append_assoc, List.cons_append, List.cons_append,
      List.nil_append, ← hEnd, List.take_append_drop, hOpen]
  obtain ⟨hLt, -⟩ := List.getElem?_eq_some_iff.mp hSlash
  exact not_commentOf_prefix_of_not_inComment hUnclosed hLt _ hComment

end Places

/-- Blanking comments keeps every offset: the length stays, newlines and what is outside comments stay where they
are, and all else becomes a blank. No comment is left, so that a second time nothing changes. -/
theorem blankComments_keeps_offsets (text : List Char) :
    (blankComments text).length = text.length ∧
    (∀ k : Nat, (blankComments text)[k]? = some '\n' ↔ text[k]? = some '\n') ∧
    (∀ k : Nat, ¬ InComment text k → (blankComments text)[k]? = text[k]?) ∧
    (∀ (k : Nat) (c : Char), InComment text k → text[k]? = some c → c ≠ '\n' →
      (blankComments text)[k]? = some ' ') ∧
    (∀ body, ¬ commentOf body <:+: blankComments text) ∧
    blankComments (blankComments text) = blankComments text := by
  refine ⟨length_blankComments text, fun k => getElem?_blankComments_eq_newline_iff,
    fun k => getElem?_blankComments_of_not_inComment, ?_, not_commentOf_infix_blankComments,
    blankComments_uncommented not_commentOf_infix_blankComments⟩
  intro k c hInside hc hNewline
  rw [getElem?_blankComments_of_inComment hInside, hc]
  simp [blankOut, hNewline]

example : blankComments "/*/\n*/*/a/*".toList = "   \n  */a/*".toList := by
  cbv

/-! ## Blocks -/

/-- A block that starts behind an offset and on no line in front of the given one, in the text and the newlines that
are left. -/
structure Block.Between (offset line length newlines : Nat) (b : Block) : Prop where
  start : offset < b.bodyStart
  forward : b.bodyStart ≤ b.bodyEnd
  stop : b.bodyEnd ≤ offset + length
  line_le : line ≤ b.line
  le_line : b.line ≤ line + newlines

/-- One block starts in front of the other, and on no later line. -/
structure Block.Before (a b : Block) : Prop where
  start : a.bodyStart < b.bodyStart
  line : a.line ≤ b.line

section Blocks

variable {offset line start : Nat} {header rest cs : List Char} {b : Block}

theorem bodyStart_of_blockAt (h : blockAt header line start rest = some b) : b.bodyStart = start := by
  unfold blockAt at h
  dsimp only at h
  split at h
  · cases h
  · cases h
    rfl

theorem between_of_blockAt (h : blockAt header line (offset + 1) rest = some b) :
    b.Between offset line (rest.length + 1) (Text.newlines header) := by
  have hBody := (List.takeWhile_sublist (l := rest) (· != '}')).length_le
  have hLead : Text.newlines (header.takeWhile Text.isBlank) ≤ Text.newlines header :=
    (List.takeWhile_sublist Text.isBlank).count_le '\n'
  unfold blockAt at h
  dsimp only at h
  split at h
  · cases h
  · cases h
    constructor <;> simp <;> omega

theorem Block.Between.widen {offset' line' length length' newlines newlines' : Nat}
    (h : b.Between offset' line' length' newlines') (hOffset : offset ≤ offset') (hLine : line ≤ line')
    (hLength : offset' + length' ≤ offset + length) (hNewlines : line' + newlines' ≤ line + newlines) :
    b.Between offset line length newlines where
  start := Nat.lt_of_le_of_lt hOffset h.start
  forward := h.forward
  stop := Nat.le_trans h.stop hLength
  line_le := Nat.le_trans hLine h.line_le
  le_line := Nat.le_trans h.le_line hNewlines

theorem blocksFrom_ordered :
    (∀ b ∈ blocksFrom offset line header cs,
      b.Between offset line cs.length (Text.newlines header + Text.newlines cs)) ∧
    (blocksFrom offset line header cs).Pairwise Block.Before := by
  induction cs generalizing offset line header with
  | nil => simp [blocksFrom]
  | cons c cs ih =>
    have hCount : Text.newlines (c :: header) + Text.newlines cs = Text.newlines header + Text.newlines (c :: cs) := by
      simp only [Text.newlines, List.count_cons]
      omega
    rw [blocksFrom]
    split
    · obtain ⟨hEach, hOrder⟩ := @ih (offset + 1) (line + Text.newlines header) []
      dsimp only
      generalize hFound : (if c == '{' then blockAt header.reverse line (offset + 1) cs else none) = found
      have hHere : ∀ b ∈ found.toList, b.bodyStart = offset + 1 ∧
          b.Between offset line (cs.length + 1) (Text.newlines header) := by
        intro b hb
        rw [Option.mem_toList.mp hb] at hFound
        split at hFound
        · have hBetween := between_of_blockAt hFound
          rw [Text.newlines, List.count_reverse] at hBetween
          exact ⟨bodyStart_of_blockAt hFound, hBetween⟩
        · cases hFound
      have hLess : Text.newlines cs ≤ Text.newlines (c :: cs) := (List.sublist_cons_self c cs).count_le '\n'
      have hEmpty : Text.newlines [] = 0 := rfl
      refine ⟨?_, List.pairwise_append.mpr ⟨?_, hOrder, ?_⟩⟩
      · intro b hb
        rcases List.mem_append.mp hb with hb | hb
        · exact (hHere b hb).2.widen (Nat.le_refl offset) (Nat.le_refl line) (Nat.le_refl _) (by omega)
        · exact (hEach b hb).widen (Nat.le_succ offset) (Nat.le_add_right _ _) (by simp; omega) (by omega)
      · cases found <;> simp
      · intro a ha b hb
        obtain ⟨hStart, hBetween⟩ := hHere a ha
        exact ⟨hStart ▸ (hEach b hb).start, Nat.le_trans hBetween.le_line (hEach b hb).line_le⟩
    · obtain ⟨hEach, hOrder⟩ := @ih (offset + 1) line (c :: header)
      refine ⟨fun b hb => (hEach b hb).widen (Nat.le_succ offset) (Nat.le_refl line) ?_ ?_, hOrder⟩
      · rw [List.length_cons]
        omega
      · exact Nat.le_of_eq (congrArg (line + ·) hCount)

end Blocks

/-! ## Lookups -/

/-- The blocks that are left when one is found are those behind it; if none is found, they are all left. -/
theorem findBlock_cases (wanted : String) (left : List Block) :
    (∃ skipped b rest, left = skipped ++ b :: rest ∧ findBlock wanted left = (some b, rest) ∧
      b.selector = normalizeSelector wanted ∧ ∀ s ∈ skipped, s.selector ≠ normalizeSelector wanted) ∨
    findBlock wanted left = (none, left) ∧ ∀ b ∈ left, b.selector ≠ normalizeSelector wanted := by
  have hSplit : left.takeWhile (·.selector != normalizeSelector wanted) ++
      left.dropWhile (·.selector != normalizeSelector wanted) = left := List.takeWhile_append_dropWhile
  have hSkipped : ∀ b ∈ left.takeWhile (·.selector != normalizeSelector wanted),
      b.selector ≠ normalizeSelector wanted := by
    intro b hb
    exact bne_iff_ne.mp (List.all_eq_true.mp List.all_takeWhile b hb)
  unfold findBlock
  dsimp only
  cases hRest : left.dropWhile (·.selector != normalizeSelector wanted) with
  | nil =>
    rw [hRest, List.append_nil] at hSplit
    rw [hSplit] at hSkipped
    exact .inr ⟨rfl, hSkipped⟩
  | cons b rest =>
    rw [hRest] at hSplit
    refine .inl ⟨_, b, rest, hSplit.symm, rfl, ?_, hSkipped⟩
    have hHead := List.head?_dropWhile_not (·.selector != normalizeSelector wanted) left
    rw [hRest] at hHead
    simpa using hHead

section Names

variable {name rest cs : List Char} {before : Option Char} {offset n : Nat}

theorem length_of_dropWord (h : Text.dropWord name cs = some rest) : cs.length = name.length + rest.length := by
  fun_induction Text.dropWord name cs with
  | case1 cs =>
    cases h
    simp
  | case2 => cases h
  | case3 w ws c cs hSame ih =>
    rw [List.length_cons, List.length_cons, ih h]
    omega
  | case4 => cases h

theorem le_length_of_nameLengthAt (h : nameLengthAt name cs = some n) : 0 < n ∧ n ≤ cs.length := by
  unfold nameLengthAt at h
  split at h
  · rename_i rest hRest
    dsimp only at h
    split at h
    · rename_i hColon
      cases h
      have hLength := length_of_dropWord hRest
      have hLeft : (rest.drop (rest.takeWhile Text.isBlank).length) ≠ [] := by
        intro hNil
        rw [hNil] at hColon
        cases hColon
      have hShort := List.length_pos_iff.mpr hLeft
      rw [List.length_drop] at hShort
      omega
    · cases h
  · cases h

theorem le_length_of_findName (h : findName name before cs = some (offset, n)) :
    0 < n ∧ offset + n ≤ cs.length := by
  induction cs generalizing before offset with
  | nil => cases h
  | cons c cs ih =>
    rw [findName] at h
    split at h
    · rename_i hHere
      cases h
      split at hHere
      · have hLength := le_length_of_nameLengthAt hHere
        omega
      · cases hHere
    · obtain ⟨found, hFound, hShift⟩ := Option.map_eq_some_iff.mp h
      cases hShift
      have hLength := ih hFound
      rw [List.length_cons]
      omega

/-- A name is found in the block, behind the offset from which it is looked for; or the answer is the line of the block
and the same offset. -/
theorem declarationLine_cases (text : List Char) (b : Block) (name : String) (start : Nat) :
    (∃ place cursor, declarationLine text b name start = (Text.newlines (text.take place) + 1, cursor) ∧
      max start b.bodyStart ≤ place ∧ place < cursor ∧ cursor ≤ b.bodyEnd) ∨
    declarationLine text b name start = (b.line, start) := by
  unfold declarationLine
  dsimp only
  split
  · rename_i offset n hFound
    have hLength := le_length_of_findName hFound
    rw [List.length_take] at hLength
    refine .inl ⟨_, _, rfl, Nat.le_add_right _ _, ?_, ?_⟩
    · omega
    · omega
  · exact .inr rfl

end Names

theorem findBlock_eq_find? (wanted : String) (left : List Block) :
    (findBlock wanted left).1 = left.find? (·.selector == normalizeSelector wanted) := by
  rcases findBlock_cases wanted left with ⟨skipped, b, rest, rfl, hFound, hSelector, hSkipped⟩ | ⟨hFound, hNone⟩
  · rw [hFound, eq_comm, List.find?_eq_some_iff_append]
    exact ⟨by simpa using hSelector, skipped, rest, rfl, by simpa using hSkipped⟩
  · rw [hFound, eq_comm, List.find?_eq_none]
    simpa using hNone

/-! ## Sequences of lookups -/

/-- A question about a text: for a block with a selector, or for the line of a name in one of the blocks, from an
offset on. -/
inductive Lookup (text : List Char) where
  | block (wanted : String)
  | declaration (block : Block) (known : block ∈ blocks text) (name : String) (start : Nat)

inductive Answer where
  | block (found : Option Block)
  | line (line cursor : Nat)

def Answer.found : Answer → Option Block
  | block found => found
  | line _ _ => none

namespace Lookup

variable {text : List Char} {left : List Block} {asked : List (Lookup text)}

def answer (left : List Block) : Lookup text → Answer × List Block
  | block wanted => (.block (findBlock wanted left).1, (findBlock wanted left).2)
  | declaration b _ name start =>
    (.line (declarationLine text b name start).1 (declarationLine text b name start).2, left)

def answersFrom : List Block → List (Lookup text) → List Answer
  | _, [] => []
  | left, q :: asked => (q.answer left).1 :: answersFrom (q.answer left).2 asked

/-- The answers to questions that are asked one after the other. -/
def answers (asked : List (Lookup text)) : List Answer :=
  answersFrom (blocks text) asked

def leftAfter : List Block → List (Lookup text) → List Block
  | left, [] => left
  | left, q :: asked => leftAfter (q.answer left).2 asked

theorem answer_cases (q : Lookup text) (left : List Block) :
    (∃ skipped b rest, left = skipped ++ b :: rest ∧ q.answer left = (.block (some b), rest)) ∨
    (q.answer left).1.found = none ∧ (q.answer left).2 = left := by
  cases q with
  | block wanted =>
    rcases findBlock_cases wanted left with ⟨skipped, b, rest, hLeft, hFound, -, -⟩ | ⟨hFound, -⟩
    · exact .inl ⟨skipped, b, rest, hLeft, by rw [answer, hFound]⟩
    · exact .inr (by rw [answer, hFound]; exact ⟨rfl, rfl⟩)
  | declaration b known name start => exact .inr ⟨rfl, rfl⟩

theorem found_answersFrom_sublist (left : List Block) (asked : List (Lookup text)) :
    ((answersFrom left asked).filterMap Answer.found).Sublist left := by
  induction asked generalizing left with
  | nil => exact List.nil_sublist left
  | cons q asked ih =>
    rw [answersFrom]
    rcases q.answer_cases left with ⟨skipped, b, rest, rfl, hAnswer⟩ | ⟨hNone, hLeft⟩
    · have hFound : Answer.found (.block (some b)) = some b := rfl
      rw [hAnswer, List.filterMap_cons_some hFound]
      exact ((ih rest).cons_cons b).trans (List.sublist_append_right skipped _)
    · rw [List.filterMap_cons_none hNone, hLeft]
      exact ih left

theorem answersFrom_append (left : List Block) (asked later : List (Lookup text)) :
    answersFrom left (asked ++ later) = answersFrom left asked ++ answersFrom (leftAfter left asked) later := by
  induction asked generalizing left with
  | nil => rfl
  | cons q asked ih => rw [List.cons_append, answersFrom, ih, answersFrom, List.cons_append, leftAfter]

theorem length_answersFrom (left : List Block) (asked : List (Lookup text)) :
    (answersFrom left asked).length = asked.length := by
  induction asked generalizing left with
  | nil => rfl
  | cons q asked ih => rw [answersFrom, List.length_cons, ih, List.length_cons]

theorem filter_behind {skipped rest : List Block} {b : Block} (h : (skipped ++ b :: rest).Pairwise Block.Before)
    (p : Block → Bool) :
    (skipped ++ b :: rest).filter (fun s => decide (b.bodyStart < s.bodyStart) && p s) = rest.filter p := by
  obtain ⟨-, hBehind, hFront⟩ := List.pairwise_append.mp h
  have hRest := (List.pairwise_cons.mp hBehind).1
  have hSkipped : skipped.filter (fun s => decide (b.bodyStart < s.bodyStart) && p s) = [] := by
    rw [List.filter_eq_nil_iff]
    intro s hs
    simp [Nat.lt_asymm (hFront s hs b List.mem_cons_self).start]
  rw [List.filter_append, hSkipped, List.nil_append, List.filter_cons_of_neg (by simp)]
  refine List.filter_congr fun s hs => ?_
  rw [decide_eq_true (hRest s hs).start, Bool.true_and]

/-- The blocks that are left are those behind all that were found. -/
theorem leftAfter_eq_filter (h : left.Pairwise Block.Before) :
    leftAfter left asked =
      left.filter fun b => ((answersFrom left asked).filterMap Answer.found).all (·.bodyStart < b.bodyStart) := by
  induction asked generalizing left with
  | nil => simp [leftAfter, answersFrom]
  | cons q asked ih =>
    rw [leftAfter, answersFrom]
    rcases q.answer_cases left with ⟨skipped, b, rest, rfl, hAnswer⟩ | ⟨hNone, hLeft⟩
    · have hFound : Answer.found (.block (some b)) = some b := rfl
      have hOrder := (List.pairwise_cons.mp (List.pairwise_append.mp h).2.1).2
      rw [hAnswer, List.filterMap_cons_some hFound, ih hOrder]
      simp only [List.all_cons]
      exact (filter_behind h _).symm
    · rw [List.filterMap_cons_none hNone, hLeft]
      exact ih h

/-- The answer fits the question: a block has the selector, and a line is one of the text; a name that is found is found
behind the offset and in its block. -/
inductive Answered (newlines : Nat) : Lookup text → Answer → Prop
  | missed {wanted : String} : Answered newlines (.block wanted) (.block none)
  | found {wanted : String} {b : Block} (hSelector : b.selector = normalizeSelector wanted)
    (hFirst : 1 ≤ b.line) (hLast : b.line ≤ newlines + 1) :
    Answered newlines (.block wanted) (.block (some b))
  | line {b : Block} {known : b ∈ blocks text} {name : String} {start line cursor : Nat}
    (hFirst : 1 ≤ line) (hLast : line ≤ newlines + 1) (hForward : start ≤ cursor)
    (hPlace : line = b.line ∧ cursor = start ∨ b.bodyStart < cursor ∧ start < cursor ∧ cursor ≤ b.bodyEnd) :
    Answered newlines (.declaration b known name start) (.line line cursor)

theorem between_of_mem_blocks {b : Block} (h : b ∈ blocks text) :
    b.Between 0 1 text.length (Text.newlines text) := by
  have hBetween := blocksFrom_ordered.1 b h
  rwa [Text.newlines, List.count_nil, Nat.zero_add] at hBetween

theorem answered_answer (hLeft : left ⊆ blocks text) (q : Lookup text) :
    Answered (Text.newlines text) q (q.answer left).1 := by
  cases q with
  | block wanted =>
    rw [answer]
    rcases findBlock_cases wanted left with ⟨skipped, b, rest, rfl, hFound, hSelector, -⟩ | ⟨hFound, -⟩
    · have hBetween := between_of_mem_blocks (hLeft (List.mem_append_right skipped List.mem_cons_self))
      rw [hFound]
      exact .found hSelector hBetween.line_le (Nat.add_comm 1 _ ▸ hBetween.le_line)
    · rw [hFound]
      exact .missed
  | declaration b known name start =>
    have hBetween := between_of_mem_blocks known
    rw [answer]
    rcases declarationLine_cases text b name start with ⟨place, cursor, hFound, hStart, hLt, hEnd⟩ | hNone
    · have hLines := (List.take_sublist place text).count_le '\n'
      rw [hFound]
      refine .line (Nat.le_add_left 1 _) (Nat.succ_le_succ hLines) ?_ (.inr ⟨?_, ?_, hEnd⟩)
      all_goals omega
    · rw [hNone]
      exact .line hBetween.line_le (Nat.add_comm 1 _ ▸ hBetween.le_line) (Nat.le_refl start) (.inl ⟨rfl, rfl⟩)

theorem answered_answersFrom (hLeft : left ⊆ blocks text) (asked : List (Lookup text)) :
    List.Forall₂ (Answered (Text.newlines text)) asked (answersFrom left asked) := by
  induction asked generalizing left with
  | nil => exact .nil
  | cons q asked ih =>
    refine .cons (answered_answer hLeft q) (ih ?_)
    rcases q.answer_cases left with ⟨skipped, b, rest, rfl, hAnswer⟩ | ⟨-, hSame⟩
    · rw [hAnswer]
      exact fun s hs => hLeft (List.mem_append_right skipped (List.mem_cons_of_mem b hs))
    · rwa [hSame]

section Runs

variable {before after : List (Lookup text)} {q : Lookup text}

theorem answers_append_cons :
    answers (before ++ q :: after) =
      answers before ++ ((q.answer (leftAfter (blocks text) before)).1 ::
        answersFrom (q.answer (leftAfter (blocks text) before)).2 after) := by
  rw [answers, answersFrom_append, answersFrom]
  rfl

theorem length_answers (asked : List (Lookup text)) : (answers asked).length = asked.length :=
  length_answersFrom _ asked

theorem getElem?_answers :
    (answers (before ++ q :: after))[before.length]? = some (q.answer (leftAfter (blocks text) before)).1 := by
  rw [answers_append_cons, ← length_answers before, List.getElem?_append_right (Nat.le_refl _), Nat.sub_self]
  rfl

theorem drop_answers_of_failed
    (h : ((answers (before ++ q :: after))[before.length]?.bind Answer.found) = none) :
    (answers (before ++ q :: after)).drop (before.length + 1) = (answers (before ++ after)).drop before.length := by
  rw [getElem?_answers, Option.bind_some] at h
  have hLeft : (q.answer (leftAfter (blocks text) before)).2 = leftAfter (blocks text) before := by
    rcases q.answer_cases (leftAfter (blocks text) before) with ⟨skipped, b, rest, -, hAnswer⟩ | ⟨-, hLeft⟩
    · rw [hAnswer] at h
      cases h
    · exact hLeft
  have hWithout : answers (before ++ after) = answers before ++ answersFrom (leftAfter (blocks text) before) after :=
    answersFrom_append _ before after
  rw [answers_append_cons, hWithout, hLeft, ← length_answers before, List.drop_left, ← List.drop_drop,
    List.drop_left, List.drop_one, List.tail_cons]

end Runs

end Lookup

open Lookup in
/-- Whatever is looked up in a text, and in whatever order: the blocks that are found come one behind the other, each
is the first one with the wanted selector behind all found before, and what fails changes nothing for what is looked up
later. All blocks lie in the text, and so do all lines; the cursor never goes back. -/
theorem lookups_move_forward (source : List Char) :
    (∀ asked : List (Lookup (blankComments source)),
      ((answers asked).filterMap Answer.found).Pairwise (fun a b => a.bodyStart < b.bodyStart ∧ a.line ≤ b.line) ∧
      List.Forall₂ (Answered (Text.newlines source)) asked (answers asked)) ∧
    (∀ (before after : List (Lookup (blankComments source))) (wanted : String),
      (answers (before ++ .block wanted :: after))[before.length]? = some (.block
        (((blocks (blankComments source)).filter fun b =>
          ((answers before).filterMap Answer.found).all (·.bodyStart < b.bodyStart)).find?
            (·.selector == normalizeSelector wanted)))) ∧
    (∀ (before after : List (Lookup (blankComments source))) (q : Lookup (blankComments source)),
      ((answers (before ++ q :: after))[before.length]?.bind Answer.found) = none →
        (answers (before ++ q :: after)).drop (before.length + 1) = (answers (before ++ after)).drop before.length) ∧
    ∀ b ∈ blocks (blankComments source), b.bodyStart ≤ b.bodyEnd ∧ b.bodyEnd ≤ source.length := by
  have hOrder : (blocks (blankComments source)).Pairwise Block.Before := blocksFrom_ordered.2
  refine ⟨fun asked => ⟨?_, ?_⟩, ?_, fun before after q => drop_answers_of_failed, ?_⟩
  · exact (hOrder.sublist (found_answersFrom_sublist _ asked)).imp fun h => ⟨h.start, h.line⟩
  · rw [← newlines_blankComments]
    exact answered_answersFrom (List.Subset.refl _) asked
  · intro before after wanted
    rw [getElem?_answers, answer, findBlock_eq_find?, leftAfter_eq_filter hOrder]
    rfl
  · intro b hb
    have hBetween := between_of_mem_blocks hb
    have hStop := hBetween.stop
    rw [length_blankComments, Nat.zero_add] at hStop
    exact ⟨hBetween.forward, hStop⟩

end WebAudit.Stylesheet
