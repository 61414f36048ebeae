import WebAudit.Finding.Snippet
import WebAudit.Proofs.Text.Newlines
import WebAudit.Proofs.Text.Words

/-!
# The marked row of a snippet

The rows of a snippet can be read back from its text, as long as it was not cut. Exactly one of them is
marked: the one with the number and the text of the reported line. A text that is cut keeps its start, so it
still shows that row if the rows in front of it leave room for its number, and loses it if they do not.
-/

namespace WebAudit.Snippet

def isMarked (row : String) : Bool :=
  Text.startsWith row (marker true)

/-- The rows around a line are short enough to be shown whole. -/
def Fits (lines : List String) (line offset : Int) : Prop :=
  (("\n".intercalate (rows lines line offset contextLines)).length : Int) ≤ maxLength

instance (lines : List String) (line offset : Int) : Decidable (Fits lines line offset) :=
  inferInstanceAs (Decidable (_ ≤ _))

/-! ## Rows -/

theorem isMarked_row (line : String) (index marked : Nat) (offset : Int) :
    isMarked (row line index marked offset) = (index == marked) := by
  unfold isMarked row
  cases index == marked with
  | true => simp [Text.startsWith, marker]
  | false => simp [Text.startsWith, marker, List.isPrefixOf]

theorem head?_row {line : String} {index marked : Nat} (offset : Int) (h : index ≠ marked) :
    (row line index marked offset).toList.head? = some ' ' := by
  have hMarker : marker (index == marked) = "   " := by
    rw [beq_eq_false_iff_ne.mpr h]
    rfl
  rw [row, hMarker]
  simp

theorem isMarked_of_head? {r : String} (h : r.toList.head? = some ' ') : isMarked r = false := by
  obtain ⟨rest, hText⟩ := List.head?_eq_some_iff.mp h
  simp [isMarked, Text.startsWith, hText, marker, List.isPrefixOf]

theorem newline_notMem_row {line : String} (h : '\n' ∉ line.toList) (index marked : Nat) (offset : Int) :
    '\n' ∉ (row line index marked offset).toList := by
  have hMarker : ∀ b, '\n' ∉ (marker b).toList := by decide
  have hNumber : '\n' ∉ (toString ((index : Int) + 1 + offset)).toList := by
    intro hMem
    exact absurd (isDigit_of_mem_toString_int hMem (by decide)) (by decide)
  simp only [row, String.toList_append, List.mem_append]
  rintro ((((hMem | hMem) | hMem) | hMem) | hMem)
  · exact hMarker _ hMem
  · exact absurd hMem (by decide)
  · exact hNumber hMem
  · exact absurd hMem (by decide)
  · exact h hMem

section Rows

variable {lines : List String} {line offset context : Int} {x : String}

theorem slice_zipIdx {i start stop : Nat} (hx : lines[i]? = some x) (hStart : start ≤ i) (hStop : i < stop) :
    ∃ before after, (lines.zipIdx.take stop).drop start = before ++ (x, i) :: after ∧
      (∀ p ∈ before, p.2 ≠ i) ∧ ∀ p ∈ after, p.2 ≠ i := by
  obtain ⟨hi, rfl⟩ := List.getElem?_eq_some_iff.mp hx
  have hLength : (lines.take i).zipIdx.length = i := by
    rw [List.length_zipIdx, List.length_take, Nat.min_eq_left (Nat.le_of_lt hi)]
  have hSplit : lines.zipIdx =
      (lines.take i).zipIdx ++ (lines[i], i) :: (lines.drop (i + 1)).zipIdx (i + 1) := by
    have hParts : lines = lines.take i ++ lines[i] :: lines.drop (i + 1) := by
      rw [List.getElem_cons_drop, List.take_append_drop]
    conv => lhs; rw [hParts]
    rw [List.zipIdx_append, List.zipIdx_cons, ← List.length_zipIdx, hLength, Nat.zero_add]
  obtain ⟨n, rfl⟩ := Nat.exists_eq_add_of_lt hStop
  refine ⟨(lines.take i).zipIdx.drop start, ((lines.drop (i + 1)).zipIdx (i + 1)).take n, ?_, ?_, ?_⟩
  · rw [hSplit, List.take_append, hLength, List.take_of_length_le (by omega),
      List.drop_append_of_le_length (by omega), Nat.add_assoc, Nat.add_sub_cancel_left, List.take_succ_cons]
  · rintro ⟨l, j⟩ hp
    obtain ⟨-, hLt, -⟩ := List.mem_zipIdx (List.mem_of_mem_drop hp)
    rw [List.length_take] at hLt
    dsimp only
    omega
  · rintro ⟨l, j⟩ hp
    obtain ⟨hLe, -⟩ := List.mem_zipIdx (List.mem_of_mem_take hp)
    dsimp only
    omega

/-- The row of the reported line stands between rows without the mark. -/
theorem rows_eq_append (hContext : 0 ≤ context) (hx : lines[clamp line lines.length]? = some x) :
    ∃ before after, rows lines line offset context =
        before ++ row x (clamp line lines.length) (clamp line lines.length) offset :: after ∧
      (∀ r ∈ before, r.toList.head? = some ' ') ∧ ∀ r ∈ after, r.toList.head? = some ' ' := by
  obtain ⟨hLt, -⟩ := List.getElem?_eq_some_iff.mp hx
  unfold rows
  dsimp only
  generalize clamp line lines.length = marked at hx hLt ⊢
  have hStart : ((marked : Int) - context).toNat ≤ marked := by
    omega
  have hStop : marked < min lines.length ((marked : Int) + context + 1).toNat := by
    omega
  obtain ⟨before, after, hSlice, hBefore, hAfter⟩ := slice_zipIdx hx hStart hStop
  have hBeside : ∀ ps : List (String × Nat), (∀ p ∈ ps, p.2 ≠ marked) →
      ∀ r ∈ ps.map (fun p => row p.1 p.2 marked offset), r.toList.head? = some ' ' := by
    intro ps hps r hr
    obtain ⟨p, hp, rfl⟩ := List.mem_map.mp hr
    exact head?_row offset (hps p hp)
  exact ⟨_, _, by rw [hSlice, List.map_append, List.map_cons], hBeside before hBefore, hBeside after hAfter⟩

/-- One row is marked, whatever line is asked for. -/
theorem filter_rows (hContext : 0 ≤ context) (hx : lines[clamp line lines.length]? = some x) :
    (rows lines line offset context).filter isMarked =
      [row x (clamp line lines.length) (clamp line lines.length) offset] := by
  obtain ⟨before, after, hRows, hBefore, hAfter⟩ := rows_eq_append hContext hx
  have hBeside : ∀ rs : List String, (∀ r ∈ rs, r.toList.head? = some ' ') → rs.filter isMarked = [] := by
    intro rs hrs
    refine List.filter_eq_nil_iff.mpr ?_
    intro r hr
    simp [isMarked_of_head? (hrs r hr)]
  rw [hRows, List.filter_append, List.filter_cons, isMarked_row, if_pos (beq_self_eq_true _),
    hBeside before hBefore, hBeside after hAfter, List.nil_append]

theorem newline_notMem_rows (h : ∀ l ∈ lines, '\n' ∉ l.toList) :
    ∀ r ∈ rows lines line offset context, '\n' ∉ r.toList := by
  intro r hr
  obtain ⟨⟨l, i⟩, hp, rfl⟩ := List.mem_map.mp hr
  have hMem := List.mem_of_mem_take (List.mem_of_mem_drop hp)
  exact newline_notMem_row (h l (List.fst_mem_of_mem_zipIdx hMem)) _ _ _

/-! ## Snippets -/

theorem cutAt_around (hLines : ∀ l ∈ lines, '\n' ∉ l.toList)
    (hFits : (("\n".intercalate (rows lines line offset context)).length : Int) ≤ maxLength)
    (hNe : rows lines line offset context ≠ []) :
    Text.cutAt '\n' (around lines line offset context) = rows lines line offset context := by
  have hShown : around lines line offset context = "\n".intercalate (rows lines line offset context) := by
    unfold around Text.truncate
    dsimp only
    rw [String.length_toList, if_pos hFits]
    refine if_neg ?_
    intro hEmpty
    rw [List.isEmpty_iff] at hEmpty
    exact hNe (by simp [rows, hEmpty])
  have hPieces : ∀ piece ∈ (rows lines line offset context).map String.toList, '\n' ∉ piece := by
    intro piece hPiece
    obtain ⟨r, hr, rfl⟩ := List.mem_map.mp hPiece
    exact newline_notMem_rows hLines r hr
  have hCut : Text.cutAtFrom '\n' [] ("\n".intercalate (rows lines line offset context)).toList =
      (rows lines line offset context).map String.toList := by
    rw [String.toList_intercalate]
    exact Text.cutAtFrom_intercalate hPieces (by simpa using hNe)
  rw [hShown, Text.cutAt, hCut, List.map_map]
  simp

theorem filter_around (hLines : ∀ l ∈ lines, '\n' ∉ l.toList) (hFits : Fits lines line offset)
    (hLine : 1 ≤ line) (hx : lines[(line - 1).toNat]? = some x) :
    (Text.cutAt '\n' (around lines line offset)).filter isMarked =
      [marker true ++ " " ++ toString (line + offset) ++ ": " ++ x] := by
  obtain ⟨hLt, -⟩ := List.getElem?_eq_some_iff.mp hx
  have hClamp : clamp line lines.length = (line - 1).toNat := by
    unfold clamp
    omega
  have hNumber : ((line - 1).toNat : Int) + 1 + offset = line + offset := by
    omega
  have hMarked : (rows lines line offset contextLines).filter isMarked = _ := filter_rows (by decide) (hClamp ▸ hx)
  have hNe : rows lines line offset contextLines ≠ [] := by
    intro hNil
    rw [hNil] at hMarked
    contradiction
  rw [cutAt_around hLines hFits hNe, hMarked, hClamp, row, hNumber, beq_self_eq_true]

end Rows

/-! ## Rows of a cut snippet -/

def heading (number : Int) : String :=
  marker true ++ " " ++ toString number ++ ":"

def marks (number : Int) (row : String) : Bool :=
  Text.startsWith row (heading number)

def ellipsis : List Char := ['.', '.', '.']

section Cut

variable {word row : List Char} {rows before after : List (List Char)} {n : Nat}

theorem isPrefixOf_of_head?_ne (hWord : word.head? = some '>') (hRow : row.head? ≠ some '>') :
    word.isPrefixOf row = false := by
  obtain ⟨rest, rfl⟩ := List.head?_eq_some_iff.mp hWord
  cases row with
  | nil => rfl
  | cons c row =>
    have hNe : ('>' == c) = false := by
      rw [beq_eq_false_iff_ne]
      rintro rfl
      exact hRow rfl
    rw [List.isPrefixOf_cons_cons, hNe, Bool.false_and]

theorem head?_cut_ne (hRow : row.head? = some ' ') : (row.take n ++ ellipsis).head? ≠ some '>' := by
  obtain ⟨rest, rfl⟩ := List.head?_eq_some_iff.mp hRow
  cases n with
  | zero => simp [ellipsis]
  | succ n => simp

/-- A piece of a cut text is a row, or the start of one with the ellipsis. -/
theorem mem_cut (hNe : rows ≠ []) (hRows : ∀ r ∈ rows, '\n' ∉ r) {piece : List Char}
    (h : piece ∈ Text.cutAtFrom '\n' [] ((['\n'].intercalate rows).take n ++ ellipsis)) :
    ∃ r ∈ rows, piece = r ∨ ∃ k, piece = r.take k ++ ellipsis := by
  induction rows generalizing n with
  | nil => exact absurd rfl hNe
  | cons r rows ih =>
    obtain ⟨hHead, hTail⟩ := List.forall_mem_cons.mp hRows
    by_cases hCut : n ≤ r.length ∨ rows = []
    · rw [Text.cutAtFrom_take_intercalate_of_le hHead (by decide) hCut, List.mem_singleton] at h
      exact ⟨r, List.mem_cons_self, .inr ⟨n, h⟩⟩
    · rw [not_or, Nat.not_le] at hCut
      rw [Text.cutAtFrom_take_intercalate_of_lt hHead hCut.2 hCut.1] at h
      rcases List.mem_cons.mp h with rfl | h
      · exact ⟨piece, List.mem_cons_self, .inl rfl⟩
      · obtain ⟨s, hs, hPiece⟩ := ih hCut.2 hTail h
        exact ⟨s, List.mem_cons_of_mem r hs, hPiece⟩

theorem countP_cut_gaps (hWord : word.head? = some '>') (hNe : rows ≠ []) (hRows : ∀ r ∈ rows, '\n' ∉ r)
    (hGaps : ∀ r ∈ rows, r.head? = some ' ') :
    (Text.cutAtFrom '\n' [] ((['\n'].intercalate rows).take n ++ ellipsis)).countP word.isPrefixOf = 0 := by
  refine List.countP_eq_zero.mpr fun piece hPiece => ?_
  obtain ⟨r, hr, rfl | ⟨k, rfl⟩⟩ := mem_cut hNe hRows hPiece
  · rw [isPrefixOf_of_head?_ne hWord (by simp [hGaps _ hr])]
    simp
  · rw [isPrefixOf_of_head?_ne hWord (head?_cut_ne (hGaps r hr))]
    simp

theorem isPrefixOf_cut (hDot : '.' ∉ word) (hRow : word <+: row) :
    word.isPrefixOf (row.take n ++ ellipsis) = decide (word.length ≤ n) := by
  obtain ⟨rest, rfl⟩ := hRow
  rw [Bool.eq_iff_iff, List.isPrefixOf_iff_prefix, decide_eq_true_iff]
  constructor
  · intro hPrefix
    by_contra hLt
    have hShort : n < word.length := Nat.lt_of_not_le hLt
    rw [List.take_append_of_le_length (Nat.le_of_lt hShort)] at hPrefix
    have hRest : word.drop n <+: ellipsis := by
      have hWhole : word.take n ++ word.drop n <+: word.take n ++ ellipsis := by
        rwa [List.take_append_drop]
      exact (List.prefix_append_right_inj _).mp hWhole
    have hLeft : 0 < (word.drop n).length := by
      rw [List.length_drop]
      omega
    obtain ⟨c, hc⟩ := List.exists_mem_of_ne_nil _ (List.ne_nil_of_length_pos hLeft)
    have hEllipsis : ellipsis.all (· == '.') = true := by decide
    rw [eq_of_beq (List.all_eq_true.mp hEllipsis c (hRest.mem hc))] at hc
    exact hDot (List.mem_of_mem_drop hc)
  · intro hLe
    obtain ⟨k, rfl⟩ := Nat.exists_eq_add_of_le hLe
    rw [List.take_length_add_append, List.append_assoc]
    exact List.prefix_append _ _

theorem countP_cut (hWord : word.head? = some '>') (hDot : '.' ∉ word) (hRow : word <+: row)
    (hRows : ∀ r ∈ before ++ row :: after, '\n' ∉ r) (hBefore : ∀ r ∈ before, r.head? = some ' ')
    (hAfter : ∀ r ∈ after, r.head? = some ' ') :
    (Text.cutAtFrom '\n' []
        ((['\n'].intercalate (before ++ row :: after)).take n ++ ellipsis)).countP word.isPrefixOf =
      if (before.flatMap (· ++ ['\n'])).length + word.length ≤ n then 1 else 0 := by
  induction before generalizing n with
  | nil =>
    -- What is kept ends in the row itself, or goes on behind it and holds all of it.
    obtain ⟨hHead, hTail⟩ := List.forall_mem_cons.mp hRows
    rw [List.nil_append]
    by_cases hCut : n ≤ row.length ∨ after = []
    · rw [Text.cutAtFrom_take_intercalate_of_le hHead (by decide) hCut, List.countP_singleton,
        isPrefixOf_cut hDot hRow]
      simp
    · rw [not_or, Nat.not_le] at hCut
      have hLe : word.length ≤ n := Nat.le_trans hRow.length_le (Nat.le_of_lt hCut.1)
      rw [Text.cutAtFrom_take_intercalate_of_lt hHead hCut.2 hCut.1, List.countP_cons,
        countP_cut_gaps hWord hCut.2 hTail hAfter, List.isPrefixOf_iff_prefix.mpr hRow]
      simp [hLe]
  | cons r before ih =>
    obtain ⟨hHead, hTail⟩ := List.forall_mem_cons.mp hRows
    obtain ⟨hGap, hGaps⟩ := List.forall_mem_cons.mp hBefore
    rw [List.cons_append, List.flatMap_cons, List.length_append,
      List.length_append, List.length_singleton]
    by_cases hCut : n ≤ r.length
    · rw [Text.cutAtFrom_take_intercalate_of_le hHead (by decide) (.inl hCut), List.countP_singleton,
        isPrefixOf_of_head?_ne hWord (head?_cut_ne hGap), if_neg Bool.false_ne_true, if_neg (by omega)]
    · rw [Text.cutAtFrom_take_intercalate_of_lt hHead (by simp) (Nat.lt_of_not_le hCut), List.countP_cons,
        isPrefixOf_of_head?_ne hWord (by simp [hGap]), ih hTail hGaps]
      simp only [Bool.false_eq_true, if_false, Nat.add_zero]
      exact if_congr (by omega) rfl rfl

end Cut

/-! ## The reported line -/

def reportedNumber (line : Int) (length : Nat) : Int :=
  max 1 (min line length)

def lead (lines : List String) (line offset context : Int) : List Char :=
  ((rows lines line offset context).takeWhile (!isMarked ·)).flatMap (·.toList ++ ['\n'])

/-- All rows are short enough to be shown, or the part that is kept goes on at least up to the number of the
reported line and its colon. -/
def Reached (lines : List String) (line offset context : Int) : Prop :=
  (("\n".intercalate (rows lines line offset context)).length : Int) ≤ maxLength ∨
    ((lead lines line offset context).length +
      (heading (reportedNumber line lines.length + offset)).length : Int) ≤ maxLength - 3

instance (lines : List String) (line offset context : Int) : Decidable (Reached lines line offset context) :=
  inferInstanceAs (Decidable (_ ∨ _))

section Reported

variable {lines : List String} {line offset context : Int} {x : String}

theorem reportedNumber_eq (hNe : lines ≠ []) :
    reportedNumber line lines.length = (clamp line lines.length : Int) + 1 := by
  have hPos := List.length_pos_iff.mpr hNe
  unfold reportedNumber clamp
  omega

theorem heading_prefix_row (x : String) (index : Nat) (offset : Int) :
    (heading ((index : Int) + 1 + offset)).toList <+: (row x index index offset).toList := by
  refine ⟨" ".toList ++ x.toList, ?_⟩
  simp [heading, row, marker]

theorem dot_notMem_heading (number : Int) : '.' ∉ (heading number).toList := by
  have hNumber : '.' ∉ (toString number).toList := by
    intro hMem
    exact absurd (isDigit_of_mem_toString_int hMem (by decide)) (by decide)
  simpa [heading, marker] using hNumber

theorem head?_heading (number : Int) : (heading number).toList.head? = some '>' := by
  simp [heading, marker]

theorem exists_reported_row (hNe : lines ≠ []) (hContext : 0 ≤ context) :
    ∃ before r after, rows lines line offset context = before ++ r :: after ∧
      (heading (reportedNumber line lines.length + offset)).toList <+: r.toList ∧
      lead lines line offset context = before.flatMap (·.toList ++ ['\n']) ∧
      (∀ r ∈ before, r.toList.head? = some ' ') ∧ ∀ r ∈ after, r.toList.head? = some ' ' := by
  have hLt : clamp line lines.length < lines.length := by
    have hPos := List.length_pos_iff.mpr hNe
    unfold clamp
    omega
  obtain ⟨before, after, hRows, hBefore, hAfter⟩ := rows_eq_append hContext (List.getElem?_eq_getElem hLt)
  refine ⟨before, _, after, hRows, ?_, ?_, hBefore, hAfter⟩
  · rw [reportedNumber_eq hNe]
    apply heading_prefix_row
  · rw [lead, hRows, List.takeWhile_append_of_pos, List.takeWhile_cons_of_neg, List.append_nil]
    · simp [isMarked_row]
    · intro r hr
      simp [isMarked_of_head? (hBefore r hr)]

theorem countP_whole (hNe : lines ≠ []) (hLines : ∀ l ∈ lines, '\n' ∉ l.toList) (hContext : 0 ≤ context)
    (hFits : (("\n".intercalate (rows lines line offset context)).length : Int) ≤ maxLength) :
    (Text.cutAt '\n' (around lines line offset context)).countP
      (marks (reportedNumber line lines.length + offset)) = 1 := by
  obtain ⟨before, r, after, hRows, hRow, -, hBefore, hAfter⟩ := exists_reported_row hNe hContext
  generalize reportedNumber line lines.length + offset = number at hRow ⊢
  have hBeside : ∀ rs : List String, (∀ r ∈ rs, r.toList.head? = some ' ') → rs.countP (marks number) = 0 := by
    intro rs hrs
    refine List.countP_eq_zero.mpr fun r hr => ?_
    simp [marks, Text.startsWith, isPrefixOf_of_head?_ne (head?_heading number), hrs r hr]
  have hMarks : marks number r = true := List.isPrefixOf_iff_prefix.mpr hRow
  rw [cutAt_around hLines hFits (by simp [hRows]), hRows, List.countP_append, List.countP_cons,
    hBeside before hBefore, hBeside after hAfter, if_pos hMarks]

theorem toList_around_of_cut (hNe : lines ≠ [])
    (hCut : ¬ (("\n".intercalate (rows lines line offset context)).length : Int) ≤ maxLength) :
    (around lines line offset context).toList =
      (['\n'].intercalate ((rows lines line offset context).map String.toList)).take 497 ++ ellipsis := by
  have hEmpty : ¬ lines.isEmpty = true := by simpa using hNe
  unfold around Text.truncate
  dsimp only
  rw [if_neg hEmpty, String.length_toList, if_neg hCut, String.toList_ofList, String.toList_intercalate]
  rfl

theorem countP_cut_off (hNe : lines ≠ []) (hLines : ∀ l ∈ lines, '\n' ∉ l.toList) (hContext : 0 ≤ context)
    (hCut : ¬ (("\n".intercalate (rows lines line offset context)).length : Int) ≤ maxLength) :
    (Text.cutAt '\n' (around lines line offset context)).countP
        (marks (reportedNumber line lines.length + offset)) =
      if (lead lines line offset context).length +
        (heading (reportedNumber line lines.length + offset)).length ≤ 497 then 1 else 0 := by
  obtain ⟨before, r, after, hRows, hRow, hLead, hBefore, hAfter⟩ := exists_reported_row hNe hContext
  generalize reportedNumber line lines.length + offset = number at hRow ⊢
  have hBreaks : ∀ p ∈ (rows lines line offset context).map String.toList, '\n' ∉ p :=
    List.forall_mem_map.mpr (newline_notMem_rows hLines)
  have hMarks : marks number ∘ String.ofList = (heading number).toList.isPrefixOf := by
    funext cs
    simp [marks, Text.startsWith]
  rw [Text.cutAt, toList_around_of_cut hNe hCut, List.countP_map, hMarks, hLead, ← String.length_toList]
  rw [hRows, List.map_append, List.map_cons] at hBreaks ⊢
  rw [countP_cut (head?_heading number) (dot_notMem_heading number) hRow hBreaks
    (List.forall_mem_map.mpr hBefore) (List.forall_mem_map.mpr hAfter), List.flatMap_map]

/-- One row of a snippet starts with the mark, the number of the reported line and a colon if the part that is
kept reaches them, and none if not. -/
theorem reported_line_shown_once_or_cut_off (hNe : lines ≠ []) (hLines : ∀ l ∈ lines, '\n' ∉ l.toList)
    (hContext : 0 ≤ context) :
    (Text.cutAt '\n' (around lines line offset context)).countP
        (marks (reportedNumber line lines.length + offset)) =
      if Reached lines line offset context then 1 else 0 := by
  by_cases hFits : (("\n".intercalate (rows lines line offset context)).length : Int) ≤ maxLength
  · rw [countP_whole hNe hLines hContext hFits, if_pos (.inl hFits)]
  · rw [countP_cut_off hNe hLines hContext hFits]
    refine if_congr ?_ rfl rfl
    rw [Reached, or_iff_right hFits, maxLength]
    omega

end Reported

def wide (n : Nat) : String := String.ofList (List.replicate n 'b')

theorem length_wide (n : Nat) : (wide n).length = n := by
  simp [wide]

theorem newline_notMem_wide (n : Nat) : '\n' ∉ (wide n).toList := by
  simp [wide]

def wideLines : List String := ["a", wide 600, "c"]

theorem newline_notMem_wideLines : ∀ l ∈ wideLines, '\n' ∉ l.toList := by
  simp [wideLines, newline_notMem_wide]

theorem wideLines_first_shown :
    wideLines ≠ [] ∧ (∀ l ∈ wideLines, '\n' ∉ l.toList) ∧ 0 ≤ contextLines ∧
      Reached wideLines 1 0 contextLines ∧
      (Text.cutAt '\n' (around wideLines 1)).countP (marks (reportedNumber 1 wideLines.length + 0)) = 1 := by
  have hNe : wideLines ≠ [] := List.cons_ne_nil _ _
  have hRows : rows wideLines 1 0 contextLines = [row "a" 0 0 0, row (wide 600) 1 0 0, row "c" 2 0 0] := rfl
  have hReached : Reached wideLines 1 0 contextLines := by
    refine .inr ?_
    rw [lead, hRows, List.takeWhile_cons_of_neg (by simp [isMarked_row])]
    decide +kernel
  refine ⟨hNe, newline_notMem_wideLines, by decide, hReached, ?_⟩
  rw [reported_line_shown_once_or_cut_off hNe newline_notMem_wideLines (by decide), if_pos hReached]

theorem wideLines_last_hidden :
    wideLines ≠ [] ∧ (∀ l ∈ wideLines, '\n' ∉ l.toList) ∧
      (Text.cutAt '\n' (around wideLines 3)).countP (marks (reportedNumber 3 wideLines.length + 0)) = 0 := by
  have hNe : wideLines ≠ [] := List.cons_ne_nil _ _
  have hRows : rows wideLines 3 0 contextLines = [row "a" 0 2 0, row (wide 600) 1 2 0, row "c" 2 2 0] := rfl
  have hWide : 600 ≤ (row (wide 600) 1 2 0).toList.length := by
    rw [String.length_toList, row, String.length_append, length_wide]
    apply Nat.le_add_left
  have hFront : ∀ a b : String, 600 ≤ b.toList.length → 600 < ([a, b].flatMap (·.toList ++ ['\n'])).length := by
    intro a b hb
    simp
    omega
  have hJoined : ∀ a b c : String, 600 ≤ b.toList.length →
      ¬ (("\n".intercalate [a, b, c]).length : Int) ≤ maxLength := by
    intro a b c hb
    rw [maxLength, ← String.length_toList, String.toList_intercalate]
    simp
    omega
  have hLead : 600 < (lead wideLines 3 0 contextLines).length := by
    rw [lead, hRows]
    simp only [List.takeWhile_cons, isMarked_row]
    exact hFront _ _ hWide
  have hCut : ¬ (("\n".intercalate (rows wideLines 3 0 contextLines)).length : Int) ≤ maxLength := by
    rw [hRows]
    exact hJoined _ _ _ hWide
  refine ⟨hNe, newline_notMem_wideLines, ?_⟩
  rw [countP_cut_off hNe newline_notMem_wideLines (by decide) hCut, if_neg (by omega)]

end WebAudit.Snippet
