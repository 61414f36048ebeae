import WebAudit.Proofs.Text.Pieces

/-!
# Lines that newlines end

A newline is one of several characters that end a line. As long as it is the only one that occurs, apart
from a carriage return in front of it, the lines of a text are its pieces between newlines, each without
that carriage return. A further line break moves the lines behind it away from these pieces.
-/

namespace WebAudit.Text

/-- A piece without the carriage return that it may end with. -/
def chomp (piece : List Char) : List Char :=
  if piece.getLast? = some '\r' then piece.dropLast else piece

def Unbroken (piece : List Char) : Prop :=
  ∀ c ∈ chomp piece, isLineBreak c = false

instance (piece : List Char) : Decidable (Unbroken piece) :=
  List.decidableBAll (fun c => isLineBreak c = false) (chomp piece)

theorem newlines_append (cs ds : List Char) : newlines (cs ++ ds) = newlines cs + newlines ds :=
  List.count_append

theorem newlines_eq_zero {cs : List Char} : newlines cs = 0 ↔ '\n' ∉ cs :=
  List.count_eq_zero

theorem eq_chomp_or (piece : List Char) : piece = chomp piece ∨ piece = chomp piece ++ ['\r'] := by
  unfold chomp
  split
  · rename_i hLast
    obtain ⟨body, rfl⟩ := List.getLast?_eq_some_iff.mp hLast
    exact .inr (by simp)
  · exact .inl rfl

/-! ## Lines -/

section Lines

variable {acc cs rest pre post piece : List Char} {c : Char}

theorem linesFrom_cons (h : isLineBreak c = false) : linesFrom acc (c :: cs) = linesFrom (c :: acc) cs := by
  have hReturn : c ≠ '\r' := by
    rintro rfl
    contradiction
  rw [linesFrom]
  · rw [h]
    rfl
  · intro rest hc
    exact absurd hc hReturn

theorem linesFrom_append (h : ∀ c ∈ cs, isLineBreak c = false) :
    linesFrom acc (cs ++ rest) = linesFrom (cs.reverse ++ acc) rest := by
  induction cs generalizing acc with
  | nil => rfl
  | cons c cs ih =>
    obtain ⟨hHead, hTail⟩ := List.forall_mem_cons.mp h
    rw [List.cons_append, linesFrom_cons hHead, ih hTail, List.reverse_cons, List.append_assoc,
      List.singleton_append]

theorem Unbroken.linesFrom_append (h : Unbroken piece) (rest : List Char) :
    linesFrom [] (piece ++ '\n' :: rest) = chomp piece :: linesFrom [] rest := by
  have hPiece := eq_chomp_or piece
  unfold Unbroken at h
  generalize chomp piece = body at h hPiece ⊢
  rcases hPiece with rfl | rfl
  · rw [Text.linesFrom_append h]
    simp [linesFrom, isLineBreak]
  · rw [List.append_assoc, Text.linesFrom_append h]
    simp [linesFrom]

theorem Unbroken.linesFrom (h : Unbroken piece) (hNe : piece ≠ []) :
    linesFrom [] piece = [chomp piece] := by
  have hPiece := eq_chomp_or piece
  unfold Unbroken at h
  generalize chomp piece = body at h hPiece ⊢
  rcases hPiece with rfl | rfl
  · have hLines : Text.linesFrom [] (piece ++ []) = [piece] := by
      rw [Text.linesFrom_append h, Text.linesFrom]
      · simp
      · simpa using hNe
    rwa [List.append_nil] at hLines
  · rw [Text.linesFrom_append h]
    simp [Text.linesFrom, isLineBreak]

theorem linesFrom_ne_nil (h : acc ≠ [] ∨ cs ≠ []) : linesFrom acc cs ≠ [] := by
  fun_induction linesFrom acc cs with
  | case1 => simp at h
  | case2 => simp
  | case3 => simp
  | case4 => simp
  | case5 acc c cs hReturn hBreak ih => exact ih (.inl (List.cons_ne_nil c acc))

/-- With each newline in front of a place at least one line has ended. -/
theorem newlines_lt_length_linesFrom (hPost : post ≠ []) :
    newlines pre < (linesFrom acc (pre ++ post)).length := by
  generalize hText : pre ++ post = text
  fun_induction linesFrom acc text generalizing pre with
  | case1 => simp_all
  | case2 => simp_all
  | case3 acc cs ih =>
    match pre with
    | [] => exact Nat.succ_pos _
    | [c] =>
      obtain ⟨rfl, -⟩ := List.cons.inj hText
      exact Nat.succ_pos _
    | c :: d :: pre =>
      obtain ⟨rfl, hTail⟩ := List.cons.inj hText
      obtain ⟨rfl, hRest⟩ := List.cons.inj hTail
      have hCount : newlines ('\r' :: '\n' :: pre) = newlines pre + 1 := by simp [newlines]
      rw [hCount, List.length_cons]
      exact Nat.succ_lt_succ (ih hRest)
  | case4 acc c cs hReturn hBreak ih =>
    match pre with
    | [] => exact Nat.succ_pos _
    | d :: pre =>
      obtain ⟨rfl, hRest⟩ := List.cons.inj hText
      have hLt := ih hRest
      rw [newlines, List.count_cons, ← newlines, List.length_cons]
      split <;> omega
  | case5 acc c cs hReturn hBreak ih =>
    match pre with
    | [] => exact List.length_pos_iff.mpr (linesFrom_ne_nil (.inl (List.cons_ne_nil c acc)))
    | d :: pre =>
      obtain ⟨rfl, hRest⟩ := List.cons.inj hText
      have hNewline : d ≠ '\n' := by
        rintro rfl
        exact hBreak rfl
      rw [newlines, List.count_cons_of_ne hNewline]
      exact ih hRest

theorem isLineBreak_of_mem_linesFrom {line : List Char} (hAcc : ∀ c ∈ acc, isLineBreak c = false)
    (h : line ∈ linesFrom acc cs) : ∀ c ∈ line, isLineBreak c = false := by
  fun_induction linesFrom acc cs with
  | case1 => exact absurd h List.not_mem_nil
  | case2 acc =>
    rw [List.mem_singleton.mp h]
    simpa using hAcc
  | case3 acc cs ih =>
    rcases List.mem_cons.mp h with rfl | h
    · simpa using hAcc
    · exact ih (by simp) h
  | case4 acc c cs hReturn hBreak ih =>
    rcases List.mem_cons.mp h with rfl | h
    · simpa using hAcc
    · exact ih (by simp) h
  | case5 acc c cs hReturn hBreak ih =>
    refine ih (List.forall_mem_cons.mpr ⟨?_, hAcc⟩) h
    simpa using hBreak

end Lines

/-! ## Lines and pieces -/

theorem getElem?_linesFrom {text line : List Char} {k : Nat}
    (hLine : (cutAtFrom '\n' [] text)[k]? = some line)
    (hUnbroken : ∀ piece ∈ (cutAtFrom '\n' [] text).take (k + 1), Unbroken piece)
    (hLength : k < (linesFrom [] text).length) : (linesFrom [] text)[k]? = some (chomp line) := by
  by_cases hMem : '\n' ∈ text
  · obtain ⟨first, rest, rfl, hFirst⟩ := List.eq_append_cons_of_mem hMem
    rw [cutAtFrom_append, cutAtFrom_of_notMem hFirst, List.reverse_nil, List.nil_append,
      List.singleton_append] at hLine hUnbroken
    obtain ⟨hHead, hTail⟩ := List.forall_mem_cons.mp hUnbroken
    rw [hHead.linesFrom_append] at hLength ⊢
    cases k with
    | zero =>
      cases hLine
      rfl
    | succ k => exact getElem?_linesFrom hLine hTail (Nat.lt_of_succ_lt_succ hLength)
  · rw [cutAtFrom_of_notMem hMem, List.reverse_nil, List.nil_append] at hLine hUnbroken
    have hNe : text ≠ [] := by
      rintro rfl
      contradiction
    cases k with
    | zero =>
      cases hLine
      have hLast : Unbroken text := hUnbroken text List.mem_cons_self
      rw [hLast.linesFrom hNe]
      rfl
    | succ k => contradiction

theorem newline_notMem_lines (s : String) : ∀ line ∈ lines s, '\n' ∉ line.toList := by
  intro line hLine hMem
  obtain ⟨cs, hcs, rfl⟩ := List.mem_map.mp hLine
  rw [String.toList_ofList] at hMem
  exact absurd (isLineBreak_of_mem_linesFrom (by simp) hcs '\n' hMem) (by decide)

/-- A place in front of a character is on a piece between newlines and on a line. -/
theorem exists_line_at {s : String} {pre post : List Char} (hText : s.toList = pre ++ post)
    (hPost : post ≠ []) :
    ∃ piece line, (cutAt '\n' s)[newlines pre]? = some piece ∧ (lines s)[newlines pre]? = some line ∧
      ((∀ p ∈ (cutAt '\n' s).take (newlines pre + 1), Unbroken p.toList) →
        line.toList = chomp piece.toList) := by
  have hPieces : newlines pre < (cutAtFrom '\n' [] s.toList).length := by
    rw [length_cutAtFrom, hText, List.count_append, newlines]
    omega
  have hLines : newlines pre < (linesFrom [] s.toList).length := by
    rw [hText]
    exact newlines_lt_length_linesFrom hPost
  have hPiece := List.getElem?_eq_getElem hPieces
  refine ⟨_, _, by rw [cutAt, List.getElem?_map, hPiece, Option.map_some],
    by rw [lines, List.getElem?_map, List.getElem?_eq_getElem hLines, Option.map_some], ?_⟩
  intro hUnbroken
  have hChars : ∀ p ∈ (cutAtFrom '\n' [] s.toList).take (newlines pre + 1), Unbroken p := by
    intro p hp
    have hString : String.ofList p ∈ (cutAt '\n' s).take (newlines pre + 1) := by
      rw [cutAt, ← List.map_take]
      exact List.mem_map_of_mem hp
    simpa using hUnbroken _ hString
  have hLine := getElem?_linesFrom hPiece hChars hLines
  rw [List.getElem?_eq_getElem hLines, Option.some.injEq] at hLine
  rw [String.toList_ofList, String.toList_ofList, hLine]

end WebAudit.Text
