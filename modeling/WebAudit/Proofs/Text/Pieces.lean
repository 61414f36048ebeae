import WebAudit.Text.Lines

/-!
# Pieces between separators

Cutting a text at a character is the splitting of the list of its characters. No piece has the separator in
it, all its characters come from the text, and the first piece is what stands in front of the first separator.
-/

namespace WebAudit.Text

theorem cutAtFrom_eq_modifyHead (sep : Char) (piece xs : List Char) :
    cutAtFrom sep piece xs = (xs.splitOn sep).modifyHead (piece.reverse ++ ·) := by
  induction xs generalizing piece with
  | nil => simp [cutAtFrom]
  | cons x xs ih =>
    have hCons : (x :: xs).splitOn sep =
        if x == sep then [] :: xs.splitOn sep else (xs.splitOn sep).modifyHead (x :: ·) := by
      rw [List.splitOn_eq_splitOnP, List.splitOnP_cons_eq_if_modifyHead, List.splitOn_eq_splitOnP]
    rw [cutAtFrom, ih, ih, hCons]
    split
    · cases xs.splitOn sep <;> simp
    · cases xs.splitOn sep <;> simp

theorem cutAtFrom_nil_eq_splitOn (sep : Char) (xs : List Char) : cutAtFrom sep [] xs = xs.splitOn sep := by
  rw [cutAtFrom_eq_modifyHead]
  cases xs.splitOn sep <;> simp

theorem cutAtFrom_append (sep : Char) (piece xs ys : List Char) :
    cutAtFrom sep piece (xs ++ sep :: ys) =
      cutAtFrom sep piece xs ++ cutAtFrom sep [] ys := by
  induction xs generalizing piece with
  | nil => simp [cutAtFrom]
  | cons x xs ih =>
    rw [List.cons_append, cutAtFrom, cutAtFrom, ih, ih]
    split
    · rfl
    · rfl

theorem cutAtFrom_of_notMem {sep : Char} {xs : List Char} (h : sep ∉ xs) (piece : List Char) :
    cutAtFrom sep piece xs = [piece.reverse ++ xs] := by
  induction xs generalizing piece with
  | nil => simp [cutAtFrom]
  | cons x xs ih =>
    rw [List.mem_cons, not_or] at h
    have hNe : ¬ (x == sep) = true := by simpa using fun hEq => h.1 hEq.symm
    rw [cutAtFrom, if_neg hNe, ih h.2]
    simp

theorem cutAtFrom_intercalate {sep : Char} {pieces : List (List Char)} (h : ∀ p ∈ pieces, sep ∉ p)
    (hNe : pieces ≠ []) : cutAtFrom sep [] ([sep].intercalate pieces) = pieces := by
  rw [cutAtFrom_nil_eq_splitOn]
  exact List.splitOn_intercalate sep h hNe

theorem length_cutAtFrom (sep : Char) (piece xs : List Char) :
    (cutAtFrom sep piece xs).length = xs.count sep + 1 := by
  induction xs generalizing piece with
  | nil => rfl
  | cons x xs ih =>
    rw [cutAtFrom, List.count_cons]
    split
    · rw [List.length_cons, ih]
    · rw [ih, Nat.add_zero]

theorem head?_cutAtFrom (sep : Char) (piece xs : List Char) :
    (cutAtFrom sep piece xs).head? = some (piece.reverse ++ xs.takeWhile (· != sep)) := by
  induction xs generalizing piece with
  | nil => simp [cutAtFrom]
  | cons x xs ih =>
    rw [cutAtFrom]
    by_cases hSep : x = sep
    · simp [hSep]
    · simp [hSep, ih]

variable {sep : Char} {piece xs c : List Char}

theorem separator_notMem_of_mem_cutAtFrom (hPiece : sep ∉ piece) (h : c ∈ cutAtFrom sep piece xs) :
    sep ∉ c := by
  induction xs generalizing piece with
  | nil =>
    rw [cutAtFrom, List.mem_singleton] at h
    simpa [h] using hPiece
  | cons x xs ih =>
    rw [cutAtFrom] at h
    split at h
    · rcases List.mem_cons.mp h with rfl | h
      · simpa using hPiece
      · exact ih List.not_mem_nil h
    · rename_i hNe
      refine ih ?_ h
      rw [List.mem_cons, not_or]
      exact ⟨fun hEq => hNe (by simp [hEq]), hPiece⟩

theorem mem_or_mem_of_mem_cutAtFrom {x : Char} (h : c ∈ cutAtFrom sep piece xs) (hx : x ∈ c) :
    x ∈ piece ∨ x ∈ xs := by
  induction xs generalizing piece with
  | nil =>
    rw [cutAtFrom, List.mem_singleton] at h
    rw [h, List.mem_reverse] at hx
    exact .inl hx
  | cons y xs ih =>
    rw [cutAtFrom] at h
    split at h
    · rcases List.mem_cons.mp h with rfl | h
      · exact .inl (List.mem_reverse.mp hx)
      · rcases ih h with hNil | hMem
        · exact absurd hNil List.not_mem_nil
        · exact .inr (List.mem_cons_of_mem y hMem)
    · rcases ih h with hMem | hMem
      · rcases List.mem_cons.mp hMem with rfl | hMem
        · exact .inr List.mem_cons_self
        · exact .inl hMem
      · exact .inr (List.mem_cons_of_mem y hMem)

/-! ## Texts that are cut off -/

section Cut

variable {sep : Char} {p tail : List Char} {ps : List (List Char)} {n : Nat}

theorem cutAtFrom_take_intercalate_of_lt (hp : sep ∉ p) (hps : ps ≠ []) (h : p.length < n) :
    cutAtFrom sep [] (([sep].intercalate (p :: ps)).take n ++ tail) =
      p :: cutAtFrom sep [] (([sep].intercalate ps).take (n - (p.length + 1)) ++ tail) := by
  obtain ⟨k, rfl⟩ := Nat.exists_eq_add_of_lt h
  have hText : ([sep].intercalate (p :: ps)).take (p.length + k + 1) ++ tail =
      p ++ sep :: (([sep].intercalate ps).take k ++ tail) := by
    rw [List.intercalate_cons_of_ne_nil hps, List.append_assoc, Nat.add_assoc, List.take_length_add_append]
    simp
  rw [hText, cutAtFrom_append, cutAtFrom_of_notMem hp, Nat.add_right_comm, Nat.add_sub_cancel_left]
  simp

theorem cutAtFrom_take_intercalate_of_le (hp : sep ∉ p) (hTail : sep ∉ tail) (h : n ≤ p.length ∨ ps = []) :
    cutAtFrom sep [] (([sep].intercalate (p :: ps)).take n ++ tail) = [p.take n ++ tail] := by
  have hText : ([sep].intercalate (p :: ps)).take n = p.take n := by
    rcases h with h | rfl
    · cases ps with
      | nil => simp
      | cons q qs =>
        rw [List.intercalate_cons_of_ne_nil (List.cons_ne_nil q qs), List.append_assoc,
          List.take_append_of_le_length h]
    · simp
  rw [hText, cutAtFrom_of_notMem]
  · rfl
  · rw [List.mem_append, not_or]
    exact ⟨fun hMem => hp (List.mem_of_mem_take hMem), hTail⟩

end Cut

end WebAudit.Text
