import Mathlib.Data.List.Basic
import Mathlib.Data.List.DropRight
import WebAudit.Text.Blank
import WebAudit.Text.Lowercase
import WebAudit.Text.Slice
import WebAudit.Text.WordChar

/-!
# Words and numbers in texts

A text contains a word if the word stands in it as one piece. The text of a number is made of digits, with a
sign in front if it is negative; lower case does not change it.
-/

namespace WebAudit

/-! ## Numbers as text -/

theorem isDigit_of_mem_toString {n : Nat} {c : Char} (h : c ∈ (toString n).toList) :
    c.isDigit = true := by
  rw [Nat.toString_eq_ofList_toDigits, String.toList_ofList] at h
  exact Nat.isDigit_of_mem_toDigits (by decide) (by decide) h

theorem isDigit_of_mem_toString_int {n : Int} {c : Char} (h : c ∈ (toString n).toList)
    (hSign : c ≠ '-') : c.isDigit = true := by
  rw [Int.toString_eq_repr, Int.repr_eq_if] at h
  split at h
  · rw [← Nat.toString_eq_repr] at h
    exact isDigit_of_mem_toString h
  · rw [← Nat.toString_eq_repr, String.toList_append, List.mem_append] at h
    rcases h with h | h
    · exact absurd (List.mem_singleton.mp h) hSign
    · exact isDigit_of_mem_toString h

theorem repr_inj {m n : Nat} (h : m.repr = n.repr) : m = n := by
  rw [Nat.repr_eq_ofList_toDigits, Nat.repr_eq_ofList_toDigits, String.ofList_inj] at h
  have hRead := congrArg (Nat.ofDigitChars 10 · 0) h
  simpa using hRead

/-- A number is told by its text. -/
theorem toString_int_inj {m n : Int} (h : toString m = toString n) : m = n := by
  have hSign (a b : Nat) : a.repr ≠ "-" ++ b.repr := by
    intro hText
    have hMinus : '-' ∈ (toString a).toList := by
      rw [Nat.toString_eq_repr, hText, String.toList_append]
      exact List.mem_append_left _ List.mem_cons_self
    exact absurd (isDigit_of_mem_toString hMinus) (by decide)
  rw [Int.toString_eq_repr, Int.toString_eq_repr, Int.repr_eq_if, Int.repr_eq_if] at h
  split at h <;> split at h
  · have hEq := repr_inj h
    omega
  · exact absurd h (hSign _ _)
  · exact absurd h.symm (hSign _ _)
  · have hChars := congrArg String.toList h
    rw [String.toList_append, String.toList_append] at hChars
    have hEq := repr_inj (String.toList_inj.mp (List.append_cancel_left hChars))
    omega

theorem toNat_le_of_isDigit {c : Char} (h : c.isDigit = true) : c.toNat ≤ 57 := by
  have hLe : c.val ≤ '9'.val := of_decide_eq_true (Bool.and_eq_true_iff.mp h).2
  exact UInt32.le_iff_toNat_le.mp hLe

theorem toNat_le_of_mem_toString_int {n : Int} {c : Char} (h : c ∈ (toString n).toList) :
    c.toNat ≤ 57 := by
  by_cases hSign : c = '-'
  · subst hSign
    decide
  · exact toNat_le_of_isDigit (isDigit_of_mem_toString_int h hSign)

namespace Text

/-! ## Blanks -/

def blankCodes : List Nat :=
  List.range' 9 5 ++ List.range' 28 5 ++ [0x85, 0xA0, 0x1680] ++ List.range' 0x2000 11 ++
    [0x2028, 0x2029, 0x202F, 0x205F, 0x3000]

theorem toNat_mem_blankCodes {c : Char} (h : isBlank c = true) : c.toNat ∈ blankCodes := by
  unfold isBlank at h
  simp only [Bool.or_eq_true, Bool.and_eq_true, decide_eq_true_eq, beq_iff_eq] at h
  simp only [blankCodes, List.mem_append, List.mem_range'_1, List.mem_cons, List.not_mem_nil, or_false]
  omega

theorem isWordChar_of_isBlank {c : Char} (h : isBlank c = true) : isWordChar c = false := by
  have hCodes : blankCodes.all (fun n => !isWordChar (Char.ofNat n)) = true := by decide +kernel
  have hWord := List.all_eq_true.mp hCodes c.toNat (toNat_mem_blankCodes h)
  simpa [Char.ofNat_toNat] using hWord

/-- Only blanks are taken off, at both ends. -/
theorem exists_blanks_stripChars (cs : List Char) :
    ∃ front back, front.all isBlank = true ∧ back.all isBlank = true ∧ cs = front ++ (stripChars cs ++ back) := by
  refine ⟨cs.takeWhile isBlank, (stripLeft cs).rtakeWhile isBlank, List.all_takeWhile, ?_, ?_⟩
  · rw [List.all_eq_true]
    exact fun c hc => List.mem_rtakeWhile_imp hc
  · have hBack : stripChars cs ++ (stripLeft cs).rtakeWhile isBlank = stripLeft cs :=
      List.rdropWhile_append_rtakeWhile
    rw [hBack]
    exact List.takeWhile_append_dropWhile.symm

theorem stripLeft_stripChars (cs : List Char) : stripLeft (stripChars cs) = stripChars cs := by
  have hFront : stripChars cs <+: stripLeft cs := List.rdropWhile_prefix isBlank _
  have hFirst := List.head?_dropWhile_not isBlank cs
  cases hStripped : stripChars cs with
  | nil => rfl
  | cons c rest =>
    obtain ⟨back, hBack⟩ := hStripped ▸ hFront
    change _ = cs.dropWhile isBlank at hBack
    rw [← hBack] at hFirst
    exact List.dropWhile_cons_of_neg (by simpa using hFirst)

theorem stripChars_stripChars (cs : List Char) : stripChars (stripChars cs) = stripChars cs := by
  have hRight : stripRight (stripChars cs) = stripChars cs := List.rdropWhile_idempotent isBlank (stripLeft cs)
  rw [stripChars, stripLeft_stripChars, hRight]

/-! ## Words -/

theorem isSome_splitFirst_iff {word cs : List Char} :
    (splitFirst word cs).isSome = true ↔ word <:+: cs := by
  induction cs with
  | nil => cases word <;> simp [splitFirst]
  | cons c cs ih =>
    rw [splitFirst, List.infix_cons_iff, ← ih, ← List.isPrefixOf_iff_prefix]
    split
    · simp_all
    · simp_all

theorem contains_iff {word s : String} :
    contains word s = true ↔ word.toList <:+: s.toList :=
  isSome_splitFirst_iff

theorem append_of_splitFirst {word cs before after : List Char}
    (h : splitFirst word cs = some (before, after)) : before ++ word ++ after = cs := by
  induction cs generalizing before with
  | nil =>
    cases word with
    | nil => simp_all [splitFirst]
    | cons c word => cases h
  | cons c cs ih =>
    rw [splitFirst] at h
    split at h
    · rename_i hPrefix
      cases h
      exact (List.prefix_iff_eq_append.mp (List.isPrefixOf_iff_prefix.mp hPrefix))
    · obtain ⟨⟨front, after⟩, hFound, hPair⟩ := Option.map_eq_some_iff.mp h
      cases hPair
      simp [← ih hFound]

/-- No place of a word is in front of the one that is found. -/
theorem splitFirst_append_le (word front rest : List Char) :
    ∃ before after, splitFirst word (front ++ word ++ rest) = some (before, after) ∧
      before.length ≤ front.length := by
  induction front with
  | nil =>
    cases h : word ++ rest with
    | nil => exact ⟨[], [], by simp_all [splitFirst], Nat.le_refl _⟩
    | cons c cs =>
      have hPrefix : word.isPrefixOf (c :: cs) = true := by
        rw [← h]
        simp
      exact ⟨[], (c :: cs).drop word.length, by simp [h, splitFirst, hPrefix], Nat.le_refl _⟩
  | cons c front ih =>
    obtain ⟨before, after, hFound, hLength⟩ := ih
    rw [List.cons_append, List.cons_append, splitFirst]
    split
    · exact ⟨[], _, rfl, Nat.zero_le _⟩
    · exact ⟨c :: before, after, by rw [hFound]; rfl, Nat.succ_le_succ hLength⟩

def StandsBefore (word front : List Char) : Prop :=
  ∃ before after, before ++ word ++ after = front ++ word ∧ after ≠ []

theorem length_lt_of_standsBefore {word front before after : List Char}
    (h : before ++ word ++ after = front ++ word) (hAfter : after ≠ []) : before.length < front.length := by
  have hLength := congrArg List.length h
  have hPos := List.length_pos_iff.mpr hAfter
  simp only [List.length_append] at hLength
  omega

theorem splitFirst_of_standsBefore {word front : List Char} (h : StandsBefore word front) (rest : List Char) :
    ∃ before after, splitFirst word (front ++ word ++ rest) = some (before, after) ∧
      before.length < front.length := by
  obtain ⟨x, y, hText, hAfter⟩ := h
  obtain ⟨before, after, hFound, hLength⟩ := splitFirst_append_le word x (y ++ rest)
  refine ⟨before, after, ?_, Nat.lt_of_le_of_lt hLength (length_lt_of_standsBefore hText hAfter)⟩
  rw [← hText, List.append_assoc _ y, hFound]

theorem splitFirst_of_not_standsBefore {word front : List Char} (h : ¬ StandsBefore word front)
    (rest : List Char) : splitFirst word (front ++ word ++ rest) = some (front, rest) := by
  obtain ⟨before, after, hFound, hLength⟩ := splitFirst_append_le word front rest
  have hText := append_of_splitFirst hFound
  rcases Nat.lt_or_eq_of_le hLength with hLess | hSame
  · -- the word that was found ends before the one behind `front` does
    obtain ⟨middle, hMiddle⟩ : before ++ word <+: front ++ word := by
      apply List.prefix_of_prefix_length_le ⟨after, hText⟩ (List.prefix_append _ _)
      simp only [List.length_append]
      omega
    refine absurd ⟨before, middle, hMiddle, ?_⟩ h
    rintro rfl
    have hEqual := congrArg List.length hMiddle
    simp only [List.length_append, List.length_nil] at hEqual
    omega
  · rw [List.append_assoc, List.append_assoc] at hText
    obtain ⟨rfl, hRest⟩ := List.append_inj hText hSame
    rw [hFound, List.append_cancel_left hRest]

section Infix

variable {word front back : List Char}

/-- A word does not reach over a character that it lacks. -/
theorem infix_append_cons_iff {sep : Char} (h : sep ∉ word) :
    word <:+: front ++ sep :: back ↔ word <:+: front ∨ word <:+: back := by
  constructor
  · rintro ⟨before, after, hText⟩
    rw [List.append_assoc] at hText
    rcases List.append_eq_append_iff.mp hText with ⟨rest, rfl, hRest⟩ | ⟨rest, rfl, hRest⟩
    · rcases List.append_eq_append_iff.mp hRest with ⟨tail, rfl, -⟩ | ⟨tail, rfl, hTail⟩
      · exact .inl ⟨before, tail, by simp⟩
      · cases tail with
        | nil => exact .inl ⟨before, [], by simp⟩
        | cons c tail =>
          obtain ⟨rfl, -⟩ := List.cons.inj hTail
          simp at h
    · cases rest with
      | nil =>
        cases word with
        | nil => exact .inl List.nil_infix
        | cons c word =>
          obtain ⟨rfl, -⟩ := List.cons.inj hRest
          simp at h
      | cons c rest =>
        obtain ⟨rfl, rfl⟩ := List.cons.inj hRest
        exact .inr ⟨rest, after, by simp⟩
  · rintro (hFront | hBack)
    · exact hFront.trans (List.prefix_append _ _).isInfix
    · exact hBack.trans ((List.suffix_cons sep back).trans (List.suffix_append _ _)).isInfix

theorem infix_cons_iff_of_head_ne {c : Char} (hNe : word ≠ []) (hHead : word.head? ≠ some c) :
    word <:+: c :: back ↔ word <:+: back := by
  rw [List.infix_cons_iff, or_iff_right]
  intro hPrefix
  cases word with
  | nil => exact hNe rfl
  | cons d word =>
    rw [List.cons_prefix_cons] at hPrefix
    exact hHead (congrArg some hPrefix.1)

/-- A word does not reach into a text that lacks its last character. -/
theorem infix_append_iff {last : Char} (hLast : word.getLast? = some last) (hBack : last ∉ back) :
    word <:+: front ++ back ↔ word <:+: front := by
  constructor
  · obtain ⟨start, rfl⟩ := List.getLast?_eq_some_iff.mp hLast
    rintro ⟨before, after, hText⟩
    rcases List.append_eq_append_iff.mp hText with ⟨rest, rfl, -⟩ | ⟨rest, hFront, rfl⟩
    · exact ⟨before, rest, rfl⟩
    · rcases List.eq_nil_or_concat rest with rfl | ⟨tail, c, rfl⟩
      · exact ⟨before, [], by simpa using hFront⟩
      · rw [← List.append_assoc, List.concat_eq_append, ← List.append_assoc] at hFront
        obtain ⟨-, hEnd⟩ := List.append_inj' hFront rfl
        simp_all
  · exact fun h => h.trans (List.prefix_append _ _).isInfix

end Infix

/-! ## Lower case -/

def lowerEach (cs : List Char) : List Char :=
  cs.flatMap fun c => lowerAt [] c []

theorem lowerEach_append (xs ys : List Char) : lowerEach (xs ++ ys) = lowerEach xs ++ lowerEach ys :=
  List.flatMap_append

/-- Characters of the ASCII range in front of the capitals have no other case. -/
theorem lowerEach_eq_self {cs : List Char} (h : ∀ c ∈ cs, c.toNat < 65) : lowerEach cs = cs := by
  induction cs with
  | nil => rfl
  | cons c cs ih =>
    obtain ⟨hHead, hTail⟩ := List.forall_mem_cons.mp h
    have hLower : lowerChar c = c := by
      rw [lowerChar, if_pos (by omega)]
      unfold Char.toLower
      refine dif_neg fun hCapital => ?_
      have hLe : 65 ≤ c.toNat := UInt32.le_iff_toNat_le.mp hCapital.1
      omega
    have hOther {n : Nat} (hn : 65 ≤ n) : (c.toNat == n) = false := by
      rw [beq_eq_false_iff_ne]
      omega
    have hAt : lowerAt [] c [] = [c] := by
      rw [lowerAt, hOther (by decide), hOther (by decide), hLower]
      rfl
    rw [lowerEach, List.flatMap_cons, hAt]
    exact congrArg (c :: ·) (ih hTail)

def ascii (c : Char) : Char :=
  if c.toNat < 128 then c else Char.ofNat 128

theorem ascii_eq_iff {a c : Char} (h : a.toNat < 128) : ascii c = a ↔ c = a := by
  unfold ascii
  split
  · rfl
  · rename_i hc
    refine iff_of_false ?_ ?_
    · rintro rfl
      exact absurd h (by decide)
    · rintro rfl
      exact hc h

/-- What stands beside a character decides between two letters only, none of which is of the ASCII range. -/
theorem map_ascii_lowerAt (before : List Char) (c : Char) (after : List Char) :
    (lowerAt before c after).map ascii = (lowerAt [] c []).map ascii := by
  cases hSigma : c.toNat == 0x3A3 with
  | false => simp [lowerAt, hSigma]
  | true =>
    obtain rfl : c = Char.ofNat 0x3A3 := by
      rw [← beq_iff_eq.mp hSigma, Char.ofNat_toNat]
    have hSmall : (lowerAt [] (Char.ofNat 0x3A3) []).map ascii = [Char.ofNat 128] := by decide
    rw [hSmall]
    unfold lowerAt
    rw [if_neg (by decide)]
    split
    · decide
    · decide

theorem map_ascii_lowerFrom (before cs : List Char) : (lowerFrom before cs).map ascii = (lowerEach cs).map ascii := by
  induction cs generalizing before with
  | nil => rfl
  | cons c cs ih =>
    rw [lowerFrom, List.map_append, ih, map_ascii_lowerAt, ← List.map_append]
    rfl

theorem infix_map_ascii_iff {word cs : List Char} (h : ∀ c ∈ word, c.toNat < 128) :
    word <:+: cs.map ascii ↔ word <:+: cs := by
  have hSame {ds : List Char} (hWord : ds.map ascii = word) : ds = word := by
    subst hWord
    refine (List.map_id ds).symm.trans (List.map_congr_left fun c hc => ?_)
    exact (ascii_eq_iff (h _ (List.mem_map_of_mem hc))).mp rfl
  constructor
  · rintro ⟨front, back, hText⟩
    obtain ⟨ds, back', rfl, hds, -⟩ := List.map_eq_append_iff.mp hText.symm
    obtain ⟨front', word', rfl, -, hWord⟩ := List.map_eq_append_iff.mp hds
    exact ⟨front', back', by rw [hSame hWord]⟩
  · intro hInfix
    have hWord : word.map ascii = word :=
      (List.map_congr_left fun c hc => (ascii_eq_iff (h c hc)).mpr rfl).trans (List.map_id word)
    exact hWord ▸ hInfix.map ascii

/-- A word of the ASCII range is found in lower case without regard to what stands beside a character. -/
theorem contains_lower_iff {word s : String} (h : word.toList.all (·.toNat < 128) = true) :
    contains word (lower s) = true ↔ word.toList <:+: lowerEach s.toList := by
  have hAscii : ∀ c ∈ word.toList, c.toNat < 128 := fun c hc => of_decide_eq_true (List.all_eq_true.mp h c hc)
  rw [contains_iff, lower, String.toList_ofList, lowerChars, ← infix_map_ascii_iff hAscii, map_ascii_lowerFrom,
    infix_map_ascii_iff hAscii]

end Text

end WebAudit
