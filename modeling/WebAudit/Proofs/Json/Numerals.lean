import Mathlib.Algebra.Order.Field.Power
import Mathlib.Algebra.Order.Ring.Rat
import Mathlib.Data.List.DropRight
import Mathlib.Data.List.TakeDrop
import Mathlib.Tactic.Positivity
import WebAudit.Proofs.Json.Strings

/-!
# Numbers in JSON

The text of a number has no mark at its end. It is read up to what can follow a value, since neither a comma nor
a bracket can be part of it. Whole numbers and doubles are written so that this gives all of the number. For a
double that takes a first digit that is not zero, so the place where the digits start must have been found.
-/

namespace WebAudit.Json

/-- What can follow a value: the end, a comma or a closing bracket. -/
def Closes (rest : List Char) : Prop :=
  ∀ c ∈ rest.head?, c = ',' ∨ c = ']' ∨ c = '}'

theorem span_digits {ds rest : List Char} (hDigits : ∀ c ∈ ds, c.isDigit = true)
    (hRest : ∀ c ∈ rest.head?, c.isDigit = false) : digits (ds ++ rest) = (ds, rest) := by
  have hStop : rest.takeWhile Char.isDigit = [] ∧ rest.dropWhile Char.isDigit = rest := by
    cases rest with
    | nil => exact ⟨rfl, rfl⟩
    | cons c rest =>
      have hc := hRest c rfl
      exact ⟨List.takeWhile_cons_of_neg (by simp [hc]), List.dropWhile_cons_of_neg (by simp [hc])⟩
  rw [digits, List.span_eq_takeWhile_dropWhile, List.takeWhile_append_of_pos hDigits,
    List.dropWhile_append_of_pos hDigits, hStop.1, hStop.2, List.append_nil]

/-! ## Parts of a number -/

structure Numeral where
  negative : Bool
  whole : List Char
  fraction : List Char := []
  /-- The sign and the digits of the exponent. -/
  exponent : Option (Char × List Char) := none

namespace Numeral

def fractionChars (n : Numeral) : List Char :=
  if n.fraction = [] then [] else '.' :: n.fraction

def exponentChars (n : Numeral) : List Char :=
  match n.exponent with
  | none => []
  | some (sign, ds) => 'e' :: sign :: ds

def body (n : Numeral) : List Char :=
  n.whole ++ (n.fractionChars ++ n.exponentChars)

def chars (n : Numeral) : List Char :=
  if n.negative then '-' :: n.body else n.body

/-- The parts are as they have to be: no number starts with a zero that is not alone in front of the point. -/
structure Proper (n : Numeral) : Prop where
  whole : n.whole = ['0'] ∨ ∃ d ds, n.whole = d :: ds ∧ d ≠ '0' ∧ ∀ c ∈ d :: ds, c.isDigit = true
  fraction : ∀ c ∈ n.fraction, c.isDigit = true
  exponent : ∀ sign ds, n.exponent = some (sign, ds) →
    (sign = '+' ∨ sign = '-') ∧ ds ≠ [] ∧ ∀ c ∈ ds, c.isDigit = true

def IsWhole (n : Numeral) : Prop :=
  n.fraction = [] ∧ n.exponent = none

variable {n : Numeral} {rest : List Char}

theorem plain_of_isDigit {c : Char} (h : c.isDigit = true) : Plain c := by
  obtain ⟨hLow, hHigh⟩ := Bool.and_eq_true_iff.mp h
  have hLow := UInt32.le_iff_toNat_le.mp (of_decide_eq_true hLow)
  have hHigh := UInt32.le_iff_toNat_le.mp (of_decide_eq_true hHigh)
  exact ⟨Nat.le_trans (by decide) hLow, Nat.le_trans hHigh (by decide)⟩

theorem plain_chars (h : n.Proper) : ∀ c ∈ n.chars, Plain c := by
  have hWhole : ∀ c ∈ n.whole, Plain c := by
    obtain hZero | ⟨d, ds, hWhole, -, hDigits⟩ := h.whole
    · rw [hZero]
      exact List.forall_mem_singleton.mpr (by decide)
    · rw [hWhole]
      exact fun c hc => plain_of_isDigit (hDigits c hc)
  have hFraction : ∀ c ∈ n.fractionChars, Plain c := by
    unfold fractionChars
    split
    · simp
    · exact List.forall_mem_cons.mpr ⟨by decide, fun c hc => plain_of_isDigit (h.fraction c hc)⟩
  have hExponent : ∀ c ∈ n.exponentChars, Plain c := by
    unfold exponentChars
    split
    · simp
    · rename_i sign ds hSome
      obtain ⟨hSign, -, hDigits⟩ := h.exponent sign ds hSome
      refine List.forall_mem_cons.mpr ⟨by decide, List.forall_mem_cons.mpr ⟨?_, ?_⟩⟩
      · obtain rfl | rfl := hSign <;> decide
      · exact fun c hc => plain_of_isDigit (hDigits c hc)
  have hBody : ∀ c ∈ n.body, Plain c :=
    List.forall_mem_append.mpr ⟨hWhole, List.forall_mem_append.mpr ⟨hFraction, hExponent⟩⟩
  unfold chars
  split
  · exact List.forall_mem_cons.mpr ⟨by decide, hBody⟩
  · exact hBody

theorem exists_first (h : n.Proper) : ∃ d tail, n.body = d :: tail ∧ d.isDigit = true := by
  obtain hZero | ⟨d, ds, hWhole, -, hDigits⟩ := h.whole
  · exact ⟨'0', _, by rw [body, hZero]; rfl, rfl⟩
  · exact ⟨d, _, by rw [body, hWhole]; rfl, hDigits d List.mem_cons_self⟩

theorem head_exponentChars (hRest : Closes rest) :
    ∀ c ∈ (n.exponentChars ++ rest).head?, c.isDigit = false ∧ c ≠ '.' := by
  unfold exponentChars
  intro c hc
  split at hc
  · obtain rfl | rfl | rfl := hRest c hc <;> decide
  · cases hc
    decide

theorem head_fractionChars (hRest : Closes rest) :
    ∀ c ∈ (n.fractionChars ++ (n.exponentChars ++ rest)).head?, c.isDigit = false := by
  unfold fractionChars
  intro c hc
  split at hc
  · exact (head_exponentChars hRest c hc).1
  · cases hc
    rfl

theorem wholePart_body (h : n.Proper) (hRest : Closes rest) :
    wholePart (n.body ++ rest) = some (n.whole, n.fractionChars ++ (n.exponentChars ++ rest)) := by
  rw [body, List.append_assoc, List.append_assoc]
  obtain hZero | ⟨d, ds, hWhole, hd, hDigits⟩ := h.whole
  · rw [hZero]
    rfl
  · rw [hWhole, List.cons_append, wholePart, ← List.cons_append, span_digits hDigits (head_fractionChars hRest)]
    rintro _ ⟨⟩
    exact hd rfl

theorem fractionPart_chars (h : n.Proper) (hRest : Closes rest) :
    fractionPart (n.fractionChars ++ (n.exponentChars ++ rest)) = (n.fraction, n.exponentChars ++ rest) := by
  have hHead := @head_exponentChars n rest hRest
  unfold fractionChars
  split
  · rename_i hNone
    rw [hNone, List.nil_append, fractionPart]
    intro tail hTail
    exact (hHead '.' (by rw [hTail]; rfl)).2 rfl
  · rename_i hSome
    obtain ⟨d, ds, hFraction⟩ := List.exists_cons_of_ne_nil hSome
    rw [List.cons_append, fractionPart, span_digits h.fraction fun c hc => (hHead c hc).1, hFraction]

theorem exponentPart_chars (h : n.Proper) (hRest : Closes rest) :
    ∃ e, exponentPart (n.exponentChars ++ rest) = (e, rest) ∧ (e.isNone = true ↔ n.exponent = none) := by
  unfold exponentChars
  split
  · rename_i hNone
    refine ⟨none, ?_, by simp [hNone]⟩
    rw [List.nil_append]
    cases rest with
    | nil => rfl
    | cons c rest =>
      obtain rfl | rfl | rfl := hRest c rfl <;> rfl
  · rename_i sign ds hSome
    obtain ⟨hSign, hNonempty, hDigits⟩ := h.exponent sign ds hSome
    obtain ⟨d, ds, rfl⟩ := List.exists_cons_of_ne_nil hNonempty
    have hSpan : digits (d :: ds ++ rest) = (d :: ds, rest) := by
      refine span_digits hDigits ?_
      intro c hc
      obtain rfl | rfl | rfl := hRest c hc <;> rfl
    have hE : ('e' == 'e' || 'e' == 'E') = true := rfl
    rw [List.cons_append, List.cons_append, exponentPart, if_pos hE]
    obtain rfl | rfl := hSign
    · rw [show exponentSign ('+' :: (d :: ds ++ rest)) = (false, d :: ds ++ rest) from rfl]
      dsimp only
      rw [hSpan]
      exact ⟨_, rfl, by simp [hSome]⟩
    · rw [show exponentSign ('-' :: (d :: ds ++ rest)) = (true, d :: ds ++ rest) from rfl]
      dsimp only
      rw [hSpan]
      exact ⟨_, rfl, by simp [hSome]⟩

theorem number_chars (h : n.Proper) (hRest : Closes rest) {e : Option Int}
    (hExponent : exponentPart (n.exponentChars ++ rest) = (e, rest)) :
    number (n.chars ++ rest) =
      if n.fraction.isEmpty && e.isNone then
        if maxDigits < n.whole.length then .error .tooLong
        else .ok (.int (if n.negative then -(natOf n.whole : Int) else natOf n.whole), rest)
      else .ok (.real (.ofDecimal n.negative
        ⟨natOf (n.whole ++ n.fraction), e.getD 0 - n.fraction.length⟩), rest) := by
  have hWhole := wholePart_body h hRest
  have hFraction := fractionPart_chars h hRest
  unfold chars number
  cases n.negative with
  | true =>
    simp only [if_true, List.cons_append, hWhole, hFraction, hExponent]
  | false =>
    -- the first digit is no sign
    obtain ⟨d, tail, hBody, hDigit⟩ := exists_first h
    rw [if_neg Bool.false_ne_true]
    split
    rename_i negative start hStart
    split at hStart
    · rename_i hMinus
      rw [hBody] at hMinus
      cases hMinus
      cases hDigit
    · cases hStart
      rw [hWhole]
      simp only [hFraction, hExponent, if_neg Bool.false_ne_true]

/-- A number that was written is read up to its end: as a whole number if it is one, and else as a double. -/
theorem exists_number (h : n.Proper) (hRest : Closes rest) :
    (n.IsWhole → n.whole.length ≤ maxDigits → ∃ i, number (n.chars ++ rest) = .ok (.int i, rest)) ∧
      (¬n.IsWhole → ∃ x, number (n.chars ++ rest) = .ok (.real x, rest)) := by
  obtain ⟨e, hExponent, hNone⟩ := exponentPart_chars h hRest
  have hKind : (n.fraction.isEmpty && e.isNone) = true ↔ n.IsWhole := by
    rw [Bool.and_eq_true, List.isEmpty_iff, hNone, IsWhole]
  rw [number_chars h hRest hExponent]
  constructor
  · intro hIs hLength
    rw [if_pos (hKind.mpr hIs), if_neg (Nat.not_lt.mpr hLength)]
    exact ⟨_, rfl⟩
  · intro hNot
    rw [if_neg fun hp => hNot (hKind.mp hp)]
    exact ⟨_, rfl⟩

end Numeral

end WebAudit.Json

namespace WebAudit.Number

/-! ## The digits of a double -/

def Magnitude.toRat (m : Magnitude) : ℚ :=
  m.mantissa * 2 ^ m.exponent

namespace Magnitude

variable {m : Magnitude}

theorem den_quotient_pos (m : Magnitude) : 0 < m.quotient.2 := by
  unfold quotient
  split
  · exact Nat.one_pos
  · exact Nat.pow_pos (by decide)

theorem quotient_eq (m : Magnitude) : (m.quotient.1 : ℚ) / m.quotient.2 = m.toRat := by
  unfold quotient toRat
  split
  · rename_i hExponent
    obtain ⟨k, hk⟩ := Int.eq_ofNat_of_zero_le hExponent
    simp [hk]
  · rename_i hExponent
    obtain ⟨k, hk⟩ := Int.eq_ofNat_of_zero_le (show 0 ≤ -m.exponent by omega)
    have hNeg : m.exponent = -(k : Int) := by omega
    simp [hNeg, div_eq_mul_inv]

/-- The magnitude lies between the least and the greatest double. -/
def InRange (m : Magnitude) : Prop :=
  -1074 ≤ (Nat.log2 m.mantissa : Int) + m.exponent ∧ (Nat.log2 m.mantissa : Int) + m.exponent ≤ 1023

theorem two_zpow_le (h : m.mantissa ≠ 0) :
    (2 : ℚ) ^ ((Nat.log2 m.mantissa : Int) + m.exponent) ≤ m.toRat := by
  have hLog : (2 : ℚ) ^ Nat.log2 m.mantissa ≤ m.mantissa := by
    exact_mod_cast Nat.log2_self_le h
  rw [toRat, zpow_add₀ (by norm_num), zpow_natCast]
  exact mul_le_mul_of_nonneg_right hLog (by positivity)

end Magnitude

theorem ten_pow_le_two_pow : ∀ k < 1024, 10 ^ ((k + 1) * 30103 / 100000 - 2) ≤ 2 ^ k := by
  decide +kernel

theorem two_pow_le_ten_pow : ∀ k < 1075, 2 ^ k ≤ 10 ^ (((k - 1) * 30103 + 99999) / 100000 + 2) := by
  decide +kernel

theorem ten_zpow_le_two_zpow {b : Int} (hLow : -1074 ≤ b) (hHigh : b ≤ 1023) :
    (10 : ℚ) ^ (Int.fdiv ((b + 1) * 30103) 100000 - 2) ≤ 2 ^ b := by
  rw [Int.fdiv_eq_ediv_of_nonneg _ (by decide)]
  rcases lt_or_ge b 0 with hSign | hSign
  · obtain ⟨k, rfl⟩ : ∃ k : Nat, b = -(k : Int) := ⟨b.natAbs, by omega⟩
    have hPow := two_pow_le_ten_pow k (by omega)
    have hExponent : (-(k : Int) + 1) * 30103 / 100000 - 2 =
        -((((k - 1) * 30103 + 99999) / 100000 + 2 : Nat) : Int) := by
      omega
    rw [hExponent, zpow_neg, zpow_neg, zpow_natCast, zpow_natCast]
    apply inv_anti₀ (by positivity)
    exact_mod_cast hPow
  · obtain ⟨k, rfl⟩ := Int.eq_ofNat_of_zero_le hSign
    have hPow := ten_pow_le_two_pow k (by omega)
    calc (10 : ℚ) ^ (((k : Int) + 1) * 30103 / 100000 - 2)
        ≤ 10 ^ (((k + 1) * 30103 / 100000 - 2 : Nat) : Int) := by
          apply zpow_le_zpow_right₀ (by norm_num)
          omega
      _ ≤ 2 ^ (k : Int) := by
          rw [zpow_natCast, zpow_natCast]
          exact_mod_cast hPow

namespace Double

theorem digits_floorDecimal_ne_zero_iff (m : Magnitude) (count : Nat) (e : Int) :
    (floorDecimal m count e).digits ≠ 0 ↔ (10 : ℚ) ^ (e - count + 1) ≤ m.toRat := by
  have hDen := m.den_quotient_pos
  have hDenQ : (0 : ℚ) < m.quotient.2 := by exact_mod_cast hDen
  rw [← m.quotient_eq]
  unfold floorDecimal
  dsimp only
  split
  · rename_i hLast
    obtain ⟨k, hk⟩ := Int.eq_ofNat_of_zero_le hLast
    rw [hk, Int.toNat_natCast, Nat.div_ne_zero_iff, zpow_natCast, le_div_iff₀ hDenQ]
    have hPos : m.quotient.2 * Nat.pow 10 k ≠ 0 := (Nat.mul_pos hDen (Nat.pow_pos (by decide))).ne'
    rw [and_iff_right hPos, Nat.mul_comm]
    norm_cast
  · rename_i hLast
    obtain ⟨k, hk⟩ := Int.eq_ofNat_of_zero_le (show 0 ≤ -(e - count + 1) by omega)
    have hNeg : e - count + 1 = -(k : Int) := by omega
    rw [hk, Int.toNat_natCast, Nat.div_ne_zero_iff, hNeg, zpow_neg, zpow_natCast, ← one_div,
      div_le_div_iff₀ (by positivity) hDenQ, and_iff_right hDen.ne', one_mul]
    norm_cast

theorem floorDecimal_ne_zero_of_le {m : Magnitude} {e : Int} {count : Nat} (hCount : 0 < count)
    (h : (floorDecimal m 1 e).digits ≠ 0) : (floorDecimal m count e).digits ≠ 0 := by
  rw [digits_floorDecimal_ne_zero_iff] at h ⊢
  refine (zpow_le_zpow_right₀ (by norm_num) ?_).trans h
  push_cast
  omega

/-- The search for the leading place ends at a digit, if there is one at the last place that is tried. -/
theorem leadingPlace_ne_zero {m : Magnitude} {n : Nat} {guess : Int}
    (h : (floorDecimal m 1 (guess - n)).digits ≠ 0) :
    (floorDecimal m 1 (leadingPlace m n guess)).digits ≠ 0 := by
  induction n generalizing guess with
  | zero => simpa [leadingPlace] using h
  | succ n ih =>
    rw [leadingPlace]
    split
    · apply ih
      have hPlace : guess - 1 - (n : Int) = guess - (n + 1 : Nat) := by omega
      rwa [hPlace]
    · assumption

theorem digits_shortest_ne_zero {m : Magnitude} (hRange : m.InRange) (hm : m.mantissa ≠ 0) :
    (shortest m).digits ≠ 0 := by
  have hGuess : (floorDecimal m 1 (leadingGuess m - (3 : Nat))).digits ≠ 0 := by
    rw [digits_floorDecimal_ne_zero_iff]
    refine le_trans ?_ ((ten_zpow_le_two_zpow hRange.1 hRange.2).trans (m.two_zpow_le hm))
    apply zpow_le_zpow_right₀ (by norm_num)
    unfold leadingGuess
    dsimp only
    push_cast
    omega
  have hPlace := leadingPlace_ne_zero hGuess
  unfold shortest
  dsimp only
  generalize leadingPlace m 3 (leadingGuess m) = e at hPlace
  cases hFound : ((List.range 17).map (· + 1)).findSome? (readsBack m e) with
  | none => exact floorDecimal_ne_zero_of_le (by decide) hPlace
  | some d =>
    obtain ⟨count, hCount, hBack⟩ := List.exists_of_findSome?_eq_some hFound
    obtain ⟨k, -, rfl⟩ := List.mem_map.mp hCount
    have hLow := floorDecimal_ne_zero_of_le (Nat.succ_pos k) hPlace
    have hMem := List.mem_of_find?_eq_some hBack
    rw [Option.getD_some]
    split at hMem
    · rcases List.mem_pair.mp hMem with rfl | rfl
      · exact hLow
      · exact Nat.succ_ne_zero _
    · rcases List.mem_pair.mp hMem with rfl | rfl
      · exact Nat.succ_ne_zero _
      · exact hLow

end Double

end WebAudit.Number

/-! ## Numbers that are written -/

namespace WebAudit.Json

open Number

theorem exists_leading_digit {n : Nat} (h : n ≠ 0) : ∃ d ds, Nat.toDigits 10 n = d :: ds ∧ d ≠ '0' := by
  have hDigit : ∀ d < 10, d ≠ 0 → Nat.digitChar d ≠ '0' := by decide
  induction n using Nat.strongRecOn with
  | ind n ih =>
    rw [Nat.toDigits_eq_if (by decide)]
    split
    · rename_i hLess
      exact ⟨_, [], rfl, hDigit n hLess h⟩
    · obtain ⟨d, ds, hFront, hd⟩ := ih (n / 10) (by omega) (by omega)
      exact ⟨d, ds ++ [Nat.digitChar (n % 10)], by rw [hFront]; rfl, hd⟩

theorem isDigit_toDigits (n : Nat) : ∀ c ∈ Nat.toDigits 10 n, c.isDigit = true :=
  fun _ hc => Nat.isDigit_of_mem_toDigits (by decide) (by decide) hc

namespace Numeral

theorem exists_whole (n : Int) :
    ∃ k : Numeral, k.Proper ∧ k.IsWhole ∧ k.whole = Nat.toDigits 10 n.natAbs ∧ k.chars = (toString n).toList := by
  refine ⟨⟨n < 0, Nat.toDigits 10 n.natAbs, [], none⟩, ⟨?_, by simp, by simp⟩, ⟨rfl, rfl⟩, rfl, ?_⟩
  · by_cases hZero : n.natAbs = 0
    · exact .inl (by rw [hZero, Nat.toDigits_zero])
    · obtain ⟨d, ds, hDigits, hd⟩ := exists_leading_digit hZero
      exact .inr ⟨d, ds, hDigits, hd, hDigits ▸ isDigit_toDigits _⟩
  · rw [Int.toString_eq_repr, Int.repr_eq_if, chars, body, fractionChars, exponentChars, if_pos rfl]
    dsimp only
    rw [List.append_nil, List.append_nil]
    split
    · rename_i hNegative
      have hSign : ¬0 ≤ n := by simpa using hNegative
      have hAbs : (-n).toNat = n.natAbs := by omega
      rw [if_neg hSign, hAbs, Nat.repr_eq_ofList_toDigits, String.toList_append, String.toList_ofList,
        String.toList_ofList]
      rfl
    · rename_i hPositive
      have hSign : 0 ≤ n := by simpa using hPositive
      have hAbs : n.toNat = n.natAbs := by omega
      rw [if_pos hSign, hAbs, Nat.repr_eq_ofList_toDigits, String.toList_ofList]

/-- Digits with a point are the text of a number. -/
theorem exists_positional {c : Char} {cs : List Char} (hc : c ≠ '0') (hDigits : ∀ x ∈ c :: cs, x.isDigit = true)
    (negative : Bool) (whole : Int) :
    ∃ k : Numeral, k.Proper ∧ ¬k.IsWhole ∧ k.negative = negative ∧ k.body = Double.positional (c :: cs) whole := by
  have hZeros (n : Nat) : ∀ x ∈ List.replicate n '0', x.isDigit = true := by
    intro x hx
    rw [List.eq_of_mem_replicate hx]
    rfl
  unfold Double.positional
  split
  · refine ⟨⟨negative, ['0'], List.replicate (-whole).toNat '0' ++ c :: cs, none⟩, ⟨.inl rfl, ?_, by simp⟩, ?_, rfl, ?_⟩
    · exact List.forall_mem_append.mpr ⟨hZeros _, hDigits⟩
    · simp [IsWhole]
    · simp [body, fractionChars, exponentChars]
  · rename_i hWhole
    obtain ⟨n, hn⟩ : ∃ n, whole.toNat = n + 1 := ⟨whole.toNat - 1, by omega⟩
    dsimp only
    rw [hn, List.take_succ_cons, List.drop_succ_cons]
    have hBack : ∃ back, (if (cs.drop n).isEmpty then ['0'] else cs.drop n) = back ∧ back ≠ [] ∧
        ∀ x ∈ back, x.isDigit = true := by
      split
      · exact ⟨_, rfl, by simp, by simp⟩
      · rename_i hSome
        exact ⟨_, rfl, by simpa using hSome, fun x hx => hDigits x (List.mem_cons_of_mem c (List.mem_of_mem_drop hx))⟩
    obtain ⟨back, hEq, hNonempty, hBackDigits⟩ := hBack
    rw [hEq]
    refine ⟨⟨negative, c :: (cs.take n ++ List.replicate (n + 1 - (c :: cs).length) '0'), back, none⟩,
      ⟨.inr ⟨_, _, rfl, hc, ?_⟩, hBackDigits, by simp⟩, ?_, rfl, ?_⟩
    · rw [List.forall_mem_cons, List.forall_mem_append]
      obtain ⟨hFirst, hOthers⟩ := List.forall_mem_cons.mp hDigits
      exact ⟨hFirst, fun x hx => hOthers x (List.mem_of_mem_take hx), hZeros _⟩
    · simp [IsWhole, hNonempty]
    · simp [body, fractionChars, exponentChars, hNonempty]

/-- So are digits with an exponent. -/
theorem exists_scientific {c : Char} {cs : List Char} (hc : c ≠ '0') (hDigits : ∀ x ∈ c :: cs, x.isDigit = true)
    (negative : Bool) (e : Int) :
    ∃ k : Numeral, k.Proper ∧ ¬k.IsWhole ∧ k.negative = negative ∧ k.body = Double.scientific (c :: cs) e := by
  obtain ⟨hFirst, hOthers⟩ := List.forall_mem_cons.mp hDigits
  refine ⟨⟨negative, [c], cs, some (if e < 0 then '-' else '+', digitsPadded 2 e.natAbs)⟩,
    ⟨.inr ⟨c, [], rfl, hc, by simpa using hFirst⟩, hOthers, ?_⟩, by simp [IsWhole], rfl, ?_⟩
  · rintro sign ds ⟨⟩
    refine ⟨?_, ?_, ?_⟩
    · split
      · exact .inr rfl
      · exact .inl rfl
    · simp [digitsPadded, Nat.toDigits_ne_nil]
    · intro x hx
      rcases List.mem_append.mp hx with hx | hx
      · rw [List.eq_of_mem_replicate hx]
        rfl
      · exact isDigit_toDigits _ x hx
  · unfold Double.scientific body fractionChars exponentChars
    cases cs with
    | nil => rfl
    | cons x xs => simp

end Numeral

theorem significant_eq {d : Decimal} (h : d.digits ≠ 0) :
    ∃ c cs, Double.significant d = c :: cs ∧ c ≠ '0' ∧ ∀ x ∈ c :: cs, x.isDigit = true := by
  obtain ⟨c, ds, hDigits, hc⟩ := exists_leading_digit h
  have hFront : Double.significant d <+: Nat.toDigits 10 d.digits :=
    List.rdropWhile_prefix (· == '0') (l := Nat.toDigits 10 d.digits)
  cases hSignificant : Double.significant d with
  | nil =>
    have hAll := List.rdropWhile_eq_nil_iff.mp hSignificant c (by rw [hDigits]; exact List.mem_cons_self)
    exact absurd (eq_of_beq hAll) hc
  | cons x xs =>
    rw [hSignificant, hDigits] at hFront
    obtain ⟨rfl, -⟩ := List.cons_prefix_cons.mp hFront
    refine ⟨x, xs, rfl, hc, fun y hy => isDigit_toDigits d.digits y ?_⟩
    rw [hDigits]
    exact hFront.subset hy

/-- The text of a double that is finite has the parts of a number, which is no whole one. -/
theorem exists_finite (negative : Bool) {m : Magnitude} (h : m.mantissa = 0 ∨ m.InRange) :
    ∃ k : Numeral, k.Proper ∧ ¬k.IsWhole ∧ k.chars = ((Double.finite negative m).text "Infinity" "NaN").toList := by
  have hParts : ∃ k : Numeral, k.Proper ∧ ¬k.IsWhole ∧ k.negative = negative ∧ k.body = Double.magnitudeText m := by
    unfold Double.magnitudeText
    split
    · exact ⟨⟨negative, ['0'], ['0'], none⟩, ⟨.inl rfl, by simp, by simp⟩, by simp [Numeral.IsWhole], rfl, rfl⟩
    · rename_i hMantissa
      obtain ⟨c, cs, hDigits, hc, hAll⟩ :=
        significant_eq (Double.digits_shortest_ne_zero (h.resolve_left hMantissa) hMantissa)
      dsimp only
      rw [hDigits]
      split
      · exact Numeral.exists_positional hc hAll negative _
      · exact Numeral.exists_scientific hc hAll negative _
  obtain ⟨k, hProper, hNot, rfl, hBody⟩ := hParts
  refine ⟨k, hProper, hNot, ?_⟩
  rw [Double.text, String.toList_ofList, Numeral.chars, hBody]
  split <;> rfl

end WebAudit.Json
