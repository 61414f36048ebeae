import Mathlib.Data.List.Basic
import Mathlib.Data.Nat.Basic
import WebAudit.Text.Utf8

/-!
# Characters and their bytes

One character is read from exactly the bytes that it is written as, whatever follows. So a text is read back
from its bytes, and bytes that can be read are those of the text that they give. A byte order mark in front
is the one exception: it is the first character of what is written, and left out of what is read.
-/

namespace WebAudit.Text.Utf8

def encode (s : String) : List UInt8 :=
  s.toUTF8.data.toList

theorem encode_eq_flatMap (s : String) : encode s = s.toList.flatMap String.utf8EncodeChar := by
  have hBytes : s.toUTF8 = s.toList.utf8Encode := by
    rw [← String.toByteArray_ofList, String.ofList_toList]
    rfl
  rw [encode, hBytes, List.utf8Encode, List.data_toByteArray]

/-! ## The forms of characters -/

def Tail (n : Nat) : Prop :=
  0x80 ≤ n ∧ n ≤ 0xBF

/-- A first byte, the bytes after it and the code that they stand for. The bounds of the second byte leave
out what fits into fewer bytes, the surrogates, and what is no character any more. -/
inductive Spelling : UInt8 → List UInt8 → Nat → Prop
  | one {b : UInt8} (hb : b.toNat < 0x80) : Spelling b [] b.toNat
  | two {b x : UInt8} (hb : 0xC2 ≤ b.toNat ∧ b.toNat < 0xE0) (hx : Tail x.toNat) :
    Spelling b [x] ((b.toNat - 0xC0) * 64 + (x.toNat - 0x80))
  | three {b x y : UInt8} (hb : 0xE0 ≤ b.toNat ∧ b.toNat < 0xF0)
    (hx : Tail x.toNat ∧ (b.toNat = 0xE0 → 0xA0 ≤ x.toNat) ∧ (b.toNat = 0xED → x.toNat ≤ 0x9F))
    (hy : Tail y.toNat) :
    Spelling b [x, y] (((b.toNat - 0xE0) * 64 + (x.toNat - 0x80)) * 64 + (y.toNat - 0x80))
  | four {b x y z : UInt8} (hb : 0xF0 ≤ b.toNat ∧ b.toNat < 0xF5)
    (hx : Tail x.toNat ∧ (b.toNat = 0xF0 → 0x90 ≤ x.toNat) ∧ (b.toNat = 0xF4 → x.toNat ≤ 0x8F))
    (hy : Tail y.toNat) (hz : Tail z.toNat) :
    Spelling b [x, y, z]
      ((((b.toNat - 0xF0) * 64 + (x.toNat - 0x80)) * 64 + (y.toNat - 0x80)) * 64 + (z.toNat - 0x80))

/-! ## Writing -/

section Written

variable {c : Char}

theorem encodeChar_one (h : c.toNat < 0x80) : String.utf8EncodeChar c = [UInt8.ofNat c.toNat] :=
  if_pos (Nat.le_of_lt_succ h)

theorem encodeChar_two (hLow : 0x80 ≤ c.toNat) (hHigh : c.toNat < 0x800) :
    String.utf8EncodeChar c = [UInt8.ofNat (c.toNat / 64 + 0xC0), UInt8.ofNat (c.toNat % 64 + 0x80)] := by
  have hTop : c.toNat / 64 % 32 = c.toNat / 64 := by omega
  have hOne : ¬ c.toNat ≤ 0x7F := by omega
  have hTwo : c.toNat ≤ 0x7FF := by omega
  rw [← hTop]
  simp only [String.utf8EncodeChar, Char.toNat_val, hOne, hTwo, if_false, if_true]

theorem encodeChar_three (hLow : 0x800 ≤ c.toNat) (hHigh : c.toNat < 0x10000) :
    String.utf8EncodeChar c = [UInt8.ofNat (c.toNat / 4096 + 0xE0),
      UInt8.ofNat (c.toNat / 64 % 64 + 0x80), UInt8.ofNat (c.toNat % 64 + 0x80)] := by
  have hTop : c.toNat / 4096 % 16 = c.toNat / 4096 := by omega
  have hOne : ¬ c.toNat ≤ 0x7F := by omega
  have hTwo : ¬ c.toNat ≤ 0x7FF := by omega
  have hThree : c.toNat ≤ 0xFFFF := by omega
  rw [← hTop]
  simp only [String.utf8EncodeChar, Char.toNat_val, hOne, hTwo, hThree, if_false, if_true]

theorem encodeChar_four (hLow : 0x10000 ≤ c.toNat) (hHigh : c.toNat < 0x110000) :
    String.utf8EncodeChar c = [UInt8.ofNat (c.toNat / 262144 + 0xF0),
      UInt8.ofNat (c.toNat / 4096 % 64 + 0x80), UInt8.ofNat (c.toNat / 64 % 64 + 0x80),
      UInt8.ofNat (c.toNat % 64 + 0x80)] := by
  have hTop : c.toNat / 262144 % 8 = c.toNat / 262144 := by omega
  have hOne : ¬ c.toNat ≤ 0x7F := by omega
  have hTwo : ¬ c.toNat ≤ 0x7FF := by omega
  have hThree : ¬ c.toNat ≤ 0xFFFF := by omega
  rw [← hTop]
  simp only [String.utf8EncodeChar, Char.toNat_val, hOne, hTwo, hThree, if_false]

end Written

theorem toNat_ofNat {code : Nat} (h : code.isValidChar) : (Char.ofNat code).toNat = code := by
  unfold Char.ofNat
  rw [dif_pos h]
  rfl

theorem ofNat_eq {b : UInt8} {n : Nat} (h : n = b.toNat) : UInt8.ofNat n = b := by
  rw [h, UInt8.ofNat_toNat]

/-- What is spelled is a character, and it is written in this way. -/
theorem Spelling.encode {b : UInt8} {more : List UInt8} {code : Nat} (h : Spelling b more code) :
    String.utf8EncodeChar (Char.ofNat code) = b :: more := by
  cases h with
  | one hb =>
    have hToNat : (Char.ofNat b.toNat).toNat = b.toNat := toNat_ofNat (.inl (by omega))
    rw [encodeChar_one (by omega), hToNat, UInt8.ofNat_toNat]
  | @two x hb hx =>
    unfold Tail at hx
    generalize hCode : (b.toNat - 0xC0) * 64 + (x.toNat - 0x80) = code
    have hToNat : (Char.ofNat code).toNat = code := toNat_ofNat (.inl (by omega))
    have hTop : UInt8.ofNat (code / 64 + 0xC0) = b := ofNat_eq (by omega)
    have hLast : UInt8.ofNat (code % 64 + 0x80) = x := ofNat_eq (by omega)
    rw [encodeChar_two (by omega) (by omega), hToNat, hTop, hLast]
  | @three x y hb hx hy =>
    unfold Tail at hx hy
    generalize hCode : ((b.toNat - 0xE0) * 64 + (x.toNat - 0x80)) * 64 + (y.toNat - 0x80) = code
    have hToNat : (Char.ofNat code).toNat = code := toNat_ofNat (by unfold Nat.isValidChar; omega)
    have hTop : UInt8.ofNat (code / 4096 + 0xE0) = b := ofNat_eq (by omega)
    have hMid : UInt8.ofNat (code / 64 % 64 + 0x80) = x := ofNat_eq (by omega)
    have hLast : UInt8.ofNat (code % 64 + 0x80) = y := ofNat_eq (by omega)
    rw [encodeChar_three (by omega) (by omega), hToNat, hTop, hMid, hLast]
  | @four x y z hb hx hy hz =>
    unfold Tail at hx hy hz
    generalize hCode : (((b.toNat - 0xF0) * 64 + (x.toNat - 0x80)) * 64 + (y.toNat - 0x80)) * 64 +
      (z.toNat - 0x80) = code
    have hToNat : (Char.ofNat code).toNat = code := toNat_ofNat (by unfold Nat.isValidChar; omega)
    have hTop : UInt8.ofNat (code / 262144 + 0xF0) = b := ofNat_eq (by omega)
    have hNext : UInt8.ofNat (code / 4096 % 64 + 0x80) = x := ofNat_eq (by omega)
    have hMid : UInt8.ofNat (code / 64 % 64 + 0x80) = y := ofNat_eq (by omega)
    have hLast : UInt8.ofNat (code % 64 + 0x80) = z := ofNat_eq (by omega)
    rw [encodeChar_four (by omega) (by omega), hToNat, hTop, hNext, hMid, hLast]

theorem exists_byte {n : Nat} (h : n < 256) : ∃ b, UInt8.ofNat n = b ∧ b.toNat = n :=
  ⟨_, rfl, by rw [UInt8.toNat_ofNat', Nat.mod_eq_of_lt h]⟩

theorem exists_spelling (c : Char) :
    ∃ b more, String.utf8EncodeChar c = b :: more ∧ Spelling b more c.toNat := by
  have hValid : c.toNat < 0xD800 ∨ (0xDFFF < c.toNat ∧ c.toNat < 0x110000) := c.valid
  generalize hCode : c.toNat = code at hValid
  by_cases hOne : code < 0x80
  · obtain ⟨b, hb, rfl⟩ := exists_byte (n := code) (by omega)
    refine ⟨b, [], ?_, .one hOne⟩
    rw [encodeChar_one (by omega), hCode, hb]
  by_cases hTwo : code < 0x800
  · obtain ⟨b, hb, hbNat⟩ := exists_byte (n := code / 64 + 0xC0) (by omega)
    obtain ⟨x, hx, hxNat⟩ := exists_byte (n := code % 64 + 0x80) (by omega)
    have hSum : code = (b.toNat - 0xC0) * 64 + (x.toNat - 0x80) := by omega
    refine ⟨b, [x], ?_, ?_⟩
    · rw [encodeChar_two (by omega) (by omega), hCode, hb, hx]
    · rw [hSum]
      exact .two (by omega) (by unfold Tail; omega)
  by_cases hThree : code < 0x10000
  · obtain ⟨b, hb, hbNat⟩ := exists_byte (n := code / 4096 + 0xE0) (by omega)
    obtain ⟨x, hx, hxNat⟩ := exists_byte (n := code / 64 % 64 + 0x80) (by omega)
    obtain ⟨y, hy, hyNat⟩ := exists_byte (n := code % 64 + 0x80) (by omega)
    have hSum : code = ((b.toNat - 0xE0) * 64 + (x.toNat - 0x80)) * 64 + (y.toNat - 0x80) := by omega
    refine ⟨b, [x, y], ?_, ?_⟩
    · rw [encodeChar_three (by omega) (by omega), hCode, hb, hx, hy]
    · rw [hSum]
      exact .three (by omega) (by unfold Tail; omega) (by unfold Tail; omega)
  · obtain ⟨b, hb, hbNat⟩ := exists_byte (n := code / 262144 + 0xF0) (by omega)
    obtain ⟨x, hx, hxNat⟩ := exists_byte (n := code / 4096 % 64 + 0x80) (by omega)
    obtain ⟨y, hy, hyNat⟩ := exists_byte (n := code / 64 % 64 + 0x80) (by omega)
    obtain ⟨z, hz, hzNat⟩ := exists_byte (n := code % 64 + 0x80) (by omega)
    have hSum : code =
        (((b.toNat - 0xF0) * 64 + (x.toNat - 0x80)) * 64 + (y.toNat - 0x80)) * 64 + (z.toNat - 0x80) := by omega
    refine ⟨b, [x, y, z], ?_, ?_⟩
    · rw [encodeChar_four (by omega) (by omega), hCode, hb, hx, hy, hz]
    · rw [hSum]
      exact .four (by omega) (by unfold Tail; omega) (by unfold Tail; omega) (by unfold Tail; omega)

/-! ## Reading -/

section Leads

variable {b : UInt8}

theorem leadOf_one (h : b.toNat < 0x80) : leadOf b = some { bits := b.toNat, more := 0 } :=
  if_pos (UInt8.lt_iff_toNat_lt.mpr h)

theorem leadOf_two (hLow : 0xC2 ≤ b.toNat) (hHigh : b.toNat < 0xE0) :
    leadOf b = some { bits := b.toNat - 0xC0, more := 1 } := by
  have hOne : ¬ b.toNat < 0x80 := by omega
  have hNone : ¬ b.toNat < 0xC2 := by omega
  simp [leadOf, UInt8.lt_iff_toNat_lt, hOne, hNone, hHigh]

theorem leadOf_three (hLow : 0xE0 ≤ b.toNat) (hHigh : b.toNat < 0xF0) :
    leadOf b = some {
      bits := b.toNat - 0xE0, more := 2
      low := if b.toNat = 0xE0 then 0xA0 else 0x80
      high := if b.toNat = 0xED then 0x9F else 0xBF } := by
  have hOne : ¬ b.toNat < 0x80 := by omega
  have hNone : ¬ b.toNat < 0xC2 := by omega
  have hTwo : ¬ b.toNat < 0xE0 := by omega
  simp [leadOf, UInt8.lt_iff_toNat_lt, ← UInt8.toNat_inj, hOne, hNone, hTwo, hHigh]

theorem leadOf_four (hLow : 0xF0 ≤ b.toNat) (hHigh : b.toNat < 0xF5) :
    leadOf b = some {
      bits := b.toNat - 0xF0, more := 3
      low := if b.toNat = 0xF0 then 0x90 else 0x80
      high := if b.toNat = 0xF4 then 0x8F else 0xBF } := by
  have hOne : ¬ b.toNat < 0x80 := by omega
  have hNone : ¬ b.toNat < 0xC2 := by omega
  have hTwo : ¬ b.toNat < 0xE0 := by omega
  have hThree : ¬ b.toNat < 0xF0 := by omega
  simp [leadOf, UInt8.lt_iff_toNat_lt, ← UInt8.toNat_inj, hOne, hNone, hTwo, hThree, hHigh]

theorem leadOf_none (h : 0x80 ≤ b.toNat ∧ b.toNat < 0xC2 ∨ 0xF5 ≤ b.toNat) : leadOf b = none := by
  simp only [leadOf, UInt8.lt_iff_toNat_lt, UInt8.reduceToNat]
  split
  · omega
  · split
    · rfl
    · rw [if_neg (by omega), if_neg (by omega), if_neg (by omega)]

end Leads

/-- The bytes go on with a character, the first of them within bounds of its own. -/
def Continues (low high : UInt8) : List UInt8 → Prop
  | [] => True
  | b :: bs => (low ≤ b ∧ b ≤ high) ∧ Continues 0x80 0xBF bs

theorem goodCount_eq_iff {low high : UInt8} {n : Nat} {bs : List UInt8} :
    goodCount low high n bs = n ↔
      ∃ more rest, bs = more ++ rest ∧ more.length = n ∧ Continues low high more := by
  induction n generalizing low high bs with
  | zero => simp [goodCount, Continues]
  | succ n ih =>
    cases bs with
    | nil => simp [goodCount]
    | cons b bs =>
      rw [goodCount]
      split
      · rename_i hBounds
        rw [Nat.add_right_cancel_iff, ih]
        constructor
        · rintro ⟨more, rest, rfl, hLength, hMore⟩
          exact ⟨b :: more, rest, rfl, by simp [hLength], by simpa using hBounds, hMore⟩
        · rintro ⟨more, rest, hBytes, hLength, hMore⟩
          obtain ⟨x, more, rfl⟩ := List.exists_cons_of_length_eq_add_one hLength
          obtain ⟨rfl, rfl⟩ := List.cons.inj hBytes
          exact ⟨more, rest, rfl, by simpa using hLength, hMore.2⟩
      · rename_i hBounds
        constructor
        · intro h
          cases h
        · rintro ⟨more, rest, hBytes, hLength, hMore⟩
          obtain ⟨x, more, rfl⟩ := List.exists_cons_of_length_eq_add_one hLength
          obtain ⟨rfl, rfl⟩ := List.cons.inj hBytes
          exact absurd (by simpa using hMore.1) hBounds

theorem bounds_iff {p q : Prop} [Decidable p] [Decidable q] {x : UInt8} (low high : UInt8)
    (hLow : 0x80 ≤ low.toNat) (hHigh : high.toNat ≤ 0xBF) :
    ((if p then low else 0x80) ≤ x ∧ x ≤ if q then high else 0xBF) ↔
      Tail x.toNat ∧ (p → low.toNat ≤ x.toNat) ∧ (q → x.toNat ≤ high.toNat) := by
  simp only [UInt8.le_iff_toNat_le, Tail]
  split <;> split <;> simp_all <;> omega

theorem tail_iff {x : UInt8} : (0x80 ≤ x ∧ x ≤ 0xBF) ↔ Tail x.toNat := by
  simp [UInt8.le_iff_toNat_le, Tail]

/-- What the first byte announces and the others make up is a spelling. -/
theorem spelling_of_continues {b : UInt8} {lead : Lead} {more : List UInt8} (hLead : leadOf b = some lead)
    (hLength : more.length = lead.more) (hMore : Continues lead.low lead.high more) :
    Spelling b more (codeOf lead.bits more) := by
  by_cases hNone : 0x80 ≤ b.toNat ∧ b.toNat < 0xC2 ∨ 0xF5 ≤ b.toNat
  · rw [leadOf_none hNone] at hLead
    cases hLead
  by_cases hOne : b.toNat < 0x80
  · rw [leadOf_one hOne] at hLead
    obtain rfl := Option.some.inj hLead
    obtain rfl := List.length_eq_zero_iff.mp hLength
    exact .one hOne
  by_cases hTwo : b.toNat < 0xE0
  · rw [leadOf_two (by omega) hTwo] at hLead
    obtain rfl := Option.some.inj hLead
    obtain ⟨x, rfl⟩ := List.length_eq_one_iff.mp hLength
    exact .two (by omega) (tail_iff.mp hMore.1)
  by_cases hThree : b.toNat < 0xF0
  · rw [leadOf_three (by omega) hThree] at hLead
    obtain rfl := Option.some.inj hLead
    obtain ⟨x, y, rfl⟩ := List.length_eq_two.mp hLength
    obtain ⟨hx, hy, -⟩ := hMore
    have hSecond := (bounds_iff 0xA0 0x9F (by decide) (by decide)).mp hx
    exact .three (by omega) hSecond (tail_iff.mp hy)
  · rw [leadOf_four (by omega) (by omega)] at hLead
    obtain rfl := Option.some.inj hLead
    obtain ⟨x, y, z, rfl⟩ := List.length_eq_three.mp hLength
    obtain ⟨hx, hy, hz, -⟩ := hMore
    have hSecond := (bounds_iff 0x90 0x8F (by decide) (by decide)).mp hx
    exact .four (by omega) hSecond (tail_iff.mp hy) (tail_iff.mp hz)

theorem Spelling.exists_lead {b : UInt8} {more : List UInt8} {code : Nat} (h : Spelling b more code) :
    ∃ lead, leadOf b = some lead ∧ more.length = lead.more ∧ Continues lead.low lead.high more ∧
      codeOf lead.bits more = code := by
  cases h with
  | one hb => exact ⟨_, leadOf_one hb, rfl, trivial, rfl⟩
  | two hb hx => exact ⟨_, leadOf_two hb.1 hb.2, rfl, ⟨tail_iff.mpr hx, trivial⟩, rfl⟩
  | three hb hx hy =>
    have hSecond := (bounds_iff 0xA0 0x9F (by decide) (by decide)).mpr hx
    exact ⟨_, leadOf_three hb.1 hb.2, rfl, ⟨hSecond, tail_iff.mpr hy, trivial⟩, rfl⟩
  | four hb hx hy hz =>
    have hSecond := (bounds_iff 0x90 0x8F (by decide) (by decide)).mpr hx
    exact ⟨_, leadOf_four hb.1 hb.2, rfl, ⟨hSecond, tail_iff.mpr hy, tail_iff.mpr hz, trivial⟩, rfl⟩

theorem first_eq_ok_iff {b : UInt8} {bs rest : List UInt8} {c : Char} :
    first b bs = .ok (c, rest) ↔
      ∃ more code, Spelling b more code ∧ bs = more ++ rest ∧ c = Char.ofNat code := by
  unfold first
  constructor
  · intro h
    split at h
    · cases h
    · rename_i lead hLead
      dsimp only at h
      split at h
      · rename_i hGood
        obtain ⟨more, rest, rfl, hLength, hMore⟩ := goodCount_eq_iff.mp hGood
        rw [hGood, ← hLength, List.take_left, List.drop_left] at h
        cases h
        exact ⟨more, _, spelling_of_continues hLead hLength hMore, rfl, rfl⟩
      · split at h <;> cases h
  · rintro ⟨more, code, hSpelling, rfl, rfl⟩
    obtain ⟨lead, hLead, hLength, hMore, hCode⟩ := hSpelling.exists_lead
    have hGood := goodCount_eq_iff.mpr ⟨more, rest, rfl, hLength, hMore⟩
    rw [hLead]
    dsimp only
    rw [if_pos hGood, hGood, ← hLength, List.take_left, List.drop_left, hCode]

/-- A character is read just where it is written. -/
theorem first_eq_ok_iff_encode {b : UInt8} {bs rest : List UInt8} {c : Char} :
    first b bs = .ok (c, rest) ↔ b :: bs = String.utf8EncodeChar c ++ rest := by
  rw [first_eq_ok_iff]
  constructor
  · rintro ⟨more, code, hSpelling, rfl, rfl⟩
    rw [hSpelling.encode, List.cons_append]
  · intro h
    obtain ⟨x, more, hEncode, hSpelling⟩ := exists_spelling c
    rw [hEncode, List.cons_append] at h
    obtain ⟨rfl, rfl⟩ := List.cons.inj h
    exact ⟨more, c.toNat, hSpelling, rfl, (Char.ofNat_toNat c).symm⟩

/-! ## Texts -/

theorem decodeFrom_cons {b : UInt8} {bs rest : List UInt8} {c : Char} (h : first b bs = .ok (c, rest))
    (position : Nat) (found : List Char) :
    decodeFrom position found (b :: bs) =
      decodeFrom (position + (bs.length + 1 - rest.length)) (c :: found) rest := by
  rw [decodeFrom]
  split
  · rename_i hFirst
    rw [h] at hFirst
    cases hFirst
    rfl
  · rename_i hFirst
    rw [h] at hFirst
    cases hFirst

theorem decodeFrom_encode (position : Nat) (found cs : List Char) :
    decodeFrom position found (cs.flatMap String.utf8EncodeChar) = .ok (found.reverse ++ cs) := by
  induction cs generalizing position found with
  | nil => simp [decodeFrom]
  | cons c cs ih =>
    obtain ⟨b, more, hEncode, -⟩ := exists_spelling c
    have hFirst : first b (more ++ cs.flatMap String.utf8EncodeChar) = .ok (c, cs.flatMap String.utf8EncodeChar) := by
      rw [first_eq_ok_iff_encode, hEncode, List.cons_append]
    rw [List.flatMap_cons, hEncode, List.cons_append, decodeFrom_cons hFirst, ih]
    simp

theorem encode_of_decodeFrom {position : Nat} {found cs : List Char} {bs : List UInt8}
    (h : decodeFrom position found bs = .ok cs) :
    ∃ tail, cs = found.reverse ++ tail ∧ bs = tail.flatMap String.utf8EncodeChar := by
  fun_induction decodeFrom position found bs with
  | case1 =>
    cases h
    exact ⟨[], by simp⟩
  | case2 position found b bs c rest hFirst _ ih =>
    obtain ⟨tail, rfl, rfl⟩ := ih h
    refine ⟨c :: tail, by simp, ?_⟩
    rw [List.flatMap_cons]
    exact first_eq_ok_iff_encode.mp hFirst
  | case3 => cases h

/-- Without a byte order mark, bytes are read to a text just if they are its bytes. -/
theorem decodeFrom_eq_ok_iff {bs : List UInt8} {s : String} :
    (decodeFrom 0 [] bs).map String.ofList = .ok s ↔ bs = encode s := by
  rw [encode_eq_flatMap]
  constructor
  · intro h
    cases hDecode : decodeFrom 0 [] bs with
    | error fault =>
      rw [hDecode] at h
      cases h
    | ok cs =>
      rw [hDecode] at h
      cases h
      obtain ⟨tail, rfl, rfl⟩ := encode_of_decodeFrom hDecode
      simp
  · rintro rfl
    rw [decodeFrom_encode, List.reverse_nil, List.nil_append]
    exact congrArg Except.ok String.ofList_toList

theorem decode_eq_ok_iff {bs : List UInt8} {s : String} : decode bs = .ok s ↔ withoutMark bs = encode s :=
  decodeFrom_eq_ok_iff

/-! ## Byte order marks -/

def markChar : Char := '\uFEFF'

theorem encode_markChar : String.utf8EncodeChar markChar = byteOrderMark := by
  decide

theorem withoutMark_append (bs : List UInt8) : withoutMark (byteOrderMark ++ bs) = bs :=
  if_pos (List.isPrefixOf_iff_prefix.mpr (List.prefix_append _ _))

theorem withoutMark_eq_self {bs : List UInt8} (h : ¬ byteOrderMark <+: bs) : withoutMark bs = bs :=
  if_neg (List.isPrefixOf_iff_prefix.not.mpr h)

theorem withoutMark_cases (bs : List UInt8) : bs = withoutMark bs ∨ bs = byteOrderMark ++ withoutMark bs := by
  by_cases h : byteOrderMark <+: bs
  · obtain ⟨rest, rfl⟩ := h
    rw [withoutMark_append]
    exact .inr rfl
  · rw [withoutMark_eq_self h]
    exact .inl rfl

/-- The bytes of a text start with a mark only if its first character is one. -/
theorem head_eq_markChar {c : Char} {bs rest : List UInt8}
    (h : String.utf8EncodeChar c ++ bs = byteOrderMark ++ rest) : c = markChar := by
  obtain ⟨b, more, hEncode, -⟩ := exists_spelling c
  rw [hEncode, List.cons_append] at h
  have hFirst : first b (more ++ bs) = .ok (c, bs) := by
    rw [first_eq_ok_iff_encode, hEncode, List.cons_append]
  have hMark : first b (more ++ bs) = .ok (markChar, rest) := by
    rw [first_eq_ok_iff_encode, h, encode_markChar]
  rw [hMark] at hFirst
  cases hFirst
  rfl

def unmarked (s : String) : String :=
  if s.toList.head? = some markChar then String.ofList s.toList.tail else s

theorem withoutMark_encode (s : String) : withoutMark (encode s) = encode (unmarked s) := by
  unfold unmarked
  rw [encode_eq_flatMap]
  split
  · rename_i hHead
    obtain ⟨cs, hChars⟩ := List.head?_eq_some_iff.mp hHead
    rw [encode_eq_flatMap, String.toList_ofList, hChars, List.flatMap_cons, encode_markChar, withoutMark_append]
    rfl
  · rename_i hHead
    rw [encode_eq_flatMap]
    apply withoutMark_eq_self
    rintro ⟨rest, hBytes⟩
    cases hChars : s.toList with
    | nil =>
      rw [hChars] at hBytes
      cases hBytes
    | cons c cs =>
      rw [hChars, List.flatMap_cons] at hBytes
      apply hHead
      rw [hChars, head_eq_markChar hBytes.symm]
      rfl

theorem decode_encode (s : String) : decode (encode s) = .ok (unmarked s) := by
  rw [decode_eq_ok_iff, withoutMark_encode]

theorem encode_of_decode {bs : List UInt8} {s : String} (h : decode bs = .ok s) :
    bs = encode s ∨ bs = byteOrderMark ++ encode s := by
  rw [decode_eq_ok_iff] at h
  rw [← h]
  exact withoutMark_cases bs

theorem append_encode (s : String) : byteOrderMark ++ encode s = encode (String.ofList (markChar :: s.toList)) := by
  rw [encode_eq_flatMap, encode_eq_flatMap, String.toList_ofList, List.flatMap_cons, encode_markChar]

/-- Bytes are accepted just if they are those of a text. -/
theorem decodes_iff {bs : List UInt8} : (∃ s, decode bs = .ok s) ↔ ∃ s, bs = encode s := by
  constructor
  · rintro ⟨s, h⟩
    rcases encode_of_decode h with h | h
    · exact ⟨s, h⟩
    · exact ⟨_, h.trans (append_encode s)⟩
  · rintro ⟨s, rfl⟩
    exact ⟨unmarked s, decode_encode s⟩

end WebAudit.Text.Utf8
