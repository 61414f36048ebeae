import Mathlib.Data.List.Basic
import WebAudit.Json.Decode
import WebAudit.Json.Encode

/-!
# Strings in JSON

What is written of a character is read as that character, whatever follows: an escape tells where it ends, and
two escapes that belong together are read as one. All that is written can be printed, so a string never breaks
the line that it is on.
-/

namespace WebAudit.Json

/-! ## Characters -/

theorem hexValue_hexDigit : ∀ d < 16, hexValue (Text.hexDigit d) = some d := by
  decide

theorem hexDigits_four (n : Nat) : Text.hexDigits 4 n =
    [Text.hexDigit (n / 4096 % 16), Text.hexDigit (n / 256 % 16), Text.hexDigit (n / 16 % 16),
      Text.hexDigit (n % 16)] := by
  simp [Text.hexDigits, Nat.div_div_eq_div_mul]

theorem unit?_hexDigits {n : Nat} (h : n < 0x10000) (rest : List Char) :
    unit? (Text.hexDigits 4 n ++ rest) = some (n, rest) := by
  have hDigit (k : Nat) : hexValue (Text.hexDigit (k % 16)) = some (k % 16) :=
    hexValue_hexDigit _ (Nat.mod_lt k (by decide))
  rw [hexDigits_four]
  simp only [List.cons_append, List.nil_append, unit?, hDigit, Option.some.injEq, Prod.mk.injEq, and_true]
  omega

/-- No character has the number of half a pair. -/
theorem toNat_cases (c : Char) : c.toNat < 0xD800 ∨ (0xDFFF < c.toNat ∧ c.toNat < 0x110000) :=
  c.valid

theorem charOfUnit_toNat (c : Char) : charOfUnit c.toNat = c := by
  have hValid := toNat_cases c
  unfold charOfUnit
  rw [if_neg, Char.ofNat_toNat]
  simp only [Bool.and_eq_true, decide_eq_true_eq]
  omega

/-- A character of the first plane is read from one escape. -/
theorem unicodeEscape_unit {c : Char} (h : c.toNat < 0x10000) {rest : List Char} (hRest : rest ≠ []) :
    unicodeEscape ('u' :: (Text.hexDigits 4 c.toNat ++ rest)) = .ok (c, rest) := by
  have hValid := toNat_cases c
  obtain ⟨x, xs, rfl⟩ := List.exists_cons_of_ne_nil hRest
  unfold unicodeEscape
  rw [List.drop_succ_cons, List.drop_zero, unit?_hexDigits h]
  dsimp only
  rw [if_neg, charOfUnit_toNat]
  simp only [Bool.and_eq_true, decide_eq_true_eq]
  omega

theorem drop_unitEscape (n : Nat) (rest : List Char) : (unitEscape n ++ rest).drop 6 = rest := by
  rw [unitEscape, hexDigits_four]
  rfl

/-- Any other character is read from two. -/
theorem unicodeEscape_pair {high low : Nat} (hHigh : 0xD800 ≤ high ∧ high ≤ 0xDBFF)
    (hLow : 0xDC00 ≤ low ∧ low ≤ 0xDFFF) {rest : List Char} (hRest : rest ≠ []) :
    unicodeEscape ('u' :: (Text.hexDigits 4 high ++ (unitEscape low ++ rest))) =
      .ok (Char.ofNat (0x10000 + (high - 0xD800) * 0x400 + (low - 0xDC00)), rest) := by
  have hPair : (0xD800 ≤ high && high ≤ 0xDBFF && !((unitEscape low ++ rest).drop 6).isEmpty) = true := by
    rw [drop_unitEscape]
    simp [hHigh, hRest]
  have hBack : (0xDC00 ≤ low && low ≤ 0xDFFF) = true := by
    simp [hLow]
  unfold unicodeEscape
  rw [List.drop_succ_cons, List.drop_zero, unit?_hexDigits (by omega)]
  unfold unitEscape at hPair ⊢
  simp only [List.cons_append] at hPair ⊢
  rw [if_pos hPair, unit?_hexDigits (by omega)]
  exact if_pos hBack

theorem ofNat_pair {c : Char} (h : 0x10000 ≤ c.toNat) :
    Char.ofNat (0x10000 + (0xD800 + (c.toNat - 0x10000) / 0x400 - 0xD800) * 0x400 +
      (0xDC00 + (c.toNat - 0x10000) % 0x400 - 0xDC00)) = c := by
  have hNumber : 0x10000 + (0xD800 + (c.toNat - 0x10000) / 0x400 - 0xD800) * 0x400 +
      (0xDC00 + (c.toNat - 0x10000) % 0x400 - 0xDC00) = c.toNat := by
    omega
  rw [hNumber, Char.ofNat_toNat]

def Plain (c : Char) : Prop :=
  0x20 ≤ c.toNat ∧ c.toNat ≤ 0x7E

instance : DecidablePred Plain := fun c => inferInstanceAs (Decidable (0x20 ≤ c.toNat ∧ c.toNat ≤ 0x7E))

/-- How a character is written: as it is, by a short escape, or by one or two numbers. -/
inductive Escaped (c : Char) : List Char → Prop where
  | same : Plain c → c ≠ '"' → c ≠ '\\' → Escaped c [c]
  | short (x : Char) : Plain x → x ≠ 'u' → shortEscape x = some c → Escaped c ['\\', x]
  | unit : c.toNat < 0x10000 → Escaped c (unitEscape c.toNat)
  | pair : 0x10000 ≤ c.toNat → Escaped c (unitEscape (0xD800 + (c.toNat - 0x10000) / 0x400) ++
      unitEscape (0xDC00 + (c.toNat - 0x10000) % 0x400))

theorem escaped_escapeChar (c : Char) : Escaped c (escapeChar c) := by
  have hShort {x y : Char} (hPlain : Plain x) (hx : x ≠ 'u') (hEscape : shortEscape x = some y) (hc : c = y) :
      Escaped c ['\\', x] :=
    .short x hPlain hx (hc ▸ hEscape)
  unfold escapeChar
  dsimp only
  by_cases hMark : (c == '"') = true
  · rw [if_pos hMark]
    exact hShort (by decide) (by decide) rfl (eq_of_beq hMark)
  rw [if_neg hMark]
  by_cases hSlash : (c == '\\') = true
  · rw [if_pos hSlash]
    exact hShort (by decide) (by decide) rfl (eq_of_beq hSlash)
  rw [if_neg hSlash]
  by_cases hPlain : (0x20 ≤ c.toNat && c.toNat ≤ 0x7E) = true
  · rw [if_pos hPlain]
    refine .same (by simpa [Plain] using hPlain) ?_ ?_
    · rintro rfl
      exact hMark rfl
    · rintro rfl
      exact hSlash rfl
  rw [if_neg hPlain]
  by_cases hNewline : (c == '\n') = true
  · rw [if_pos hNewline]
    exact hShort (by decide) (by decide) rfl (eq_of_beq hNewline)
  rw [if_neg hNewline]
  by_cases hReturn : (c == '\r') = true
  · rw [if_pos hReturn]
    exact hShort (by decide) (by decide) rfl (eq_of_beq hReturn)
  rw [if_neg hReturn]
  by_cases hTab : (c == '\t') = true
  · rw [if_pos hTab]
    exact hShort (by decide) (by decide) rfl (eq_of_beq hTab)
  rw [if_neg hTab]
  by_cases hBack : (c.toNat == 8) = true
  · rw [if_pos hBack]
    exact hShort (by decide) (by decide) rfl (by rw [← eq_of_beq hBack, Char.ofNat_toNat])
  rw [if_neg hBack]
  by_cases hFeed : (c.toNat == 12) = true
  · rw [if_pos hFeed]
    exact hShort (by decide) (by decide) rfl (by rw [← eq_of_beq hFeed, Char.ofNat_toNat])
  rw [if_neg hFeed]
  by_cases hUnit : c.toNat < 0x10000
  · rw [if_pos hUnit]
    exact .unit hUnit
  · rw [if_neg hUnit]
    exact .pair (Nat.not_lt.mp hUnit)

theorem plain_unitEscape (n : Nat) : ∀ c ∈ unitEscape n, Plain c := by
  have hDigit : ∀ d < 16, Plain (Text.hexDigit d) := by decide
  have hLast (k : Nat) : Plain (Text.hexDigit (k % 16)) := hDigit _ (Nat.mod_lt k (by decide))
  rw [unitEscape, hexDigits_four]
  refine List.forall_mem_cons.mpr ⟨by decide, List.forall_mem_cons.mpr ⟨by decide, ?_⟩⟩
  simp [hLast]

theorem plain_escapeChar (c : Char) : ∀ x ∈ escapeChar c, Plain x := by
  have hEscaped := escaped_escapeChar c
  generalize escapeChar c = cs at hEscaped ⊢
  cases hEscaped with
  | same hPlain => exact List.forall_mem_singleton.mpr hPlain
  | short x hPlain => exact List.forall_mem_cons.mpr ⟨by decide, List.forall_mem_singleton.mpr hPlain⟩
  | unit => exact plain_unitEscape _
  | pair => exact List.forall_mem_append.mpr ⟨plain_unitEscape _, plain_unitEscape _⟩

/-- A character that was written is read in one step. -/
theorem stringRest_escapeChar (start : List Char) (fuel : Nat) (taken : List Char) (c : Char) {rest : List Char}
    (hRest : rest ≠ []) :
    stringRest start (fuel + 1) taken (escapeChar c ++ rest) = stringRest start fuel (c :: taken) rest := by
  have hEscaped := escaped_escapeChar c
  generalize escapeChar c = cs at hEscaped ⊢
  cases hEscaped with
  | same hPlain hMark hSlash =>
    have hControl : ¬c.toNat ≤ 0x1F := by
      have hLow := hPlain.1
      omega
    rw [List.singleton_append, stringRest, if_neg hControl]
    · exact fun h => hMark h
    · exact fun h _ => hSlash h
    · exact fun _ h _ => hSlash h
    · exact fun _ _ h _ => hSlash h
  | short x _ hx hShort =>
    rw [List.cons_append, List.singleton_append, stringRest, hShort]
    exact hx
  | unit hUnit =>
    rw [unitEscape, List.cons_append, List.cons_append, stringRest, unicodeEscape_unit hUnit hRest]
    rfl
  | pair hPair =>
    have hValid := toNat_cases c
    rw [List.append_assoc]
    conv_lhs => rw [unitEscape]
    rw [List.cons_append, List.cons_append, stringRest,
      unicodeEscape_pair ⟨by omega, by omega⟩ ⟨by omega, by omega⟩ hRest, ofNat_pair hPair]
    rfl

/-! ## Strings -/

theorem stringRest_escaped (start : List Char) (cs rest taken : List Char) {fuel : Nat} (hFuel : cs.length < fuel) :
    stringRest start fuel taken (cs.flatMap escapeChar ++ '"' :: rest) =
      .ok (String.ofList (taken.reverse ++ cs), rest) := by
  induction cs generalizing fuel taken with
  | nil =>
    obtain ⟨fuel, rfl⟩ := Nat.exists_eq_add_of_lt hFuel
    rw [List.flatMap_nil, List.nil_append, List.append_nil, stringRest]
  | cons c cs ih =>
    obtain ⟨fuel, rfl⟩ := Nat.exists_eq_succ_of_ne_zero (Nat.ne_zero_of_lt hFuel)
    rw [List.flatMap_cons, List.append_assoc, stringRest_escapeChar _ _ _ _ (by simp),
      ih (c :: taken) (Nat.lt_of_succ_lt_succ hFuel), List.reverse_cons, List.append_assoc, List.singleton_append]

/-- A string that was written is read as it was. -/
theorem string_encode (s : String) (rest : List Char) {fuel : Nat} (hFuel : s.length < fuel) :
    string fuel (s.toList.flatMap escapeChar ++ '"' :: rest) = .ok (s, rest) := by
  rw [string, stringRest_escaped _ _ _ _ (by rwa [String.length_toList]), List.reverse_nil, List.nil_append,
    String.ofList_toList]

theorem plain_encodeString (s : String) : ∀ c ∈ encodeString s, Plain c := by
  have hMark : Plain '"' := by decide
  unfold encodeString
  rw [List.cons_append, List.forall_mem_cons, List.forall_mem_append]
  refine ⟨hMark, ?_, List.forall_mem_singleton.mpr hMark⟩
  intro x hx
  obtain ⟨c, -, hx⟩ := List.mem_flatMap.mp hx
  exact plain_escapeChar c x hx

theorem length_le_encodeString (s : String) : s.length + 2 ≤ (encodeString s).length := by
  have hChar (c : Char) : 1 ≤ (escapeChar c).length := by
    have hEscaped := escaped_escapeChar c
    generalize escapeChar c = cs at hEscaped ⊢
    cases hEscaped <;> simp [unitEscape]
  have hChars (cs : List Char) : cs.length ≤ (cs.flatMap escapeChar).length := by
    induction cs with
    | nil => simp
    | cons c cs ih =>
      have hFirst := hChar c
      rw [List.flatMap_cons, List.length_append, List.length_cons]
      omega
  have hAll := hChars s.toList
  rw [String.length_toList] at hAll
  rw [encodeString, List.length_append, List.length_cons, List.length_singleton]
  omega

end WebAudit.Json
