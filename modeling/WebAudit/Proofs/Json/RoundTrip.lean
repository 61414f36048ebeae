import Mathlib.Tactic.FinCases
import WebAudit.Proofs.Imports.Graph
import WebAudit.Proofs.Json.Numerals

/-!
# Reading what was written

A value that was written can be read up to its end, and a string is read exactly for a string that was
written; which number is read for a number is left open. All of an encoding can be printed, so a value stays on
its line.
-/

namespace WebAudit.Number

def Double.InRange : Double → Prop
  | .finite _ m => m.mantissa = 0 ∨ m.InRange
  | .infinite _ | .notANumber => True

end WebAudit.Number

namespace WebAudit.Json

open Number

/-- The value can be read when `depth` more levels may be opened. -/
inductive Value.Readable : Nat → Value → Prop where
  | null {depth : Nat} : Readable depth .null
  | bool {depth : Nat} (b : Bool) : Readable depth (.bool b)
  | int {depth : Nat} {n : Int} : (Nat.toDigits 10 n.natAbs).length ≤ maxDigits → Readable depth (.int n)
  | real {depth : Nat} {x : Double} : x.InRange → Readable depth (.real x)
  | str {depth : Nat} (s : String) : Readable depth (.str s)
  | arr {depth : Nat} {items : List Value} : (∀ v ∈ items, Readable depth v) → Readable (depth + 1) (.arr items)
  | obj {depth : Nat} {fields : List (String × Value)} :
      (∀ f ∈ fields, Readable depth f.2) → Readable (depth + 1) (.obj fields)

/-- The second value is the same string as the first, or neither is a string. -/
def Echoes (v w : Value) : Prop :=
  ∀ s, w = .str s ↔ v = .str s

theorem Echoes.of_no_string {v w : Value} (hv : ∀ s, v ≠ .str s) (hw : ∀ s, w ≠ .str s) : Echoes v w :=
  fun s => ⟨fun h => absurd h (hw s), fun h => absurd h (hv s)⟩

structure Reads (depth : Nat) (v : Value) : Prop where
  starts : ∃ c cs, v.encodeChars = c :: cs ∧ isBlank c = false ∧ c ≠ ']'
  plain : ∀ c ∈ v.encodeChars, Plain c
  reads : ∀ {fuel : Nat} {rest : List Char}, Closes rest → 2 * v.encodeChars.length ≤ fuel →
    ∃ w, value fuel depth (v.encodeChars ++ rest) = .ok (w, rest) ∧ Echoes v w

/-! ## Values without others in them -/

section Scalars

variable {depth fuel : Nat} {c d : Char} {cs rest : List Char} {v : Value}

theorem ne_of_isDigit {x : Char} (h : d.isDigit = true) (hx : x.isDigit = false) : d ≠ x := by
  rintro rfl
  exact absurd (h.symm.trans hx) (by decide)

def StartsScalar (c : Char) : Prop :=
  c.isDigit = true ∨ c ∈ ['-', 'n', 't', 'f', 'N', 'I']

theorem StartsScalar.others (h : StartsScalar c) :
    (isBlank c = false ∧ c ≠ ']') ∧ c ≠ '"' ∧ c ≠ '[' ∧ c ≠ '{' := by
  rcases h with h | h
  · have hOther {x : Char} (hx : x.isDigit = false) : c ≠ x := ne_of_isDigit h hx
    refine ⟨⟨?_, hOther rfl⟩, hOther rfl, hOther rfl, hOther rfl⟩
    simp [isBlank, hOther (x := ' ') rfl, hOther (x := '\t') rfl, hOther (x := '\n') rfl, hOther (x := '\r') rfl]
  · fin_cases h <;> decide

theorem Reads.of_scalar (hChars : v.encodeChars = c :: cs) (hStarts : StartsScalar c)
    (hPlain : ∀ x ∈ v.encodeChars, Plain x)
    (hScalar : ∀ {rest : List Char}, Closes rest →
      ∃ w, scalar (v.encodeChars ++ rest) = .ok (w, rest) ∧ Echoes v w) : Reads depth v := by
  obtain ⟨hStart, hMark, hArray, hObject⟩ := hStarts.others
  refine ⟨⟨c, cs, hChars, hStart⟩, hPlain, ?_⟩
  intro fuel rest hRest hFuel
  rw [hChars, List.length_cons] at hFuel
  obtain ⟨fuel, rfl⟩ := Nat.exists_eq_succ_of_ne_zero (by omega : fuel ≠ 0)
  have hValue : value (fuel + 1) depth (v.encodeChars ++ rest) = scalar (v.encodeChars ++ rest) := by
    rw [hChars, List.cons_append, value]
    · exact fun _ h => hMark (List.cons.inj h).1
    · exact fun _ h => hArray (List.cons.inj h).1
    · exact fun _ h => hObject (List.cons.inj h).1
  rw [hValue]
  exact hScalar hRest

theorem scalar_word : ∀ entry ∈ words, ∀ rest, scalar (entry.1.toList ++ rest) = .ok (entry.2, rest) := by
  simp only [words, List.forall_mem_cons]
  exact ⟨fun _ => rfl, fun _ => rfl, fun _ => rfl, fun _ => rfl, fun _ => rfl, fun _ => rfl, by simp⟩

theorem word_chars : ∀ entry ∈ words,
    (∃ c cs, entry.1.toList = c :: cs ∧ StartsScalar c) ∧ ∀ c ∈ entry.1.toList, Plain c := by
  simp [words, StartsScalar, Plain]

/-- A word is read as its value. -/
theorem Reads.of_word {word : String} (h : (word, v) ∈ words) (hChars : v.encodeChars = word.toList) :
    Reads depth v := by
  obtain ⟨⟨c, cs, hWord, hStarts⟩, hPlain⟩ := word_chars _ h
  refine .of_scalar (hChars.trans hWord) hStarts (hChars ▸ hPlain) fun _ => ?_
  exact ⟨v, hChars ▸ scalar_word _ h _, fun _ => Iff.rfl⟩

/-- No word starts like a number. -/
theorem not_prefix_numeral (h : d.isDigit = true) :
    ∀ entry ∈ words, ¬entry.1.toList <+: d :: cs ∧ ¬entry.1.toList <+: '-' :: d :: cs := by
  have hOther {x : Char} (hx : x.isDigit = false) : x ≠ d := (ne_of_isDigit h hx).symm
  simp [words, hOther (x := 'n') rfl, hOther (x := 't') rfl, hOther (x := 'f') rfl, hOther (x := 'N') rfl,
    hOther (x := 'I') rfl, hOther (x := '-') rfl]

theorem scalar_eq_number (h : ∀ entry ∈ words, ¬entry.1.toList <+: cs) : scalar cs = number cs := by
  unfold scalar
  rw [List.findSome?_eq_none_iff.mpr]
  intro entry hEntry
  have hAfter : afterWord entry.1 cs = none :=
    if_neg fun hFront => h entry hEntry (List.isPrefixOf_iff_prefix.mp hFront)
  dsimp only
  rw [hAfter]
  rfl

theorem scalar_numeral {n : Numeral} (h : n.Proper) :
    (∃ c cs, n.chars = c :: cs ∧ StartsScalar c) ∧
      ∀ rest, scalar (n.chars ++ rest) = number (n.chars ++ rest) := by
  obtain ⟨d, tail, hBody, hDigit⟩ := Numeral.exists_first h
  unfold Numeral.chars
  rw [hBody]
  split
  · refine ⟨⟨_, _, rfl, .inr List.mem_cons_self⟩, fun rest => ?_⟩
    exact scalar_eq_number fun entry hEntry => (not_prefix_numeral hDigit entry hEntry).2
  · refine ⟨⟨_, _, rfl, .inl hDigit⟩, fun rest => ?_⟩
    exact scalar_eq_number fun entry hEntry => (not_prefix_numeral hDigit entry hEntry).1

/-- What has the parts of a number is read as what they come to. -/
theorem Reads.of_numeral {n : Numeral} (h : n.Proper) (hChars : n.chars = v.encodeChars)
    (hNumber : ∀ {rest : List Char}, Closes rest → ∃ w, number (n.chars ++ rest) = .ok (w, rest) ∧ Echoes v w) :
    Reads depth v := by
  obtain ⟨⟨c, cs, hStart, hStarts⟩, hScalar⟩ := scalar_numeral h
  refine .of_scalar (hChars ▸ hStart) hStarts (hChars ▸ Numeral.plain_chars h) fun hRest => ?_
  rw [← hChars, hScalar]
  exact hNumber hRest

theorem Reads.int {n : Int} (h : (Nat.toDigits 10 n.natAbs).length ≤ maxDigits) : Reads depth (.int n) := by
  obtain ⟨k, hProper, hWhole, hDigits, hChars⟩ := Numeral.exists_whole n
  refine .of_numeral hProper (hChars.trans (encodeChars_int n).symm) fun hRest => ?_
  obtain ⟨i, hNumber⟩ := (Numeral.exists_number hProper hRest).1 hWhole (hDigits ▸ h)
  exact ⟨_, hNumber, .of_no_string (by simp) (by simp)⟩

theorem Reads.real {x : Double} (h : x.InRange) : Reads depth (.real x) := by
  match x, h with
  | .finite negative m, h =>
    obtain ⟨k, hProper, hNot, hChars⟩ := exists_finite negative h
    refine .of_numeral hProper (hChars.trans (encodeChars_real _).symm) fun hRest => ?_
    obtain ⟨y, hNumber⟩ := (Numeral.exists_number hProper hRest).2 hNot
    exact ⟨_, hNumber, .of_no_string (by simp) (by simp)⟩
  | .infinite true, _ => exact .of_word (by simp [words, Double.text]) (encodeChars_real _)
  | .infinite false, _ => exact .of_word (by simp [words, Double.text]) (encodeChars_real _)
  | .notANumber, _ => exact .of_word (by simp [words, Double.text]) (encodeChars_real _)

theorem Reads.str (s : String) : Reads depth (.str s) := by
  have hChars := encodeChars_str s
  have hLength := length_le_encodeString s
  refine ⟨⟨'"', s.toList.flatMap escapeChar ++ ['"'], hChars, rfl, by decide⟩, hChars ▸ plain_encodeString s, ?_⟩
  intro fuel rest _ hFuel
  rw [hChars] at hFuel ⊢
  obtain ⟨fuel, rfl⟩ := Nat.exists_eq_succ_of_ne_zero (by omega : fuel ≠ 0)
  refine ⟨.str s, ?_, fun _ => Iff.rfl⟩
  rw [encodeString, List.cons_append, List.cons_append, List.append_assoc, List.singleton_append, value,
    string_encode s rest (by omega)]
  rfl

end Scalars

/-! ## Values with others in them -/

section Nested

variable {depth fuel : Nat} {rest : List Char} {v : Value}

theorem closes_cons (c : Char) (h : c = ',' ∨ c = ']' ∨ c = '}') (rest : List Char) : Closes (c :: rest) := by
  rintro x ⟨⟩
  exact h

theorem skipBlanks_cons {c : Char} (cs : List Char) (h : isBlank c = false) : skipBlanks (c :: cs) = c :: cs :=
  List.dropWhile_cons_of_neg (by simp [h])

/-- The encoder puts one blank before a value. -/
theorem Reads.skipBlanks_space (h : Reads depth v) (rest : List Char) :
    skipBlanks (' ' :: (v.encodeChars ++ rest)) = v.encodeChars ++ rest := by
  obtain ⟨c, cs, hChars, hBlank, -⟩ := h.starts
  rw [hChars, List.cons_append]
  exact skipBlanks_cons _ hBlank

theorem encodeItems_cons (v : Value) (vs : List Value) : ∃ tail, encodeItems (v :: vs) = v.encodeChars ++ tail := by
  cases vs with
  | nil => exact ⟨[], by rw [encodeItems_singleton, List.append_nil]⟩
  | cons v' vs => exact ⟨_, encodeItems_cons_cons v v' vs⟩

theorem items_encode {v : Value} {vs : List Value} (h : ∀ x ∈ v :: vs, Reads depth x) (found : List Value)
    (rest : List Char) (hFuel : 2 * (encodeItems (v :: vs)).length < fuel) :
    ∃ ws, items fuel depth found (encodeItems (v :: vs) ++ ']' :: rest) = .ok (.arr ws, rest) := by
  induction vs generalizing v found fuel with
  | nil =>
    obtain ⟨fuel, rfl⟩ := Nat.exists_eq_succ_of_ne_zero (Nat.ne_zero_of_lt hFuel)
    rw [encodeItems_singleton] at hFuel ⊢
    obtain ⟨w, hValue, -⟩ :=
      (h v List.mem_cons_self).reads (closes_cons ']' (by decide) rest) (Nat.le_of_lt_succ hFuel)
    refine ⟨(w :: found).reverse, ?_⟩
    rw [items, hValue]
    rfl
  | cons v' vs ih =>
    obtain ⟨fuel, rfl⟩ := Nat.exists_eq_succ_of_ne_zero (Nat.ne_zero_of_lt hFuel)
    obtain ⟨hFirst, hOthers⟩ := List.forall_mem_cons.mp h
    rw [encodeItems_cons_cons, List.length_append, List.length_cons, List.length_cons] at hFuel
    obtain ⟨w, hValue, -⟩ :=
      hFirst.reads (closes_cons ',' (by decide) (' ' :: (encodeItems (v' :: vs) ++ ']' :: rest)))
        (by omega : 2 * v.encodeChars.length ≤ fuel)
    obtain ⟨ws, hItems⟩ := ih hOthers (w :: found) (by omega : 2 * (encodeItems (v' :: vs)).length < fuel)
    refine ⟨ws, ?_⟩
    -- the blank after the comma is all that is skipped
    have hBlank : skipBlanks (' ' :: (encodeItems (v' :: vs) ++ ']' :: rest)) =
        encodeItems (v' :: vs) ++ ']' :: rest := by
      obtain ⟨tail, hTail⟩ := encodeItems_cons v' vs
      rw [hTail, List.append_assoc]
      exact (hOthers v' List.mem_cons_self).skipBlanks_space _
    rw [encodeItems_cons_cons, List.append_assoc, List.cons_append, List.cons_append, items, hValue]
    rw [← hBlank] at hItems
    exact hItems

theorem plain_encodeItems {vs : List Value} (h : ∀ v ∈ vs, Reads depth v) : ∀ c ∈ encodeItems vs, Plain c := by
  induction vs with
  | nil => exact List.forall_mem_nil _
  | cons v vs ih =>
    obtain ⟨hFirst, hOthers⟩ := List.forall_mem_cons.mp h
    cases vs with
    | nil =>
      rw [encodeItems_singleton]
      exact hFirst.plain
    | cons v' vs =>
      rw [encodeItems_cons_cons, List.forall_mem_append, List.forall_mem_cons, List.forall_mem_cons]
      exact ⟨hFirst.plain, by decide, by decide, ih hOthers⟩

theorem Reads.arr {vs : List Value} (h : ∀ v ∈ vs, Reads depth v) : Reads (depth + 1) (.arr vs) := by
  have hChars := encodeChars_arr vs
  refine ⟨⟨'[', encodeItems vs ++ [']'], hChars, rfl, by decide⟩, ?_, ?_⟩
  · rw [hChars, List.cons_append, List.forall_mem_cons, List.forall_mem_append, List.forall_mem_singleton]
    exact ⟨by decide, plain_encodeItems h, by decide⟩
  · intro fuel rest _ hFuel
    rw [hChars, List.length_append, List.length_cons, List.length_singleton] at hFuel
    obtain ⟨fuel, rfl⟩ := Nat.exists_eq_succ_of_ne_zero (by omega : fuel ≠ 0)
    have hNoString (ws : List Value) : Echoes (.arr vs) (.arr ws) := .of_no_string (by simp) (by simp)
    rw [hChars, List.cons_append, List.cons_append, List.append_assoc, List.singleton_append, value]
    cases vs with
    | nil => exact ⟨.arr [], rfl, hNoString []⟩
    | cons v vs =>
      obtain ⟨ws, hItems⟩ := items_encode h [] rest (by omega : 2 * (encodeItems (v :: vs)).length < fuel)
      refine ⟨.arr ws, ?_, hNoString ws⟩
      obtain ⟨c, cs, hStart, hBlank, hEnd⟩ := (h v List.mem_cons_self).starts
      obtain ⟨tail, hTail⟩ := encodeItems_cons v vs
      rw [hTail, hStart, List.append_assoc, List.cons_append] at hItems ⊢
      rw [skipBlanks_cons _ hBlank]
      split
      · rename_i hSame
        exact absurd (List.cons.inj hSame).1 hEnd
      · exact hItems

def EchoesField (f f' : String × Value) : Prop :=
  f'.1 = f.1 ∧ Echoes f.2 f'.2

/-- A field is read up to the end of its value. -/
theorem fields_entry {f : String × Value} (h : Reads depth f.2) (found : List (String × Value)) (hRest : Closes rest)
    (hFuel : 2 * (encodeString f.1 ++ ':' :: ' ' :: f.2.encodeChars).length ≤ fuel) :
    ∃ f', EchoesField f f' ∧
      fields (fuel + 1) depth found (encodeString f.1 ++ ':' :: ' ' :: f.2.encodeChars ++ rest) =
        match skipBlanks rest with
        | '}' :: rest => .ok (.obj (Table.put f'.1 f'.2 found), rest)
        | ',' :: rest => fields fuel depth (Table.put f'.1 f'.2 found) (skipBlanks rest)
        | rest => fault .expectingComma rest := by
  have hKey := length_le_encodeString f.1
  rw [List.length_append, List.length_cons, List.length_cons] at hFuel
  obtain ⟨w, hValue, hEchoes⟩ := h.reads hRest (by omega : 2 * f.2.encodeChars.length ≤ fuel)
  refine ⟨(f.1, w), ⟨rfl, hEchoes⟩, ?_⟩
  rw [encodeString]
  simp only [List.cons_append, List.append_assoc, List.nil_append]
  rw [fields, string_encode f.1 _ (by omega)]
  have hColon : skipBlanks (':' :: ' ' :: (f.2.encodeChars ++ rest)) = ':' :: ' ' :: (f.2.encodeChars ++ rest) := rfl
  have hBlank := h.skipBlanks_space rest
  simp only [bind, Except.bind, hColon, hBlank, hValue]
  rfl

theorem encodeFields_cons (f : String × Value) (fs : List (String × Value)) :
    ∃ tail, encodeFields (f :: fs) = '"' :: tail := by
  obtain ⟨key, v⟩ := f
  cases fs with
  | nil => exact ⟨_, by rw [encodeFields_singleton, encodeString]; rfl⟩
  | cons f' fs => exact ⟨_, by rw [encodeFields_cons_cons, encodeString]; rfl⟩

/-- The fields of an object are read in their order. -/
theorem fields_encode {f : String × Value} {fs : List (String × Value)} (h : ∀ x ∈ f :: fs, Reads depth x.2)
    (found : List (String × Value)) (rest : List Char) (hFuel : 2 * (encodeFields (f :: fs)).length < fuel) :
    ∃ fs', List.Forall₂ EchoesField (f :: fs) fs' ∧
      fields fuel depth found (encodeFields (f :: fs) ++ '}' :: rest) =
        .ok (.obj (fs'.foldl (fun table f => Table.put f.1 f.2 table) found), rest) := by
  induction fs generalizing f found fuel with
  | nil =>
    obtain ⟨fuel, rfl⟩ := Nat.exists_eq_succ_of_ne_zero (Nat.ne_zero_of_lt hFuel)
    rw [encodeFields_singleton] at hFuel ⊢
    obtain ⟨f', hEchoes, hFields⟩ :=
      fields_entry (h f List.mem_cons_self) found (closes_cons '}' (by decide) rest) (Nat.le_of_lt_succ hFuel)
    refine ⟨[f'], .cons hEchoes .nil, ?_⟩
    rw [hFields]
    rfl
  | cons g fs ih =>
    obtain ⟨fuel, rfl⟩ := Nat.exists_eq_succ_of_ne_zero (Nat.ne_zero_of_lt hFuel)
    obtain ⟨hFirst, hOthers⟩ := List.forall_mem_cons.mp h
    rw [encodeFields_cons_cons, List.length_append, List.length_cons, List.length_cons] at hFuel
    obtain ⟨f', hEchoes, hField⟩ :=
      fields_entry hFirst found (closes_cons ',' (by decide) (' ' :: (encodeFields (g :: fs) ++ '}' :: rest)))
        (by omega : _ ≤ fuel)
    obtain ⟨fs', hAll, hFields⟩ :=
      ih hOthers (Table.put f'.1 f'.2 found) (by omega : 2 * (encodeFields (g :: fs)).length < fuel)
    refine ⟨f' :: fs', .cons hEchoes hAll, ?_⟩
    have hBlank : skipBlanks (' ' :: (encodeFields (g :: fs) ++ '}' :: rest)) =
        encodeFields (g :: fs) ++ '}' :: rest := by
      obtain ⟨tail, hTail⟩ := encodeFields_cons g fs
      rw [hTail]
      rfl
    rw [encodeFields_cons_cons, List.append_assoc, List.cons_append, List.cons_append, hField]
    rw [← hBlank] at hFields
    exact hFields

theorem plain_encodeFields {fs : List (String × Value)} (h : ∀ f ∈ fs, Reads depth f.2) :
    ∀ c ∈ encodeFields fs, Plain c := by
  induction fs with
  | nil => exact List.forall_mem_nil _
  | cons f fs ih =>
    obtain ⟨hFirst, hOthers⟩ := List.forall_mem_cons.mp h
    have hField : ∀ c ∈ encodeString f.1 ++ ':' :: ' ' :: f.2.encodeChars, Plain c := by
      rw [List.forall_mem_append, List.forall_mem_cons, List.forall_mem_cons]
      exact ⟨plain_encodeString f.1, by decide, by decide, hFirst.plain⟩
    cases fs with
    | nil =>
      rw [encodeFields_singleton]
      exact hField
    | cons g fs =>
      rw [encodeFields_cons_cons, List.forall_mem_append, List.forall_mem_cons, List.forall_mem_cons]
      exact ⟨hField, by decide, by decide, ih hOthers⟩

/-- An object is read with its fields put into a table in their order. -/
theorem value_obj {fs : List (String × Value)} (h : ∀ f ∈ fs, Reads depth f.2) (rest : List Char)
    (hFuel : 2 * (Value.obj fs).encodeChars.length ≤ fuel) :
    ∃ fs', List.Forall₂ EchoesField fs fs' ∧
      value fuel (depth + 1) ((Value.obj fs).encodeChars ++ rest) =
        .ok (.obj (fs'.foldl (fun table f => Table.put f.1 f.2 table) []), rest) := by
  rw [encodeChars_obj, List.length_append, List.length_cons, List.length_singleton] at hFuel
  obtain ⟨fuel, rfl⟩ := Nat.exists_eq_succ_of_ne_zero (by omega : fuel ≠ 0)
  rw [encodeChars_obj, List.cons_append, List.cons_append, List.append_assoc, List.singleton_append, value]
  cases fs with
  | nil => exact ⟨[], .nil, rfl⟩
  | cons f fs =>
    obtain ⟨fs', hAll, hFields⟩ := fields_encode h [] rest (by omega : 2 * (encodeFields (f :: fs)).length < fuel)
    refine ⟨fs', hAll, ?_⟩
    obtain ⟨tail, hTail⟩ := encodeFields_cons f fs
    rw [← hFields, hTail]
    rfl

theorem Reads.obj {fs : List (String × Value)} (h : ∀ f ∈ fs, Reads depth f.2) : Reads (depth + 1) (.obj fs) := by
  refine ⟨⟨'{', encodeFields fs ++ ['}'], encodeChars_obj fs, rfl, by decide⟩, ?_, ?_⟩
  · rw [encodeChars_obj, List.cons_append, List.forall_mem_cons, List.forall_mem_append, List.forall_mem_singleton]
    exact ⟨by decide, plain_encodeFields h, by decide⟩
  · intro fuel rest _ hFuel
    obtain ⟨fs', -, hValue⟩ := value_obj h rest hFuel
    exact ⟨_, hValue, .of_no_string (by simp) (by simp)⟩

end Nested

/-! ## Whole texts -/

theorem Value.Readable.reads {depth : Nat} {v : Value} (h : v.Readable depth) : Reads depth v := by
  induction h with
  | null => exact .of_word (by simp [words] : ("null", Value.null) ∈ words) rfl
  | bool b =>
    cases b with
    | false => exact .of_word (by simp [words] : ("false", Value.bool false) ∈ words) rfl
    | true => exact .of_word (by simp [words] : ("true", Value.bool true) ∈ words) rfl
  | int hDigits => exact .int hDigits
  | real hRange => exact .real hRange
  | str s => exact .str s
  | arr _ ih => exact .arr ih
  | obj _ ih => exact .obj ih

/-- Entries with new keys go to the end of a table. -/
theorem foldl_put {α : Type} {entries table : List (String × α)} (h : (Table.keys (table ++ entries)).Nodup) :
    entries.foldl (fun table f => Table.put f.1 f.2 table) table = table ++ entries := by
  induction entries generalizing table with
  | nil => rw [List.foldl_nil, List.append_nil]
  | cons entry entries ih =>
    have hNew : entry.1 ∉ Table.keys table := by
      intro hOld
      rw [Table.keys, List.map_append] at h
      exact (List.nodup_append.mp h).2.2 _ hOld _ (List.mem_map_of_mem List.mem_cons_self) rfl
    rw [List.append_cons] at h ⊢
    rw [List.foldl_cons, Table.put_of_notMem hNew, ih h]

/-- An object that was written and has no key twice is read with its keys in their order. -/
theorem decode_encode_obj {fs : List (String × Value)} {depth : Nat} (h : ∀ f ∈ fs, f.2.Readable depth)
    (hKeys : (Table.keys fs).Nodup) :
    ∃ fs', decode (depth + 1) (Value.obj fs).encode = .ok (.obj fs') ∧ List.Forall₂ EchoesField fs fs' := by
  obtain ⟨fs', hAll, hValue⟩ := value_obj (fun f hf => (h f hf).reads) []
    (Nat.le_add_right (2 * (Value.obj fs).encodeChars.length) 2)
  have hSameKeys : Table.keys fs' = Table.keys fs := by
    unfold Table.keys
    clear hValue hKeys h
    induction hAll with
    | nil => rfl
    | cons hField _ ih => rw [List.map_cons, List.map_cons, ih, hField.1]
  have hTable : fs'.foldl (fun table f => Table.put f.1 f.2 table) [] = [] ++ fs' :=
    foldl_put (by rwa [List.nil_append, hSameKeys])
  refine ⟨fs', ?_, hAll⟩
  rw [List.append_nil, hTable, List.nil_append] at hValue
  have hBlank : skipBlanks (Value.obj fs).encodeChars = (Value.obj fs).encodeChars := by
    rw [encodeChars_obj]
    rfl
  have hMark : ((Value.obj fs).encodeChars.head? == some byteOrderMark) = false := by
    rw [encodeChars_obj]
    rfl
  unfold decode Value.encode
  rw [String.toList_ofList]
  dsimp only
  rw [if_neg (Bool.eq_false_iff.mp hMark), hBlank, hValue]
  rfl

/-- A key has the same string before and after, or none. -/
theorem lookup_echoes {fs fs' : List (String × Value)} (h : List.Forall₂ EchoesField fs fs') (key : String) :
    (∀ s, fs'.lookup key = some (.str s) ↔ fs.lookup key = some (.str s)) ∧
      (fs'.lookup key = none ↔ fs.lookup key = none) := by
  induction h with
  | nil => exact ⟨fun _ => Iff.rfl, Iff.rfl⟩
  | @cons f f' fs fs' hField _ ih =>
    obtain ⟨k, v⟩ := f
    obtain ⟨k', w⟩ := f'
    obtain ⟨rfl, hEchoes⟩ : k' = k ∧ Echoes v w := hField
    rw [List.lookup_cons, List.lookup_cons]
    cases key == k' with
    | false => exact ih
    | true => simpa [Echoes] using hEchoes

end WebAudit.Json
