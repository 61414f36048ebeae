import WebAudit.Json.Value

/-!
# Reading JSON

The decoder reads a text from the left and stops at the first fault, which is known by its cause and
by how much of the text was left there. Besides the standard, `NaN`, `Infinity` and `-Infinity` are
numbers. How deep values may be nested is up to the caller, and the length of a whole number is bounded. Texts
hold no surrogates here: an escape for half of a pair that is not there is read as the replacement character, so
that strings which differ in such halves only are not told apart.
-/

namespace WebAudit.Json

inductive Cause where
  | expectingValue
  | expectingName
  | expectingColon
  | expectingComma
  | extraData
  | unterminatedString
  | controlCharacter
  | badEscape
  | badUnicodeEscape
  | byteOrderMark
deriving DecidableEq, Repr, Inhabited

def Cause.message : Cause → String
  | expectingValue => "Expecting value"
  | expectingName => "Expecting property name enclosed in double quotes"
  | expectingColon => "Expecting ':' delimiter"
  | expectingComma => "Expecting ',' delimiter"
  | extraData => "Extra data"
  | unterminatedString => "Unterminated string starting at"
  | controlCharacter => "Invalid control character at"
  | badEscape => "Invalid \\escape"
  | badUnicodeEscape => "Invalid \\uXXXX escape"
  | byteOrderMark => "Unexpected UTF-8 BOM (decode using utf-8-sig)"

inductive Failure where
  /-- The text is no JSON; `rest` characters were left at the fault. -/
  | malformed (cause : Cause) (rest : Nat)
  /-- The text is nested too deeply to be read. -/
  | tooDeep
  /-- A whole number has too many digits to be read. -/
  | tooLong
deriving DecidableEq, Repr, Inhabited

def fault {α : Type} (cause : Cause) (rest : List Char) : Except Failure α :=
  .error (.malformed cause rest.length)

def isBlank (c : Char) : Bool :=
  c == ' ' || c == '\t' || c == '\n' || c == '\r'

def skipBlanks (cs : List Char) : List Char :=
  cs.dropWhile isBlank

/-! ## Strings -/

def hexValue (c : Char) : Option Nat :=
  if c.isDigit then some (c.toNat - 48)
  else if 'a' ≤ c && c ≤ 'f' then some (c.toNat - 87)
  else if 'A' ≤ c && c ≤ 'F' then some (c.toNat - 55)
  else none

def unit? : List Char → Option (Nat × List Char)
  | a :: b :: c :: d :: rest =>
    match hexValue a, hexValue b, hexValue c, hexValue d with
    | some a, some b, some c, some d => some (((a * 16 + b) * 16 + c) * 16 + d, rest)
    | _, _, _, _ => none
  | _ => none

def shortEscape (c : Char) : Option Char :=
  match c with
  | '"' => some '"'
  | '\\' => some '\\'
  | '/' => some '/'
  | 'b' => some (Char.ofNat 8)
  | 'f' => some (Char.ofNat 12)
  | 'n' => some '\n'
  | 'r' => some '\r'
  | 't' => some '\t'
  | _ => none

/-- A character from a unit; a unit that is half of a pair stands for no character. -/
def charOfUnit (n : Nat) : Char :=
  if 0xD800 ≤ n && n ≤ 0xDFFF then Char.ofNat 0xFFFD else Char.ofNat n

/-- The character of an escape, from its `u` on. A high unit takes in the low unit after it. -/
def unicodeEscape (cs : List Char) : Except Failure (Char × List Char) :=
  match unit? (cs.drop 1) with
  | none => fault .badUnicodeEscape cs
  | some (_, []) => fault .badUnicodeEscape cs
  | some (high, rest) =>
    if 0xD800 ≤ high && high ≤ 0xDBFF && !(rest.drop 6).isEmpty then
      match rest with
      | '\\' :: 'u' :: after =>
        match unit? after with
        | none => fault .badUnicodeEscape ('u' :: after)
        | some (low, after) =>
          if 0xDC00 ≤ low && low ≤ 0xDFFF then
            .ok (Char.ofNat (0x10000 + (high - 0xD800) * 0x400 + (low - 0xDC00)), after)
          else .ok (charOfUnit high, rest)
      | _ => .ok (charOfUnit high, rest)
    else .ok (charOfUnit high, rest)

/-- The rest of a string after its opening mark, given the text from the mark on and the characters so
far, the latest first. -/
def stringRest (start : List Char) :
    Nat → List Char → List Char → Except Failure (String × List Char)
  | 0, _, _ => fault .unterminatedString start
  | fuel + 1, taken, cs =>
    match cs with
    | [] => fault .unterminatedString start
    | '"' :: rest => .ok (String.ofList taken.reverse, rest)
    | '\\' :: [] => fault .unterminatedString start
    | '\\' :: 'u' :: rest => do
      let (c, rest) ← unicodeEscape ('u' :: rest)
      stringRest start fuel (c :: taken) rest
    | '\\' :: c :: rest =>
      match shortEscape c with
      | some c => stringRest start fuel (c :: taken) rest
      | none => fault .badEscape cs
    | c :: rest =>
      if c.toNat ≤ 0x1F then fault .controlCharacter cs
      else stringRest start fuel (c :: taken) rest

/-- A string, from after its opening mark on; `fuel` bounds its characters. -/
def string (fuel : Nat) (cs : List Char) : Except Failure (String × List Char) :=
  stringRest ('"' :: cs) fuel [] cs

/-! ## Numbers -/

def digits (cs : List Char) : List Char × List Char :=
  cs.span Char.isDigit

def natOf (ds : List Char) : Nat :=
  ds.foldl (fun n d => n * 10 + (d.toNat - 48)) 0

/-- The digits before the point: a zero alone, or digits that do not start with one. -/
def wholePart : List Char → Option (List Char × List Char)
  | '0' :: rest => some (['0'], rest)
  | cs => match digits cs with
    | ([], _) => none
    | found => some found

def fractionPart : List Char → List Char × List Char
  | '.' :: rest => match digits rest with
    | ([], _) => ([], '.' :: rest)
    | found => found
  | cs => ([], cs)

def exponentSign : List Char → Bool × List Char
  | '-' :: rest => (true, rest)
  | '+' :: rest => (false, rest)
  | cs => (false, cs)

def exponentPart : List Char → Option Int × List Char
  | [] => (none, [])
  | c :: rest =>
    if c == 'e' || c == 'E' then
      let (negative, after) := exponentSign rest
      match digits after with
      | ([], _) => (none, c :: rest)
      | (ds, after) =>
        let e : Int := natOf ds
        (some (if negative then -e else e), after)
    else (none, c :: rest)

def maxDigits : Nat := 4300

def number (cs : List Char) : Except Failure (Value × List Char) :=
  let (negative, start) := match cs with
    | '-' :: rest => (true, rest)
    | _ => (false, cs)
  match wholePart start with
  | none => fault .expectingValue cs
  | some (whole, rest) =>
    let (fraction, rest) := fractionPart rest
    let (exponent, rest) := exponentPart rest
    if fraction.isEmpty && exponent.isNone then
      if maxDigits < whole.length then .error .tooLong
      else
        let n : Int := natOf whole
        .ok (.int (if negative then -n else n), rest)
    else
      let decimal : Number.Decimal :=
        ⟨natOf (whole ++ fraction), exponent.getD 0 - fraction.length⟩
      .ok (.real (.ofDecimal negative decimal), rest)

/-! ## Values -/

def afterWord (word : String) (cs : List Char) : Option (List Char) :=
  if word.toList.isPrefixOf cs then some (cs.drop word.length) else none

def words : List (String × Value) :=
  [("null", .null), ("true", .bool true), ("false", .bool false), ("NaN", .real .notANumber),
   ("Infinity", .real (.infinite false)), ("-Infinity", .real (.infinite true))]

def scalar (cs : List Char) : Except Failure (Value × List Char) :=
  match words.findSome? fun (w, v) => (afterWord w cs).map (v, ·) with
  | some found => .ok found
  | none => number cs

mutual
/-- A value; `depth` more levels may be opened, and `fuel` bounds the steps. Each character takes at most
two of them. -/
def value : Nat → Nat → List Char → Except Failure (Value × List Char)
  | 0, _, _ => .error .tooDeep
  | fuel + 1, depth, cs =>
    match cs with
    | '"' :: rest => do
      let (s, rest) ← string fuel rest
      return (.str s, rest)
    | '[' :: rest =>
      match depth with
      | 0 => .error .tooDeep
      | depth + 1 =>
        match skipBlanks rest with
        | ']' :: rest => .ok (.arr [], rest)
        | rest => items fuel depth [] rest
    | '{' :: rest =>
      match depth with
      | 0 => .error .tooDeep
      | depth + 1 =>
        match skipBlanks rest with
        | '}' :: rest => .ok (.obj [], rest)
        | rest => fields fuel depth [] rest
    | _ => scalar cs

/-- The items of an array, the ones read so far latest first. -/
def items : Nat → Nat → List Value → List Char → Except Failure (Value × List Char)
  | 0, _, _, _ => .error .tooDeep
  | fuel + 1, depth, found, cs => do
    let (v, rest) ← value fuel depth cs
    match skipBlanks rest with
    | ']' :: rest => return (.arr (v :: found).reverse, rest)
    | ',' :: rest => items fuel depth (v :: found) (skipBlanks rest)
    | rest => fault .expectingComma rest

def fields : Nat → Nat → List (String × Value) → List Char → Except Failure (Value × List Char)
  | 0, _, _, _ => .error .tooDeep
  | fuel + 1, depth, found, cs =>
    match cs with
    | '"' :: rest => do
      let (key, rest) ← string fuel rest
      match skipBlanks rest with
      | ':' :: rest =>
        let (v, rest) ← value fuel depth (skipBlanks rest)
        let found := Table.put key v found
        match skipBlanks rest with
        | '}' :: rest => return (.obj found, rest)
        | ',' :: rest => fields fuel depth found (skipBlanks rest)
        | rest => fault .expectingComma rest
      | rest => fault .expectingColon rest
    | _ => fault .expectingName cs
end

def byteOrderMark : Char := Char.ofNat 0xFEFF

/-- The value that a text stands for, with no more levels of nesting than given. -/
def decode (nesting : Nat) (text : String) : Except Failure Value :=
  let cs := text.toList
  if cs.head? == some byteOrderMark then fault .byteOrderMark cs
  else do
    let (v, rest) ← value (2 * cs.length + 2) nesting (skipBlanks cs)
    match skipBlanks rest with
    | [] => return v
    | rest => fault .extraData rest

/-! ## Places of faults -/

/-- Line and column of a place, both counted from one; `rest` characters follow it. -/
def place (text : String) (rest : Nat) : Nat × Nat :=
  let before := text.toList.take (text.length - rest)
  (before.count '\n' + 1, (before.reverse.takeWhile (· != '\n')).length + 1)

end WebAudit.Json
