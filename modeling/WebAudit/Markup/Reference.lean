import WebAudit.Markup.NamedCharacter

/-!
# Character references

`&name;`, `&#number;` and `&#xnumber;` stand for characters. In attribute values the longest known
name at the start of a word counts, with or without a semicolon; what refers to nothing stays.
-/

namespace WebAudit.Markup

def replacement : Char := Char.ofNat 0xFFFD

def isHex (c : Char) : Bool :=
  c.isDigit || ('a' ≤ c && c ≤ 'f') || ('A' ≤ c && c ≤ 'F')

def digitOf (c : Char) : Nat :=
  if c.isDigit then c.toNat - 48 else if c ≤ 'F' then c.toNat - 55 else c.toNat - 87

def numberOf (base : Nat) (cs : List Char) : Nat :=
  cs.foldl (fun n c => base * n + digitOf c) 0

def named? (name : List Char) : Option (List Char) :=
  (namedCharacters.lookup (String.ofList name)).map (·.map Char.ofNat)

/-- The characters of a name that is written with its semicolon, or that needs none. -/
def spelled? (name : List Char) : Option (List Char) :=
  if name.getLast? == some ';' then named? name.dropLast
  else if bareNames.contains (String.ofList name) then named? name
  else none

/-! ## Numbers -/

/-- What the numbers from 128 to 159 stand for in the code page that old pages use. -/
def oldCodes : List Nat :=
  [0x20AC, 0x81, 0x201A, 0x192, 0x201E, 0x2026, 0x2020, 0x2021, 0x2C6, 0x2030, 0x160, 0x2039, 0x152,
   0x8D, 0x17D, 0x8F, 0x90, 0x2018, 0x2019, 0x201C, 0x201D, 0x2022, 0x2013, 0x2014, 0x2DC, 0x2122,
   0x161, 0x203A, 0x153, 0x9D, 0x17E, 0x178]

def oldCode (n : Nat) : Nat :=
  if 128 ≤ n then (oldCodes[n - 128]?).getD n else n

def isInvalid (n : Nat) : Bool :=
  (1 ≤ n && n ≤ 8) || n == 0xB || (0xE ≤ n && n ≤ 0x1F) || (0x7F ≤ n && n ≤ 0x9F) ||
  (0xFDD0 ≤ n && n ≤ 0xFDEF) || n % 0x10000 == 0xFFFE || n % 0x10000 == 0xFFFF

def isCode (n : Nat) : Bool :=
  n < 0xD800 || (0xDFFF < n && n < 0x110000)

def ofNumber (n : Nat) : List Char :=
  if n = 0 then [replacement]
  else if 128 ≤ n && n ≤ 159 then [Char.ofNat (oldCode n)]
  else if !isCode n then [replacement]
  else if isInvalid n then []
  else [Char.ofNat n]

def ofTextNumber (n : Nat) : Char :=
  if isCode n then Char.ofNat (oldCode n) else replacement

/-! ## Attribute values -/

def isNamePart (c : Char) : Bool :=
  !(c == '\t' || c == '\n' || c == '\x0c' || c == ' ' || c == '<' || c == '&' || c == '#' || c == ';')

/-- The longest known name of at least two characters at the start of a word, `n` characters at
most, with what follows it. -/
def longestName (word : List Char) : Nat → Option (List Char)
  | 0 | 1 => none
  | n + 2 =>
    match spelled? (word.take (n + 2)) with
    | some cs => some (cs ++ word.drop (n + 2))
    | none => longestName word (n + 1)

def ofWord (word : List Char) : List Char :=
  match spelled? word with
  | some cs => cs
  | none => (longestName word (word.length - 1)).getD ('&' :: word)

def semicolon (cs : List Char) : Nat :=
  if cs.head? == some ';' then 1 else 0

/-- The reference after an ampersand: its characters and its length. -/
def referenceAt (cs : List Char) : Option (List Char × Nat) :=
  match cs with
  | '#' :: rest =>
    let hex := rest.head? == some 'x' || rest.head? == some 'X'
    let digits := if hex then (rest.drop 1).takeWhile isHex else rest.takeWhile Char.isDigit
    let length := 1 + (if hex then 1 else 0) + digits.length
    if digits.isEmpty then none
    else some (ofNumber (numberOf (if hex then 16 else 10) digits), length + semicolon (cs.drop length))
  | _ =>
    let name := (cs.take 32).takeWhile isNamePart
    if name.isEmpty then none
    else
      let length := name.length + semicolon (cs.drop name.length)
      some (ofWord (cs.take length), length)

def resolveFrom : Nat → List Char → List Char
  | 0, cs => cs
  | _, [] => []
  | fuel + 1, c :: cs =>
    if c == '&' then
      match referenceAt cs with
      | some (found, n) => found ++ resolveFrom fuel (cs.drop n)
      | none => c :: resolveFrom fuel cs
    else c :: resolveFrom fuel cs

def resolve (cs : List Char) : List Char :=
  resolveFrom cs.length cs

end WebAudit.Markup
