import WebAudit.Number.Double
import WebAudit.Stylesheet.Token
import WebAudit.Text.Blank

/-!
# Terms

The normal spelling of a term that is one token: numbers without idle zeros, strings in double
quotation marks, addresses in quotation marks only where they need them, short colours.
-/

namespace WebAudit.Stylesheet

/-! ## Strings and addresses -/

def plainMarks (mark : Char) : List Char → List Char
  | '\\' :: c :: cs => if c == mark then c :: plainMarks mark cs else '\\' :: plainMarks mark (c :: cs)
  | c :: cs => c :: plainMarks mark cs
  | [] => []

/-- The inside of a string or of an address in quotation marks. -/
def unquote (cs : List Char) : List Char :=
  match cs with
  | mark :: _ => ((plainMarks mark cs).drop 1).dropLast
  | [] => []

def escapeInString (c : Char) : List Char :=
  if c == '\n' then ['\\', 'a', ' ']
  else if c == '\r' then ['\\', 'd', ' ']
  else if c == '\x0c' then ['\\', 'c', ' ']
  else if c == '"' then ['\\', '"']
  else [c]

def quoted (cs : List Char) : String :=
  let body := cs.flatMap escapeInString
  let closed := if body.getLast? == some '\\' then body ++ ['\\'] else body
  String.ofList ('"' :: closed ++ ['"'])

def addressOf (cs : List Char) : List Char :=
  let inner := Text.stripChars ((cs.dropWhile (· != '(')).drop 1).dropLast
  match inner.head? with
  | some mark =>
    if (mark == '"' || mark == '\'') && inner.getLast? == some mark then unquote inner else inner
  | none => []

/-- Characters that an address cannot hold without quotation marks. -/
def needsQuotes (c : Char) : Bool :=
  c == '(' || c == ')' || c == ';' || c == ',' || c == '\'' || c == '"' || Text.isBlank c

def uriText (cs : List Char) : String :=
  let address := addressOf cs
  if address.any needsQuotes then "url(" ++ quoted address ++ ")"
  else "url(" ++ String.ofList address ++ ")"

/-! ## Colours -/

/-- A colour whose digits come in equal pairs is written with one digit of each. -/
def shortColor (cs : List Char) : List Char :=
  match cs with
  | ['#', a, b, c, d, e, f] => if a == b && c == d && e == f then ['#', a, c, e] else cs
  | _ => cs

def isColor (cs : List Char) : Bool :=
  match cs with
  | '#' :: digits => (digits.length == 3 || digits.length == 6) && digits.all isHexDigit
  | _ => false

/-! ## Numbers -/

/-- Lengths that mean the same in every unit when they are zero. -/
def zeroUnits : List String := ["cm", "mm", "in", "px", "pc", "pt", "em", "ex"]

def dropTrailing (c : Char) (cs : List Char) : List Char :=
  (cs.reverse.dropWhile (· == c)).reverse

/-- A number that is not whole, rounded to six places, without trailing zeros except the first. -/
def placesText (m : Number.Magnitude) : String :=
  let cs := dropTrailing '0' (m.fixed 6).toList
  String.ofList (if cs.getLast? == some '.' then cs ++ ['0'] else cs)

def decimalText (whole fraction : List Char) : String :=
  let digits := (whole ++ fraction).foldl (fun n c => 10 * n + (c.toNat - 48)) 0
  if fraction.isEmpty then toString digits
  else
    let m := Number.Decimal.magnitude ⟨digits, -(fraction.length : Int)⟩
    let (num, den) := m.quotient
    if num % den = 0 then toString (num / den) else placesText m

def dimensionText (text : String) : String :=
  let cs := (normalWord text).toList
  let sign := cs.takeWhile fun c => c == '+' || c == '-'
  let body := cs.drop sign.length
  let whole := body.takeWhile Char.isDigit
  let afterWhole := body.drop whole.length
  let fraction := match afterWhole with
    | '.' :: rest => rest.takeWhile Char.isDigit
    | _ => []
  let unit := String.ofList (afterWhole.drop (if fraction.isEmpty then 0 else fraction.length + 1))
  let number := decimalText whole fraction
  if number == "0" then "0" ++ (if zeroUnits.contains unit then "" else unit)
  else String.ofList sign ++ number ++ unit

/-! ## Spelling -/

def spelled (t : Token) : String :=
  let cs := t.text.toList
  match t.kind with
  | .hash => String.ofList (shortColor cs)
  | .number | .percentage | .dimension => dimensionText t.text
  | .uri => uriText cs
  | .string => quoted (unquote cs)
  | .unicodeRange => Text.lower t.text
  | _ => t.text

end WebAudit.Stylesheet
