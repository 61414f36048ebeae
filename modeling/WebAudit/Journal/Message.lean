import WebAudit.Journal.Wording
import WebAudit.Number.Notation

/-!
# Messages with arguments

A message can have places for arguments. A place starts with a percent sign and ends with a letter
that says how its argument is written; flags, a least width and a precision can stand between.
-/

namespace WebAudit.Message

open Json

/-- Why the arguments do not fit a message. -/
inductive Fault where
  | tooFew
  | tooMany
  | namedPlace
  | widthNotInt
  /-- A width or a precision is too large for a number of that many bits. -/
  | tooLarge (word : String)
  | notNumber (letter : Char) (form : String)
  | notInt (letter : Char) (form : String)
  | notReal (form : String)
  | notChar
  | charRange
  | unknownLetter (letter : Char) (index : Nat)
  | incomplete
  | infinite
  | undefined
deriving DecidableEq, Repr, Inhabited

def Fault.message : Fault → String
  | tooFew => "not enough arguments for format string"
  | tooMany => "not all arguments converted during string formatting"
  | namedPlace => "format requires a mapping"
  | widthNotInt => "* wants int"
  | tooLarge word => "Python int too large to convert to C " ++ word
  | notNumber letter form =>
    "%" ++ String.singleton letter ++ " format: a real number is required, not " ++ form
  | notInt letter form =>
    "%" ++ String.singleton letter ++ " format: an integer is required, not " ++ form
  | notReal form => "must be real number, not " ++ form
  | notChar => "%c requires int or char"
  | charRange => "%c arg not in range(0x110000)"
  | unknownLetter letter index =>
    let shown := if 31 ≤ letter.toNat && letter.toNat ≤ 126 then letter else '?'
    "unsupported format character '" ++ String.singleton shown ++ "' (0x" ++
      String.ofList (Nat.toDigits 16 letter.toNat) ++ ") at index " ++ toString index
  | incomplete => "incomplete format"
  | infinite => "cannot convert float infinity to integer"
  | undefined => "cannot convert float NaN to integer"

structure Place where
  /-- Any of the flags `-`, `+`, blank, `#` and `0`. -/
  flags : List Char := []
  width : Nat := 0
  precision : Option Nat := none
deriving DecidableEq, Repr, Inhabited

namespace Place

def has (p : Place) (flag : Char) : Bool :=
  p.flags.contains flag

def pad (p : Place) (text : List Char) : List Char :=
  let fill := List.replicate (p.width - text.length) ' '
  if p.has '-' then text ++ fill else fill ++ text

/-- Fills a number up to the width; zeros go between its front and its digits. -/
def padNumber (p : Place) (negative : Bool) (mark digits : List Char) : List Char :=
  let sign :=
    if negative then ['-'] else if p.has '+' then ['+'] else if p.has ' ' then [' '] else []
  let front := sign ++ mark
  if p.has '0' && !p.has '-' then
    front ++ List.replicate (p.width - front.length - digits.length) '0' ++ digits
  else p.pad (front ++ digits)

def text (p : Place) (cs : List Char) : List Char :=
  p.pad (match p.precision with
    | some n => cs.take n
    | none => cs)

/-- A whole number in some base, with at least as many digits as the precision says. -/
def whole (p : Place) (base : Nat) (mark : List Char) (upper : Bool) (n : Int) : List Char :=
  let digits := Nat.toDigits base n.natAbs
  let digits := List.replicate (p.precision.getD 0 - digits.length) '0' ++ digits
  let digits := if upper then digits.map Char.toUpper else digits
  p.padNumber (n < 0) (if p.has '#' then mark else []) digits

/-- A double in one of the notations that the letters `e`, `f` and `g` stand for. -/
def double (p : Place) (letter : Char) (x : Number.Double) : List Char :=
  let places := p.precision.getD 6
  let upper := letter.isUpper
  let named (name : List Char) : List Char := if upper then name.map Char.toUpper else name
  match x with
  | .finite negative m =>
    let mark := if upper then 'E' else 'e'
    let digits :=
      match letter.toLower with
      | 'e' => m.scientific places (p.has '#') mark
      | 'f' => m.positional places (p.has '#')
      | _ => m.general places (p.has '#') mark
    p.padNumber negative [] digits
  | .infinite negative => p.padNumber negative [] (named ['i', 'n', 'f'])
  | .notANumber => p.padNumber false [] (named ['n', 'a', 'n'])

end Place

def wholePart : Number.Double → Except Fault Int
  | .finite negative m =>
    let n : Int := (m.quotient.1 / m.quotient.2 : Nat)
    .ok (if negative then -n else n)
  | .infinite _ => .error .infinite
  | .notANumber => .error .undefined

/-- An argument as a whole number; what is broken off a double is dropped. -/
def wholeOf (letter : Char) : Value → Except Fault Int
  | .int n => .ok n
  | .bool b => .ok (if b then 1 else 0)
  | .real x => wholePart x
  | v => .error (.notNumber letter v.form)

def intOf (letter : Char) : Value → Except Fault Int
  | .int n => .ok n
  | .bool b => .ok (if b then 1 else 0)
  | v => .error (.notInt letter v.form)

def doubleOf : Value → Except Fault Number.Double
  | .real x => .ok x
  | .int n => .ok (.ofDecimal (n < 0) ⟨n.natAbs, 0⟩)
  | .bool b => .ok (.ofNat (if b then 1 else 0))
  | v => .error (.notReal v.form)

def charOf : Value → Except Fault Char
  | .int n => if 0 ≤ n && n < 0x110000 then .ok (Char.ofNat n.toNat) else .error .charRange
  | .bool b => .ok (Char.ofNat (if b then 1 else 0))
  | .str s =>
    match s.toList with
    | [c] => .ok c
    | _ => .error .notChar
  | _ => .error .notChar

/-- Text in quotation marks with escapes for all that is not ASCII. -/
def asciiOnly (cs : List Char) : List Char :=
  cs.flatMap fun c =>
    let n := c.toNat
    if n < 0x80 then [c]
    else if n < 0x100 then '\\' :: 'x' :: Text.hexDigits 2 n
    else if n < 0x10000 then '\\' :: 'u' :: Text.hexDigits 4 n
    else '\\' :: 'U' :: Text.hexDigits 8 n

def Place.fill (p : Place) (letter : Char) (index : Nat) (v : Value) :
    Except Fault (List Char) :=
  match letter with
  | 's' => .ok (p.text v.wording)
  | 'r' => .ok (p.text v.literal)
  | 'a' => .ok (p.text (asciiOnly v.literal))
  | 'd' | 'i' | 'u' => (wholeOf letter v).map (p.whole 10 [] false)
  | 'o' => (intOf letter v).map (p.whole 8 ['0', 'o'] false)
  | 'x' => (intOf letter v).map (p.whole 16 ['0', 'x'] false)
  | 'X' => (intOf letter v).map (p.whole 16 ['0', 'X'] true)
  | 'e' | 'E' | 'f' | 'F' | 'g' | 'G' => (doubleOf v).map (p.double letter)
  | 'c' => (charOf v).map fun c => p.pad [c]
  | _ => .error (.unknownLetter letter index)

/-- How large a number is kept: in so many bits and with a sign. -/
structure Word where
  name : String
  bits : Nat

def widthWord : Word := ⟨"ssize_t", 64⟩

def precisionWord : Word := ⟨"int", 32⟩

def Word.bound (w : Word) : Int :=
  Nat.pow 2 (w.bits - 1)

def Word.fits (w : Word) (n : Int) : Bool :=
  -w.bound ≤ n && n < w.bound

/-- A number in front of a text, or an argument in its place; a truth value counts as 0 or 1. -/
def count (word : Word) (cs : List Char) (args : List Value) :
    Except Fault (Option Int × List Char × List Value) :=
  match cs, args with
  | '*' :: rest, .int n :: args =>
    if word.fits n then .ok (some n, rest, args) else .error (.tooLarge word.name)
  | '*' :: rest, .bool b :: args => .ok (some (if b then 1 else 0), rest, args)
  | '*' :: _, [] => .error .tooFew
  | '*' :: _, _ => .error .widthNotInt
  | _, _ =>
    let digits := cs.takeWhile Char.isDigit
    let n : Nat := digits.foldl (fun n c => n * 10 + (c.toNat - 48)) 0
    .ok (if digits.isEmpty then none else some (n : Int), cs.drop digits.length, args)

/-- The place behind a percent sign, and the text from its letter on. -/
def place (cs : List Char) (args : List Value) : Except Fault (Place × List Char × List Value) := do
  if cs.head? == some '(' then throw .namedPlace
  let flags := cs.takeWhile fun c => "-+ #0".toList.contains c
  let (width, cs, args) ← count widthWord (cs.drop flags.length) args
  let flags := if width.any (· < 0) then '-' :: flags else flags
  let width := (width.getD 0).natAbs
  let (precision, cs, args) ← match cs with
    | '.' :: cs => do
      let (n, cs, args) ← count precisionWord cs args
      pure (some (n.getD 0).toNat, cs, args)
    | cs => pure (none, cs, args)
  let cs := match cs with
    | 'h' :: cs | 'l' :: cs | 'L' :: cs => cs
    | cs => cs
  return (⟨flags, width, precision⟩, cs, args)

/-- Fills the places of the rest of a message; the text has `length` characters in all. -/
def fillFrom (length : Nat) : Nat → List Char → List Char → List Value →
    Except Fault (List Char)
  | 0, _, out, _ => .ok out.reverse
  | _ + 1, [], out, args => if args.isEmpty then .ok out.reverse else .error .tooMany
  | fuel + 1, '%' :: '%' :: cs, out, args => fillFrom length fuel cs ('%' :: out) args
  | fuel + 1, '%' :: cs, out, args => do
    let (p, cs, args) ← place cs args
    match cs, args with
    | [], _ => throw .incomplete
    | _ :: _, [] => throw .tooFew
    | letter :: cs, v :: args =>
      let text ← p.fill letter (length - cs.length - 1) v
      fillFrom length fuel cs (text.reverse ++ out) args
  | fuel + 1, c :: cs, out, args => fillFrom length fuel cs (c :: out) args

/-- A message with its arguments filled in; without arguments it stands as it is. -/
def fill (message : String) (args : List Value) : Except Fault String :=
  if args.isEmpty then .ok message
  else
    let cs := message.toList
    (fillFrom cs.length (cs.length + 1) cs [] args).map String.ofList

end WebAudit.Message
