import WebAudit.Number.Magnitude

/-!
# Double precision numbers

Reading decimals into doubles, and writing a double with the fewest digits that read back as it. Of
two such texts of equal length the nearer to the double is taken.
-/

namespace WebAudit.Number

inductive Double where
  | finite (negative : Bool) (magnitude : Magnitude)
  | infinite (negative : Bool)
  | notANumber
deriving DecidableEq, Repr, Inhabited

/-- `digits * 10 ^ exponent`. -/
structure Decimal where
  digits : Nat
  exponent : Int
deriving DecidableEq, Repr, Inhabited

namespace Decimal

def quotient (d : Decimal) : Nat × Nat :=
  if 0 ≤ d.exponent then (d.digits * Nat.pow 10 d.exponent.toNat, 1)
  else (d.digits, Nat.pow 10 (-d.exponent).toNat)

def magnitude (d : Decimal) : Magnitude :=
  .ofQuotient d.quotient.1 d.quotient.2

/-- The place of the leading digit: zero for a number from one up to ten. -/
def leading (d : Decimal) : Int :=
  d.exponent + (Nat.toDigits 10 d.digits).length - 1

end Decimal

namespace Double

def ofNat (n : Nat) : Double :=
  .finite false (.ofQuotient n 1)

/-- The number that a double is; what is not finite is none. -/
def toRat? : Double → Option Rat
  | .finite negative m =>
    let (num, den) := m.quotient
    some (mkRat (if negative then -(num : Int) else num) den)
  | _ => none

def ofDecimal (negative : Bool) (d : Decimal) : Double :=
  if d.digits = 0 || d.leading < -400 then .finite negative ⟨0, 0⟩
  else if 400 < d.leading then .infinite negative
  else
    let m := d.magnitude
    if m.overflows then .infinite negative else .finite negative m

/-- The greatest decimal with `count` digits from the leading place `e` on that is not above `m`. -/
def floorDecimal (m : Magnitude) (count : Nat) (e : Int) : Decimal :=
  let last := e - count + 1
  let (num, den) := m.quotient
  let digits :=
    if 0 ≤ last then num / (den * Nat.pow 10 last.toNat)
    else num * Nat.pow 10 (-last).toNat / den
  ⟨digits, last⟩

/-- The place of the leading digit of a magnitude; `n` places are tried from `guess` downwards. -/
def leadingPlace (m : Magnitude) : Nat → Int → Int
  | 0, guess => guess
  | n + 1, guess =>
    if (floorDecimal m 1 guess).digits = 0 then leadingPlace m n (guess - 1) else guess

/-- A guess at the leading place that is at most one too high. -/
def leadingGuess (m : Magnitude) : Int :=
  let bits := (Nat.log2 m.mantissa : Int) + m.exponent + 1
  Int.fdiv (bits * 30103) 100000 + 1

def nearer (m : Magnitude) (d d' : Decimal) : Bool :=
  let (num, den) := m.quotient
  let distance (d : Decimal) : Nat × Nat :=
    let (a, b) := d.quotient
    ((max (a * den) (num * b)) - (min (a * den) (num * b)), b * den)
  (distance d).1 * (distance d').2 ≤ (distance d').1 * (distance d).2

def readsBack (m : Magnitude) (e : Int) (count : Nat) : Option Decimal :=
  let low := floorDecimal m count e
  let high : Decimal := ⟨low.digits + 1, low.exponent⟩
  let ordered := if nearer m low high then [low, high] else [high, low]
  ordered.find? (·.magnitude.same m)

def shortest (m : Magnitude) : Decimal :=
  let e := leadingPlace m 3 (leadingGuess m)
  (((List.range 17).map (· + 1)).findSome? (readsBack m e)).getD (floorDecimal m 17 e)

/-- Digits with a point after the first `whole` of them, padded with zeros where none are. -/
def positional (digits : List Char) (whole : Int) : List Char :=
  if whole ≤ 0 then '0' :: '.' :: List.replicate (-whole).toNat '0' ++ digits
  else
    let n := whole.toNat
    let front := digits.take n ++ List.replicate (n - digits.length) '0'
    let back := digits.drop n
    front ++ '.' :: (if back.isEmpty then ['0'] else back)

def scientific (digits : List Char) (e : Int) : List Char :=
  let fraction := match digits.drop 1 with
    | [] => []
    | ds => '.' :: ds
  let sign := if e < 0 then '-' else '+'
  digits.take 1 ++ fraction ++ 'e' :: sign :: digitsPadded 2 e.natAbs

def significant (d : Decimal) : List Char :=
  ((Nat.toDigits 10 d.digits).reverse.dropWhile (· == '0')).reverse

/-- Positional for leading places from -4 to 15, scientific beyond. -/
def magnitudeText (m : Magnitude) : List Char :=
  if m.mantissa = 0 then ['0', '.', '0']
  else
    let d := shortest m
    let e := d.leading
    if -4 ≤ e && e < 16 then positional (significant d) (e + 1) else scientific (significant d) e

/-- The text of a double; what is not finite has the given names. -/
def text (infinity nan : String) : Double → String
  | .finite negative m => String.ofList ((if negative then ['-'] else []) ++ magnitudeText m)
  | .infinite negative => (if negative then "-" else "") ++ infinity
  | .notANumber => nan

end Double

end WebAudit.Number
