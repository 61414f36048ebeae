import WebAudit.Number.Double

/-!
# Notations with a given number of digits

Scientific notation has one digit in front of the point; general notation chooses between positional
and scientific by the place of the leading digit. Halves go to the even neighbour.
-/

namespace WebAudit.Number

/-- The digits and the leading place of a magnitude rounded to `count` digits. -/
def Magnitude.rounded (count : Nat) (m : Magnitude) : Nat × Int :=
  if m.mantissa = 0 then (0, 0)
  else
    let e := Double.leadingPlace m 3 (Double.leadingGuess m)
    let (num, den) := m.quotient
    let shift := (count : Int) - 1 - e
    let digits :=
      if 0 ≤ shift then roundDiv (num * Nat.pow 10 shift.toNat) den
      else roundDiv num (den * Nat.pow 10 (-shift).toNat)
    if digits = Nat.pow 10 count then (Nat.pow 10 (count - 1), e + 1) else (digits, e)

def exponentText (mark : Char) (e : Int) : List Char :=
  mark :: (if e < 0 then '-' else '+') :: digitsPadded 2 e.natAbs

/-- Digits without zeros at the end, and without a point in front of nothing. -/
def trimFraction (cs : List Char) : List Char :=
  if cs.contains '.' then
    let kept := (cs.reverse.dropWhile (· == '0')).reverse
    if kept.getLast? == some '.' then kept.dropLast else kept
  else cs

def ensurePoint (cs : List Char) : List Char :=
  if cs.contains '.' then cs else cs ++ ['.']

/-- Positional notation with a number of decimal places; `point` keeps the point without any. -/
def Magnitude.positional (places : Nat) (point : Bool) (m : Magnitude) : List Char :=
  let text := (m.fixed places).toList
  if point then ensurePoint text else text

def Magnitude.scientific (places : Nat) (point : Bool) (mark : Char) (m : Magnitude) : List Char :=
  let (digits, e) := m.rounded (places + 1)
  let text := (withPoint places digits).toList
  (if point then ensurePoint text else text) ++ exponentText mark e

/-- General notation with a number of digits; `point` keeps the zeros at the end. -/
def Magnitude.general (precision : Nat) (point : Bool) (mark : Char) (m : Magnitude) : List Char :=
  let count := max precision 1
  let (digits, e) := m.rounded count
  if -4 ≤ e && e < count then
    let text := m.positional ((count : Int) - 1 - e).toNat point
    if point then text else trimFraction text
  else
    let text := (withPoint (count - 1) digits).toList
    (if point then ensurePoint text else trimFraction text) ++ exponentText mark e

end WebAudit.Number
