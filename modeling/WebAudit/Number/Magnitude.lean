import WebAudit.Number.Rounding

/-!
# Binary magnitudes

A magnitude is `mantissa * 2 ^ exponent` with a mantissa of at most 53 bits and an exponent of at
least -1074. A quotient is brought to the nearest one.
-/

namespace WebAudit.Number

structure Magnitude where
  mantissa : Nat
  exponent : Int
deriving DecidableEq, Repr, Inhabited

namespace Magnitude

def precision : Nat := 53

def maxPlaces : Int := 1074

/-- `num * 2 ^ shift / den` rounded, for a shift of either sign. -/
def scaledDiv (num den : Nat) (shift : Int) : Nat :=
  if 0 ≤ shift then roundDiv (num * Nat.pow 2 shift.toNat) den
  else roundDiv num (den * Nat.pow 2 (-shift).toNat)

/-- Whether `num * 2 ^ shift / den` has more bits than fit, before rounding. -/
def tooWide (num den : Nat) (shift : Int) : Bool :=
  if 0 ≤ shift then Nat.pow 2 precision * den ≤ num * Nat.pow 2 shift.toNat
  else Nat.pow 2 precision * (den * Nat.pow 2 (-shift).toNat) ≤ num

def ofQuotient (num den : Nat) : Magnitude :=
  if num = 0 then ⟨0, 0⟩
  else
    let guess : Int := (precision : Int) - (Nat.log2 num : Int) + (Nat.log2 den : Int)
    let shift := min maxPlaces (if tooWide num den guess then guess - 1 else guess)
    ⟨scaledDiv num den shift, -shift⟩

def quotient (m : Magnitude) : Nat × Nat :=
  if 0 ≤ m.exponent then (m.mantissa * Nat.pow 2 m.exponent.toNat, 1)
  else (m.mantissa, Nat.pow 2 (-m.exponent).toNat)

def same (a b : Magnitude) : Bool :=
  a.quotient.1 * b.quotient.2 == b.quotient.1 * a.quotient.2

def overflows (m : Magnitude) : Bool :=
  Nat.pow 2 1024 * m.quotient.2 ≤ m.quotient.1

def fixed (places : Nat) (m : Magnitude) : String :=
  Number.fixed places m.quotient.1 m.quotient.2

end Magnitude

end WebAudit.Number
