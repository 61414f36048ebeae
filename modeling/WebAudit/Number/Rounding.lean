/-!
# Rounding

Quotients of natural numbers rounded to the nearest whole number, halves to the even neighbour, and
the decimals with a fixed number of places that this gives.
-/

namespace WebAudit.Number

/-- The whole number nearest to `num / den`; of two that are equally near, the even one. -/
def roundDiv (num den : Nat) : Nat :=
  let q := num / den
  let r := num % den
  if 2 * r < den then q
  else if den < 2 * r then q + 1
  else if q % 2 = 0 then q else q + 1

/-- The decimal digits of a number, at least `width` of them. -/
def digitsPadded (width n : Nat) : List Char :=
  let ds := Nat.toDigits 10 n
  List.replicate (width - ds.length) '0' ++ ds

def withPoint (places n : Nat) : String :=
  let ds := digitsPadded (places + 1) n
  let whole := ds.take (ds.length - places)
  if places = 0 then String.ofList whole
  else String.ofList (whole ++ '.' :: ds.drop (ds.length - places))

def fixed (places num den : Nat) : String :=
  withPoint places (roundDiv (num * Nat.pow 10 places) den)

end WebAudit.Number
