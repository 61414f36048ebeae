import WebAudit.Number.Rounding
import WebAudit.Stylesheet.Token
import WebAudit.Text.Blank

/-!
# Perceived brightness

The brightness of a colour `#rgb` or `#rrggbb` in thousandths, from 0 to 255000: the three channels
weighted by 299, 587 and 114.
-/

namespace WebAudit.Stylesheet

def weighted (red green blue : Nat) : Nat :=
  red * 299 + green * 587 + blue * 114

def channel (high low : Char) : Nat :=
  16 * hexValue high + hexValue low

def brightness? (text : String) : Option Nat :=
  match Text.stripChars text.toList with
  | ['#', r, g, b] =>
    if [r, g, b].all isHexDigit then some (weighted (channel r r) (channel g g) (channel b b)) else none
  | ['#', r, r', g, g', b, b'] =>
    if [r, r', g, g', b, b'].all isHexDigit then
      some (weighted (channel r r') (channel g g') (channel b b'))
    else none
  | _ => none

/-- Thousandths as a decimal with at least one place and no idle zeros. -/
def thousandthsText (n : Nat) : String :=
  let places :=
    if n % 1000 % 100 = 0 then 1 else if n % 1000 % 10 = 0 then 2 else 3
  Number.withPoint places (n / Nat.pow 10 (3 - places))

end WebAudit.Stylesheet
