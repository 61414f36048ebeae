/-!
# Blanks

White space as text tools know it: the ASCII blanks, the four information separators, the next-line
control and the space and line separators of Unicode.
-/

namespace WebAudit.Text

def isBlank (c : Char) : Bool :=
  let n := c.toNat
  (9 ≤ n && n ≤ 13) || (28 ≤ n && n ≤ 32) || n == 0x85 || n == 0xA0 || n == 0x1680 ||
  (0x2000 ≤ n && n ≤ 0x200A) || n == 0x2028 || n == 0x2029 || n == 0x202F || n == 0x205F ||
  n == 0x3000

def stripLeft (cs : List Char) : List Char :=
  cs.dropWhile isBlank

def stripRight (cs : List Char) : List Char :=
  (cs.reverse.dropWhile isBlank).reverse

def stripChars (cs : List Char) : List Char :=
  stripRight (stripLeft cs)

def strip (s : String) : String :=
  String.ofList (stripChars s.toList)

def isAllBlank (s : String) : Bool :=
  s.toList.all isBlank

end WebAudit.Text
