/-!
# Lines

Two notions of a line. `lines` cuts at every character that any convention takes for a line break
and drops the empty line after a last break; `cutAt` cuts at one character only and keeps it.
-/

namespace WebAudit.Text

def isLineBreak (c : Char) : Bool :=
  let n := c.toNat
  (10 ≤ n && n ≤ 13) || (28 ≤ n && n ≤ 30) || n == 0x85 || n == 0x2028 || n == 0x2029

/-- Lines of the rest of a text, given the current line so far, latest character first. -/
def linesFrom : List Char → List Char → List (List Char)
  | [], [] => []
  | line, [] => [line.reverse]
  | line, '\r' :: '\n' :: cs => line.reverse :: linesFrom [] cs
  | line, c :: cs =>
    if isLineBreak c then line.reverse :: linesFrom [] cs else linesFrom (c :: line) cs

def lines (s : String) : List String :=
  (linesFrom [] s.toList).map String.ofList

/-- The pieces of a text between the occurrences of a character. -/
def cutAtFrom (sep : Char) : List Char → List Char → List (List Char)
  | piece, [] => [piece.reverse]
  | piece, c :: cs =>
    if c == sep then piece.reverse :: cutAtFrom sep [] cs else cutAtFrom sep (c :: piece) cs

def cutAt (sep : Char) (s : String) : List String :=
  (cutAtFrom sep [] s.toList).map String.ofList

def newlines (cs : List Char) : Nat :=
  cs.count '\n'

end WebAudit.Text
