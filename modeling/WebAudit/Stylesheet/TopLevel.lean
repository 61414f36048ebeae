import WebAudit.Text.Blank

/-!
# Lists in values

A value is cut at a separator wherever no parenthesis is open.
-/

namespace WebAudit.Stylesheet

/-- How many parentheses are open after a character; a closing one too many is passed over. -/
def depthAfter (c : Char) (depth : Nat) : Nat :=
  if c == '(' then depth + 1 else if c == ')' then depth - 1 else depth

def consFirst (c : Char) : List (List Char) → List (List Char)
  | p :: ps => (c :: p) :: ps
  | [] => [[c]]

/-- The pieces of a text between separators at depth zero. -/
def piecesAt (sep : Char) : Nat → List Char → List (List Char)
  | _, [] => [[]]
  | depth, c :: cs =>
    let depth := depthAfter c depth
    if c == sep && depth == 0 then [] :: piecesAt sep depth cs
    else consFirst c (piecesAt sep depth cs)

/-- The parts of a value between separators outside parentheses, without blanks around them and
without empty parts. -/
def splitTopLevel (sep : Char) (value : String) : List String :=
  (((piecesAt sep 0 value.toList).map Text.stripChars).filter (!·.isEmpty)).map String.ofList

end WebAudit.Stylesheet
