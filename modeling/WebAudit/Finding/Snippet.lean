import WebAudit.Text.Slice

/-!
# Snippets

A snippet shows the reported line between the lines around it, each with its number, and marks it.
-/

namespace WebAudit.Snippet

def maxLength : Int := 500

def contextLines : Int := 2

/-- How many characters of a file are shown for a finding about the file as a whole. -/
def startLength : Nat := 100

/-- The place in `lines` that a line number stands for; numbers out of range are brought into it. -/
def clamp (line : Int) (length : Nat) : Nat :=
  min (line - 1).toNat (length - 1)

def marker (marked : Bool) : String :=
  if marked then ">>>" else "   "

def row (line : String) (index marked : Nat) (offset : Int) : String :=
  marker (index == marked) ++ " " ++ toString ((index : Int) + 1 + offset) ++ ": " ++ line

/-- The numbered lines around `line`, before they are cut to the greatest length. -/
def rows (lines : List String) (line offset context : Int) : List String :=
  let marked := clamp line lines.length
  let start := ((marked : Int) - context).toNat
  let stop := min lines.length ((marked : Int) + context + 1).toNat
  ((lines.zipIdx.take stop).drop start).map fun (text, i) => row text i marked offset

def around (lines : List String) (line : Int) (offset : Int := 0)
    (context : Int := contextLines) : String :=
  if lines.isEmpty then ""
  else Text.truncate maxLength ("\n".intercalate (rows lines line offset context))

def startOf (content : String) : String :=
  Text.truncate maxLength (String.ofList (content.toList.take startLength))

end WebAudit.Snippet
