import WebAudit.Text.Blank

/-!
# The spelling of selectors

Two spellings of a selector that differ in blanks only have one normal spelling.
-/

namespace WebAudit.Stylesheet

/-- The characters next to which blanks mean nothing. -/
def isJoint (c : Char) : Bool :=
  c == '>' || c == '+' || c == '~' || c == ','

/-- Writes a text in place of every match, from the left to the right; the given number of characters belongs to a
match that was replaced already. -/
def replaceMatches (matchAt : List Char → Option (List Char × Nat)) : Nat → List Char → List Char
  | _, [] => []
  | covered + 1, _ :: cs => replaceMatches matchAt covered cs
  | 0, c :: cs =>
    match matchAt (c :: cs) with
    | some (text, length) => text ++ replaceMatches matchAt (length - 1) cs
    | none => c :: replaceMatches matchAt 0 cs

/-- A joint with the blanks on both sides of it; the joint alone is to take its place. -/
def jointAt (cs : List Char) : Option (List Char × Nat) :=
  let blanks := (cs.takeWhile Text.isBlank).length
  match cs.drop blanks with
  | j :: rest =>
    if isJoint j then some ([j], blanks + 1 + (rest.takeWhile Text.isBlank).length) else none
  | [] => none

/-- A run of blanks; one space is to take its place. -/
def blanksAt (cs : List Char) : Option (List Char × Nat) :=
  let blanks := (cs.takeWhile Text.isBlank).length
  if blanks = 0 then none else some ([' '], blanks)

def tightenJoints (cs : List Char) : List Char :=
  replaceMatches jointAt 0 cs

def squeezeBlanks (cs : List Char) : List Char :=
  replaceMatches blanksAt 0 cs

/-- The normal spelling of a selector: single blanks, none at the ends and none beside a joint. -/
def normalizeSelector (s : String) : String :=
  String.ofList (squeezeBlanks (tightenJoints (Text.stripChars s.toList)))

/-- A selector without what stands in brackets; a bracket that is never closed stays. -/
def dropAttributes : List Char → List Char
  | [] => []
  | c :: cs =>
    if c == '[' then
      match _h : cs.dropWhile (· != ']') with
      | _ :: rest => dropAttributes rest
      | [] => c :: cs
    else c :: dropAttributes cs
termination_by cs => cs.length
decreasing_by
  · have := (List.dropWhile_sublist (l := cs) (p := (· != ']'))).length_le
    simp [_h] at this
    simp; omega
  · simp

def withoutAttributes (s : String) : String :=
  String.ofList (dropAttributes s.toList)

end WebAudit.Stylesheet
