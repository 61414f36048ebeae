/-!
# Comments

Comments are blanked out, not cut out, so that every offset and every line stays where it is.
-/

namespace WebAudit.Stylesheet

def closedAt : List Char → Option Nat
  | '*' :: '/' :: _ => some 2
  | _ :: cs => (closedAt cs).map (· + 1)
  | [] => none

/-- Line ends stay, all else becomes a blank. -/
def blankOut (c : Char) : Char :=
  if c == '\n' then '\n' else ' '

def blankComments : List Char → List Char
  | '/' :: '*' :: cs =>
    match closedAt cs with
    | some n => ' ' :: ' ' :: (cs.take n).map blankOut ++ blankComments (cs.drop n)
    | none => '/' :: '*' :: cs
  | c :: cs => c :: blankComments cs
  | [] => []
termination_by cs => cs.length
decreasing_by all_goals simp; try omega

end WebAudit.Stylesheet
