import WebAudit.Stylesheet.Token

/-!
# The setting of a rule

The namespaces and the variables that a stylesheet declares before its rules.
-/

namespace WebAudit.Stylesheet

inductive Namespace where
  | any
  | unset
  | address (uri : String)
deriving DecidableEq, Repr, Inhabited

structure Setting where
  /-- Addresses by mark, the latest declaration first. -/
  addresses : List (String × String) := []
  /-- The namespace rules that are kept, the latest first. -/
  spaces : List (String × String) := []
  /-- Values by normal name, the latest first. -/
  values : List (String × String) := []
deriving DecidableEq, Repr, Inhabited

namespace Setting

def address? (s : Setting) (mark : String) : Option String :=
  s.addresses.lookup mark

def effective : List (String × String) → List (String × String) → List (String × String)
  | found, [] => found
  | found, (mark, uri) :: rest =>
    if found.any (·.2 == uri) then effective found rest else effective (found ++ [(mark, uri)]) rest

def nameText (s : Setting) (space : Namespace) (name : String) : String :=
  let spaces := effective [] s.spaces
  let default := spaces.lookup ""
  match space with
  | .any => "*|" ++ name
  | .unset => if (default.getD "").isEmpty then name else "|" ++ name
  | .address uri =>
    if default == some uri then name
    else ((spaces.find? (·.2 == uri)).map (·.1)).getD "" ++ "|" ++ name

/-- Declares a namespace; a mark that is known gets the new address. -/
def declareSpace (s : Setting) (mark uri : String) (kept : Bool) : Setting :=
  let spaces :=
    if (s.address? mark).isSome then
      s.spaces.map fun (m, u) => if m == mark then (m, uri) else (m, u)
    else if kept then (mark, uri) :: s.spaces
    else s.spaces
  { s with addresses := (mark, uri) :: s.addresses, spaces }

def value? (s : Setting) (name : String) : Option String :=
  match s.values.lookup (normalWord name) with
  | some value => if value.isEmpty then none else some value
  | none => none

end Setting

end WebAudit.Stylesheet
