import WebAudit.Stylesheet.Value

/-!
# Media queries

A list of media queries, written back with one blank between words. A plain medium is listed once,
and the medium `all` stands for the whole list.
-/

namespace WebAudit.Stylesheet

def Item.medium? (i : Item) : Option String :=
  match i.kind with
  | .query medium => medium
  | _ => none

def Item.isQuery (i : Item) : Bool :=
  match i.kind with
  | .query _ => true
  | _ => false

/-- The items that remain when repeated media are left out, up to the first `all`, which leaves only
comments beside it. -/
def distinctMedia : List Item → List String → List Item → List Item
  | done, _, [] => done.reverse
  | done, seen, i :: rest =>
    match i.medium? with
    | none => distinctMedia (i :: done) seen rest
    | some medium =>
      if medium == "all" then (i :: done.filter (·.isComment)).reverse
      else if seen.contains medium then distinctMedia done seen rest
      else distinctMedia (i :: done) (medium :: seen) rest

/-- Puts commas in front of all queries but the first. -/
def withCommas : Bool → List Item → List Item
  | _, [] => []
  | first, i :: rest =>
    if i.isQuery then
      if first then i :: withCommas false rest else ⟨.mark, ",", true⟩ :: i :: withCommas false rest
    else i :: withCommas first rest

def readMedia (ts : List Token) : Noted (Option String) := do
  let r ← readWhole {} .queries ts
  let queries := r.items.filter (·.isQuery)
  if !queries.head?.any (·.wellFormed) then note "MediaQuery: No content."
  if r.wellFormed && !queries.isEmpty && queries.all (·.wellFormed) then
    pure (some (Construct.queries.layout.write (withCommas true (distinctMedia [] [] r.items))))
  else pure none

end WebAudit.Stylesheet
