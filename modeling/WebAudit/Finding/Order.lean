import WebAudit.Finding.Basic

/-!
# The order of findings

The findings of a run are put in order of path, line, column, rule and description. Findings that
carry an id a second time get a new one, salted with the column and the rank among the carriers.
-/

namespace WebAudit

namespace Finding

/-- A column to sort by; a finding without one comes first. -/
def columnKey (f : Finding) : Int :=
  f.column.getD (-1)

def le (f g : Finding) : Bool :=
  if f.path ≠ g.path then f.path < g.path
  else if f.line ≠ g.line then f.line < g.line
  else if f.columnKey ≠ g.columnKey then f.columnKey < g.columnKey
  else if f.ruleId ≠ g.ruleId then f.ruleId < g.ruleId
  else f.description ≤ g.description

/-- The salt of the finding with the given rank among those that carry its id. -/
def salt (f : Finding) (rank : Nat) : String :=
  ((f.column.map toString).getD "") ++ ":" ++ toString rank

def withRank (f : Finding) (rank : Nat) : Finding :=
  if rank ≤ 1 then f else { f with id := makeId f.path f.ruleId f.line (f.salt rank) }

end Finding

/-- Gives later carriers of an id a new one; `seen` are the ids before. -/
def separateFrom (seen : List String) : List Finding → List Finding
  | [] => []
  | f :: fs => f.withRank (seen.count f.id + 1) :: separateFrom (f.id :: seen) fs

def finalize (findings : List Finding) : List Finding :=
  separateFrom [] (findings.mergeSort Finding.le)

end WebAudit
