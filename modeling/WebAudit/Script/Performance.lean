import WebAudit.Script.Security

/-!
# Performance checks for scripts
-/

namespace WebAudit.Script.Source

def documentQueries : List String :=
  ["getElementById", "getElementsByClassName", "getElementsByTagName", "getElementsByName",
   "querySelector", "querySelectorAll"]

def queriesInLoops (s : Source) : List Hit :=
  s.calls.filterMap fun c =>
    if documentQueries.contains c.name && c.receiver == some "document" && c.site.insideLoop then
      some (c.hit none (some ("document." ++ c.name ++ "() runs on every loop iteration.")))
    else none

def maxElements : Nat := 1000

def largeLiteralHit (word : String) (n : Node) : Option Hit :=
  let count := n.contents.length
  if count ≤ maxElements then none
  else
    some (n.startHit none (some (word ++ " literal with " ++ toString count ++ " elements (limit " ++
      toString maxElements ++ ").")))

def largeLiterals (s : Source) : List Hit :=
  (s.sitesOf .array).filterMap (largeLiteralHit "Array" ·.node) ++
  (s.sitesOf .object).filterMap (largeLiteralHit "Object" ·.node)

/-- All calls of one function in a script that never calls its counterpart. -/
def unpaired (s : Source) (setter clearer : String) : List Hit :=
  let calls := s.calls
  if calls.any (·.name == clearer) then []
  else (calls.filter (·.name == setter)).map (·.hit)

end WebAudit.Script.Source
