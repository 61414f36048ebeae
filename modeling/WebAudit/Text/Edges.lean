/-!
# Sets of characters by their edges

A set of code points is given by the ascending list of the points where membership changes, starting
outside. A point belongs to the set when an odd number of edges lies at or below it.
-/

namespace WebAudit.Text

/-- Whether a code point lies in the set with these edges. -/
def insideEdges : List Nat → Nat → Bool
  | [], _ => false
  | e :: es, n => if n < e then false else !insideEdges es n

end WebAudit.Text
