/-!
# Syntax issues
-/

namespace WebAudit

/-- A place that a tolerant parser had to recover from. -/
structure Issue where
  line : Nat
  column : Option Int
  message : String
deriving DecidableEq, Repr, Inhabited

end WebAudit
