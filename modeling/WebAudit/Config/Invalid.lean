/-!
# Counts of invalid fields
-/

namespace WebAudit

/-- Says how many fields of something do not have a value of the right form. -/
def invalidFields (count : Nat) (subject : String) : String :=
  toString count ++ " validation error" ++ (if count = 1 then "" else "s") ++ " for " ++ subject

end WebAudit
