import WebAudit.Text.Lowercase
import WebAudit.Text.Slice

/-!
# Material that is left out
-/

namespace WebAudit

inductive SkipReason where
  | pathTraversal
  | tooLarge
  | pathTooLong
  | corrupt
  | undecodable
  | unreadable
  | fetchFailed
deriving DecidableEq, Repr, Inhabited

def SkipReason.name : SkipReason → String
  | pathTraversal => "path_traversal"
  | tooLarge => "too_large"
  | pathTooLong => "path_too_long"
  | corrupt => "corrupt"
  | undecodable => "undecodable"
  | unreadable => "unreadable"
  | fetchFailed => "fetch_failed"

/-- A file, entry or asset that was left out. -/
structure Skip where
  path : String
  reason : SkipReason
deriving DecidableEq, Repr, Inhabited

/-- Why an archive entry is left out, by the words of the message about it. -/
def SkipReason.ofMessage (message : String) : SkipReason :=
  let text := Text.lower message
  if Text.contains "traversal" text then .pathTraversal
  else if Text.contains "too large" text || Text.contains "exceeded" text then .tooLarge
  else if Text.contains "too long" text then .pathTooLong
  else .corrupt

end WebAudit
