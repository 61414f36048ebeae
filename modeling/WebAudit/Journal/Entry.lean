import WebAudit.Json.Encode
import WebAudit.Journal.Event
import WebAudit.Journal.Message
import WebAudit.Journal.Timestamp

/-!
# Entries of the run log

The log of a run has one line for every entry, and a line is a JSON object with its members in a
fixed order.
-/

namespace WebAudit.Journal

open Json

def runLogger : String := "reposcope"

/-- Something that is to be logged. -/
structure Entry where
  time : Timestamp := ⟨0, 0⟩
  level : Value := .str Level.info.name
  logger : Value := .str runLogger
  message : String := ""
  /-- What else is known; only some names are logged. -/
  fields : List (String × Value) := []
  /-- The kind and the text of a failure. -/
  failure : Option (String × String) := none

def loggedFields : List String :=
  ["event", "path", "kind", "rule_id", "size_bytes", "stage", "percent", "records", "findings",
   "elapsed_ms", "reason", "error"]

def failureText (kind text : String) : String :=
  if text.isEmpty then kind else kind ++ ": " ++ text

namespace Entry

def details (e : Entry) : List (String × Value) :=
  loggedFields.filterMap fun name => (e.fields.lookup name).map (name, ·)

def members (e : Entry) : List (String × Value) :=
  [("level", e.level), ("logger", e.logger), ("message", .str e.message)] ++ e.details ++
    (e.failure.map fun (kind, text) => ("exception", .str (failureText kind text))).toList

def line (e : Entry) : String :=
  (Value.obj (("timestamp", .str e.time.text) :: e.members)).encode

end Entry

/-! ## Levels -/

def levelOf? (name : String) : Option (Option Level) :=
  match name with
  | "DEBUG" => some (some .debug)
  | "INFO" => some (some .info)
  | "WARNING" | "WARN" => some (some .warning)
  | "ERROR" => some (some .error)
  | "CRITICAL" | "FATAL" => some (some .critical)
  | "NOTSET" => some none
  | _ => none

def unknownLevel (name : String) : String :=
  "module 'logging' has no attribute '" ++ name ++ "'"

def thresholdName : Option Level → String
  | some level => level.name
  | none => "NOTSET"

/-- A threshold by one of its names, in any case; the name is given back if it is unknown. -/
def threshold (name : String) : Except String (Option Level) :=
  let name := String.ofList (name.toList.map Char.toUpper)
  match levelOf? name with
  | some level => .ok level
  | none => .error name

/-- Whether entries of a level are logged; without a threshold those from warnings on are. -/
def passes (threshold : Option Level) (level : Level) : Bool :=
  (threshold.getD .warning).rank ≤ level.rank

end WebAudit.Journal
