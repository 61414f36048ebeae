import WebAudit.Journal.Wording
import WebAudit.Json.Decode
import WebAudit.Text.Blank

/-!
# Statistics of a run log

Every line that is a JSON object counts by its event. Lines that are no JSON are passed over; a line
with any other JSON value stops the count.
-/

namespace WebAudit.Journal

open Json

inductive SummaryFault where
  | notObject (form : String)
  | noKey (form : String)
  | tooDeep
  | tooLong
deriving DecidableEq, Repr, Inhabited

def SummaryFault.message : SummaryFault → String
  | notObject form => "'" ++ form ++ "' object has no attribute 'get'"
  | noKey form => "unhashable type: '" ++ form ++ "'"
  | tooDeep => "maximum recursion depth exceeded while decoding a JSON array from a unicode string"
  | tooLong => "Exceeds the limit (4300 digits) for integer string conversion"

/-! ## Keys -/

/-- What is counted under: a value that holds no others. -/
inductive Key where
  | null
  | bool (b : Bool)
  | int (n : Int)
  | real (x : Number.Double)
  | str (s : String)
deriving DecidableEq, Repr, Inhabited

namespace Key

/-- The number that a key is. A truth value is one or zero. -/
def amount? : Key → Option Rat
  | bool b => some (if b then 1 else 0)
  | int n => some n
  | real x => x.toRat?
  | _ => none

/-- What tells a key from others: numbers are one key if they are equal, however they are written. -/
def identity (k : Key) : Rat ⊕ Key :=
  match k.amount? with
  | some r => .inl r
  | none => .inr k

end Key

structure Statistics where
  runs : Nat := 0
  recordsAnalyzed : Nat := 0
  recordsSkipped : Nat := 0
  detectorFailures : Nat := 0
  parseFailures : Nat := 0
  skipReasons : List (Key × Nat) := []
  failingRules : List (Key × Nat) := []
deriving DecidableEq, Repr, Inhabited

/-- Counts one more under a key; the form in which the key came first stays. -/
def tally (key : Key) : List (Key × Nat) → List (Key × Nat)
  | [] => [(key, 1)]
  | (k, n) :: rest => if k.identity = key.identity then (k, n + 1) :: rest else (k, n) :: tally key rest

def keyOf : Value → Except SummaryFault Key
  | .null => .ok .null
  | .bool b => .ok (.bool b)
  | .int n => .ok (.int n)
  | .real x => .ok (.real x)
  | .str s => .ok (.str s)
  | v => .error (.noKey v.form)

def fieldKey (fields : List (String × Value)) (name : String) : Except SummaryFault Key :=
  keyOf ((fields.lookup name).getD (.str "unknown"))

/-! ## Lines -/

def lineValue (nesting : Nat) (line : List Char) : Except Failure Value :=
  decode nesting (String.ofList (Text.stripChars line))

namespace Statistics

def add (s : Statistics) (fields : List (String × Value)) : Except SummaryFault Statistics :=
  match fields.lookup "event" with
  | some (.str "run_completed") => .ok { s with runs := s.runs + 1 }
  | some (.str "record_analyzed") => .ok { s with recordsAnalyzed := s.recordsAnalyzed + 1 }
  | some (.str "record_skipped") => do
    let key ← fieldKey fields "reason"
    return { s with
      recordsSkipped := s.recordsSkipped + 1
      skipReasons := tally key s.skipReasons }
  | some (.str "detector_failed") => do
    let key ← fieldKey fields "rule_id"
    return { s with
      detectorFailures := s.detectorFailures + 1
      failingRules := tally key s.failingRules }
  | some (.str "parse_failed") => .ok { s with parseFailures := s.parseFailures + 1 }
  | _ => .ok s

def addLine (nesting : Nat) (s : Statistics) (line : List Char) : Except SummaryFault Statistics :=
  match lineValue nesting line with
  | .ok (.obj fields) => s.add fields
  | .ok v => .error (.notObject v.form)
  | .error (.malformed ..) => .ok s
  | .error .tooDeep => .error .tooDeep
  | .error .tooLong => .error .tooLong

end Statistics

def gather (nesting : Nat) (lines : List (List Char)) : Except SummaryFault Statistics :=
  lines.foldlM (Statistics.addLine nesting) {}

/-- The lines of a log, given the current line so far, latest character first. A carriage return, a
newline, or one after the other ends a line. -/
def logLinesFrom : List Char → List Char → List (List Char)
  | [], [] => []
  | line, [] => [line.reverse]
  | line, '\r' :: '\n' :: cs => line.reverse :: logLinesFrom [] cs
  | line, c :: cs =>
    if c == '\n' || c == '\r' then line.reverse :: logLinesFrom [] cs
    else logLinesFrom (c :: line) cs

def summarize (nesting : Nat) (log : String) : Except SummaryFault Statistics :=
  gather nesting (logLinesFrom [] log.toList)

end WebAudit.Journal
