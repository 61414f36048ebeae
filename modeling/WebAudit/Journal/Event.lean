import WebAudit.Collect.Skip
import WebAudit.Record

/-!
# Events of a run

A run leaves a trace of events: what was collected or skipped, what could not be parsed, which
detector failed, and how the run ended.
-/

namespace WebAudit

inductive Level where
  | debug
  | info
  | warning
  | error
  | critical
deriving DecidableEq, Repr, Inhabited

namespace Level

def name : Level → String
  | debug => "DEBUG"
  | info => "INFO"
  | warning => "WARNING"
  | error => "ERROR"
  | critical => "CRITICAL"

def rank : Level → Nat
  | debug => 10
  | info => 20
  | warning => 30
  | error => 40
  | critical => 50

end Level

inductive Event where
  | recordCollected (path : String) (kind : ContentKind) (sizeBytes : Nat)
  | recordSkipped (skip : Skip)
  | collectionTruncated (records : Nat)
  /-- A text that is malformed is no surprise; a parser that gives up is one. -/
  | parseFailed (path : String) (kind : ContentKind) (surprising : Bool)
  | detectorFailed (ruleId path : String)
  | recordFailed (path : String)
  | recordAnalyzed (path : String) (kind : ContentKind) (findings : Nat)
  | runCancelled (records : Nat)
  | runCompleted (records findings : Nat)
deriving DecidableEq, Repr, Inhabited

namespace Event

def name : Event → String
  | recordCollected .. => "record_collected"
  | recordSkipped .. => "record_skipped"
  | collectionTruncated .. => "collection_truncated"
  | parseFailed .. => "parse_failed"
  | detectorFailed .. => "detector_failed"
  | recordFailed .. => "record_failed"
  | recordAnalyzed .. => "record_analyzed"
  | runCancelled .. => "run_cancelled"
  | runCompleted .. => "run_completed"

def level : Event → Level
  | recordCollected .. => .debug
  | recordSkipped .. => .warning
  | collectionTruncated .. => .warning
  | parseFailed _ _ surprising => if surprising then .warning else .info
  | detectorFailed .. => .warning
  | recordFailed .. => .error
  | recordAnalyzed .. => .info
  | runCancelled .. => .warning
  | runCompleted .. => .info

def failedRule? : Event → Option String
  | detectorFailed ruleId _ => some ruleId
  | _ => none

end Event

end WebAudit
