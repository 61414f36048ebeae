import WebAudit.Classify
import WebAudit.Journal.Event
import WebAudit.LineRules
import WebAudit.Markup.Detectors
import WebAudit.Script.Detectors
import WebAudit.Script.Repair
import WebAudit.Stylesheet.Detectors

/-!
# Parsed records

What the structural detectors look at, by the kind of a record. A parser can be tolerant, and then
its result lists the issues it met; it can refuse a malformed text; and it can give up.
-/

namespace WebAudit

inductive Parsed where
  | script (source : Script.Source)
  | stylesheet (document : Stylesheet.Document)
  | markup (document : Markup.Document)

inductive ParseFault where
  | malformed (issue : Issue)
  | rejected (cause : Markup.Rejection)
  | brokenOff (cause : Stylesheet.Breakdown)
deriving DecidableEq, Repr, Inhabited

def ParseFault.event (fault : ParseFault) (record : Record) : Event :=
  match fault with
  | malformed _ => .parseFailed record.path record.kind false
  | rejected _ | brokenOff _ => .parseFailed record.path record.kind true

/-- The language of a script record; a script on a page has the common one, whatever the path of the
page is. -/
def Record.dialect (record : Record) : Script.Dialect :=
  if record.isInline then .javascript else scriptDialect record.path

/-- The path that decides how a style record is read; a style on a page has none. -/
def Record.stylePath (record : Record) : String :=
  if record.isInline then "" else record.path

/-- The parsed form of a record; records of some kinds have none. -/
def Record.parse (record : Record) : Except ParseFault (Option Parsed) :=
  match record.kind with
  | .script => .ok (some (.script (Script.Source.parse record.dialect record.content)))
  | .stylesheet =>
    match Stylesheet.parse record.content record.stylePath with
    | .ok document => .ok (some (.stylesheet document))
    | .error (.malformed issue) => .error (.malformed issue)
    | .error (.brokenOff cause) => .error (.brokenOff cause)
  | .markup =>
    match Markup.parse record.content with
    | .ok document => .ok (some (.markup document))
    | .error cause => .error (.rejected cause)
  | _ => .ok none

namespace Parsed

def issues : Parsed → List Issue
  | script source => source.issues
  | stylesheet document => document.issues
  | markup _ => []

def inspect (parsed : Parsed) (record : Record) (toggles : Toggles) : Inspection :=
  match parsed with
  | script source => WebAudit.inspect Script.detectors (some source) record toggles
  | stylesheet document => WebAudit.inspect Stylesheet.detectors (some document) record toggles
  | markup document => WebAudit.inspect Markup.detectors (some document) record toggles

end Parsed

end WebAudit
