import WebAudit.Finding.Basic
import WebAudit.Finding.Snippet
import WebAudit.Record

/-!
# Detectors

A detector is a rule, which says what is wrong and what to do about it, with a check, which says
where. A structural check looks at the parsed form of a record, a lexical one at its lines. A check
that fails contributes nothing; the other detectors are not affected.
-/

namespace WebAudit

/-- A place that a check reports. Texts and severity replace those of the rule. -/
structure Hit where
  line : Int := 1
  column : Option Int := none
  endLine : Option Int := none
  endColumn : Option Int := none
  title : Option String := none
  description : Option String := none
  severity : Option Severity := none
  snippet : Option String := none
  /-- The hit is about the file as a whole. -/
  wholeFile : Bool := false
deriving DecidableEq, Repr, Inhabited

structure Rule where
  id : String
  concern : Concern
  severity : Severity
  title : String
  description : String
  impact : String := ""
  recommendation : String := ""
  remediation : List Step := []
  tags : List String := []
deriving DecidableEq, Repr, Inhabited

/-- The hits of a check up to its end or to the point where it failed. -/
structure Report where
  hits : List Hit := []
  failure : Option String := none
deriving DecidableEq, Repr, Inhabited

namespace Report

instance : Coe (List Hit) Report := ⟨fun hits => { hits }⟩

end Report

/-- How a detector looks at a record whose parsed form is a `υ`. -/
inductive Check (υ : Type) where
  | structural (check : υ → Record → Report)
  | lexical (check : List String → Record → Report)

structure Detector (υ : Type) where
  rule : Rule
  check : Check υ

namespace Detector

variable {υ : Type}

def isStructural (d : Detector υ) : Bool :=
  match d.check with
  | .structural _ => true
  | .lexical _ => false

/-- What the check reports; a structural check needs the parsed form. -/
def report (d : Detector υ) (unit : Option υ) (record : Record) : Report :=
  match d.check, unit with
  | .structural check, some unit => check unit record
  | .structural _, none => {}
  | .lexical check, _ => check record.lines record

end Detector

def orDefault (replacement : Option String) (text : String) : String :=
  match replacement with
  | some s => if s.isEmpty then text else s
  | none => text

namespace Hit

def snippetIn (h : Hit) (record : Record) : String :=
  match h.snippet with
  | some s => Text.truncate Snippet.maxLength s
  | none =>
    if h.wholeFile then Snippet.startOf record.content
    else Snippet.around record.lines h.line record.lineOffset

def reportedLine (h : Hit) (record : Record) : Int :=
  max h.line 1 + record.lineOffset

/-- The finding of a hit; there is none if its line would be less than one. -/
def finding? (h : Hit) (rule : Rule) (record : Record) : Option Finding :=
  let line := h.reportedLine record
  if line < 1 then none
  else
    let marks := rule.concern.name :: record.kind.name :: (if record.synthetic then ["embedded"] else [])
    some {
      id := Finding.makeId record.path rule.id line
      ruleId := rule.id
      title := orDefault h.title rule.title
      description := orDefault h.description rule.description
      severity := h.severity.getD rule.severity
      concern := rule.concern
      path := record.path
      line
      endLine := h.endLine.map (· + record.lineOffset)
      column := h.column
      endColumn := h.endColumn
      snippet := h.snippetIn record
      impact := rule.impact
      recommendation := rule.recommendation
      remediation := rule.remediation
      tags := sortTags (rule.tags ++ marks) }

end Hit

/-- What a detector contributes: all of its findings, or none if it failed. -/
def Report.findings? (r : Report) (rule : Rule) (record : Record) : Option (List Finding) :=
  if r.failure.isSome then none else r.hits.mapM (·.finding? rule record)

/-- What a set of detectors found, and the rules whose detectors failed. -/
structure Inspection where
  findings : List Finding := []
  failedRules : List String := []
deriving DecidableEq, Repr, Inhabited

def Inspection.join (parts : List Inspection) : Inspection :=
  ⟨parts.flatMap (·.findings), parts.flatMap (·.failedRules)⟩

variable {υ : Type}

/-- Whether a detector takes part: its concern is selected and what it looks at is there. -/
def Detector.applies (d : Detector υ) (unit : Option υ) (toggles : Toggles) : Bool :=
  toggles.isEnabled d.rule.concern && (!d.isStructural || unit.isSome)

def Detector.inspect (d : Detector υ) (unit : Option υ) (record : Record) : Inspection :=
  match (d.report unit record).findings? d.rule record with
  | some findings => { findings }
  | none => { failedRules := [d.rule.id] }

def inspect (detectors : List (Detector υ)) (unit : Option υ) (record : Record)
    (toggles : Toggles) : Inspection :=
  .join ((detectors.filter (·.applies unit toggles)).map (·.inspect unit record))

/-- The first rule id that occurs a second time. -/
def duplicateRule? (seen : List String) : List Rule → Option String
  | [] => none
  | r :: rules => if seen.contains r.id then some r.id else duplicateRule? (r.id :: seen) rules

end WebAudit
