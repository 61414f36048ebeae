import WebAudit.Analysis.Parsed
import WebAudit.Config.Invalid
import WebAudit.Imports.Findings
import WebAudit.Journal.Event

/-!
# Analysis of one record

A record is parsed and looked at by the detectors of its kind. A parser that fails, and issues that
a parser met, are findings themselves. Of a page come the records of its inline blocks, and if asked
for the addresses of its external scripts and stylesheets.
-/

namespace WebAudit

def syntaxError : Rule where
  id := "syntax-error"
  concern := .quality
  severity := .high
  title := "Syntax error"
  description := "The file could not be parsed cleanly."
  impact := "Code that does not parse will fail at runtime or in the build."
  recommendation := "Fix the syntax error reported by the parser."
  tags := ["syntax"]

def analysisError : Rule where
  id := "analysis-error"
  concern := .quality
  severity := .low
  title := "File could not be analyzed"
  description := "Analysis of this file failed unexpectedly."
  impact := "Problems in this file may go unreported."
  recommendation := "Check that the file is well-formed and report the failure."
  tags := ["engine"]

/-- What is kept of an analyzed record. -/
structure Outcome where
  record : Record
  findings : List Finding := []
  /-- Modules that a script file imports, each with its first line. -/
  imports : Option Imports.Targets := none
  /-- The inline blocks of a page. -/
  derived : List Record := []
  assets : List Markup.Asset := []
  events : List Event := []
deriving Inhabited

def Outcome.failedRules (o : Outcome) : List String :=
  o.events.filterMap Event.failedRule?

/-- Why the analysis of a record ends early. -/
inductive AnalysisFault where
  /-- A finding would lie in front of the first line. -/
  | unplaced
  | badAddress (fault : Url.Fault)
deriving DecidableEq, Repr, Inhabited

def AnalysisFault.message : AnalysisFault → String
  | unplaced => invalidFields 1 "Finding"
  | badAddress fault => fault.message

namespace Record

/-- A finding about the analysis itself; it shows the start of the record. -/
def complaint (record : Record) (rule : Rule) (issue : Issue) : Except AnalysisFault Finding :=
  let hit : Hit := {
    line := issue.line
    column := issue.column
    description := some issue.message
    snippet := some (Snippet.startOf record.content) }
  match hit.finding? rule record with
  | some finding => .ok finding
  | none => .error .unplaced

/-- The first of several issues stands for all; its message says how many there are. -/
def firstIssue? : List Issue → Option Issue
  | [] => none
  | [issue] => some issue
  | issue :: rest => some { issue with
      message := issue.message ++ " (" ++ toString (rest.length + 1) ++ " syntax errors in total)" }

def parseIssue? : Except ParseFault (Option Parsed) → Option (Rule × Issue)
  | .error (.malformed issue) => some (syntaxError, issue)
  | .error (.rejected cause) =>
    some (analysisError, ⟨1, none, "Parser failed: " ++ cause.message⟩)
  | .error (.brokenOff cause) =>
    some (analysisError, ⟨1, none, "Parser failed: " ++ cause.message⟩)
  | .ok (some parsed) => (firstIssue? parsed.issues).map (syntaxError, ·)
  | .ok none => none

def parseFindings (record : Record) (parsed : Except ParseFault (Option Parsed))
    (toggles : Toggles) : Except AnalysisFault (List Finding) :=
  match parseIssue? parsed with
  | some (rule, issue) =>
    if toggles.isEnabled rule.concern then (record.complaint rule issue).map ([·]) else .ok []
  | none => .ok []

def structuralInspection (record : Record) (parsed : Except ParseFault (Option Parsed))
    (toggles : Toggles) : Inspection :=
  match parsed with
  | .ok (some parsed) => parsed.inspect record toggles
  | _ => {}

/-- What the rules for lines report; they judge whole files, which derived records are not. -/
def lexicalInspection (record : Record) (toggles : Toggles) (nesting : Nat) : Inspection :=
  if record.synthetic then {}
  else inspect (LineRules.detectors Empty nesting record.kind) none record toggles

/-- The imports of a script file, if its place among the others is to be judged. -/
def importsOf (record : Record) (parsed : Except ParseFault (Option Parsed)) (toggles : Toggles) :
    Option Imports.Targets :=
  match parsed with
  | .ok (some (.script source)) =>
    if !record.synthetic && toggles.isEnabled .quality then some (Imports.targetsOf source) else none
  | _ => none

def ofInlineBlock (page : Record) (block : Markup.InlineBlock) : Record where
  path := page.path
  content := block.content
  kind := block.kind
  sizeBytes := block.content.utf8ByteSize
  lineOffset := page.lineOffset + block.lineOffset
  synthetic := true
  origin := some page.path
  metadata := [inlineMark]

def derivedFrom (record : Record) (parsed : Except ParseFault (Option Parsed)) : List Record :=
  match parsed with
  | .ok (some (.markup document)) => document.inlineBlocks.map record.ofInlineBlock
  | _ => []

def assetsOf (record : Record) (parsed : Except ParseFault (Option Parsed))
    (followAssets : Bool) : Except AnalysisFault (List Markup.Asset) :=
  match parsed with
  | .ok (some (.markup document)) =>
    if followAssets && !record.synthetic then
      (document.assets record.path).mapError .badAddress
    else .ok []
  | _ => .ok []

def eventsOf (record : Record) (parsed : Except ParseFault (Option Parsed))
    (inspection : Inspection) : List Event :=
  let failed := inspection.failedRules.map (Event.detectorFailed · record.path)
  match parsed with
  | .error fault => fault.event record :: failed
  | .ok _ => failed

/-- What analysis reports of a record that could not be analyzed to the end. -/
def failedOutcome (record : Record) (fault : AnalysisFault) (events : List Event)
    (toggles : Toggles) : Except AnalysisFault Outcome := do
  let events := events ++ [.recordFailed record.path]
  if toggles.isEnabled analysisError.concern then
    let finding ← record.complaint analysisError ⟨1, none, "Analysis failed: " ++ fault.message⟩
    return { record, events, findings := [finding] }
  else return { record, events }

/-- Analyzes a record, where data may be nested as deep as given. If that ends early, one finding says so in place
of all others; if that finding cannot be placed either, there is no outcome. -/
def analyze (record : Record) (toggles : Toggles) (nesting : Nat) (followAssets : Bool := false) :
    Except AnalysisFault Outcome :=
  let parsed := record.parse
  let inspection := Inspection.join
    [record.structuralInspection parsed toggles, record.lexicalInspection toggles nesting]
  let events := record.eventsOf parsed inspection
  let outcome : Except AnalysisFault Outcome := do
    let complaints ← record.parseFindings parsed toggles
    let assets ← record.assetsOf parsed followAssets
    return {
      record, assets, events
      findings := complaints ++ inspection.findings
      imports := record.importsOf parsed toggles
      derived := record.derivedFrom parsed }
  match outcome with
  | .ok outcome => .ok outcome
  | .error fault => record.failedOutcome fault events toggles

/-! ## Records that come of a record -/

variable {record : Record} {toggles : Toggles} {nesting : Nat} {followAssets : Bool} {o : Outcome}

theorem kind_of_parse_markup {document : Markup.Document}
    (h : record.parse = .ok (some (.markup document))) : record.kind = .markup := by
  unfold parse at h
  split at h
  · cases h
  · split at h <;> cases h
  · assumption
  · cases h

theorem derivedFrom_eq_nil (hKind : record.kind ≠ .markup) : record.derivedFrom record.parse = [] := by
  unfold derivedFrom
  split
  · rename_i hParse
    exact absurd (kind_of_parse_markup hParse) hKind
  · rfl

theorem assetsOf_eq_nil (hKind : record.kind ≠ .markup) :
    record.assetsOf record.parse followAssets = .ok [] := by
  unfold assetsOf
  split
  · rename_i hParse
    exact absurd (kind_of_parse_markup hParse) hKind
  · rfl

theorem kind_derivedFrom (record : Record) (parsed : Except ParseFault (Option Parsed)) :
    ∀ r ∈ record.derivedFrom parsed, r.kind ≠ .markup := by
  intro r hr
  unfold derivedFrom at hr
  split at hr
  · rename_i document
    obtain ⟨block, hBlock, rfl⟩ := List.mem_map.mp hr
    exact document.kind_inlineBlocks block hBlock
  · cases hr

theorem kind_assetsOf {parsed : Except ParseFault (Option Parsed)} {assets : List Markup.Asset}
    (h : record.assetsOf parsed followAssets = .ok assets) : ∀ a ∈ assets, a.kind ≠ .markup := by
  unfold assetsOf at h
  split at h
  · rename_i document
    split at h
    · cases hJoin : document.assets record.path with
      | error fault =>
        rw [hJoin] at h
        cases h
      | ok found =>
        rw [hJoin] at h
        cases h
        exact Markup.Document.kind_assets hJoin
    · cases h
      simp
  · cases h
    simp

/-- An outcome brings the blocks and assets of its record, or none if the analysis ended early. -/
theorem analyze_cases (h : record.analyze toggles nesting followAssets = .ok o) :
    o.record = record ∧
      ((o.derived = record.derivedFrom record.parse ∧
          record.assetsOf record.parse followAssets = .ok o.assets) ∨
        (o.derived = [] ∧ o.assets = [])) := by
  have hFailed : ∀ fault events, record.failedOutcome fault events toggles = .ok o →
      o.record = record ∧ o.derived = [] ∧ o.assets = [] := by
    intro fault events hOk
    unfold failedOutcome at hOk
    dsimp only at hOk
    split at hOk
    · cases hComplaint : record.complaint analysisError
          ⟨1, none, "Analysis failed: " ++ fault.message⟩ with
      | error fault =>
        rw [hComplaint] at hOk
        cases hOk
      | ok finding =>
        rw [hComplaint] at hOk
        cases hOk
        exact ⟨rfl, rfl, rfl⟩
    · cases hOk
      exact ⟨rfl, rfl, rfl⟩
  unfold analyze at h
  dsimp only at h
  split at h
  · rename_i outcome hOutcome
    cases h
    cases hComplaints : record.parseFindings record.parse toggles with
    | error fault =>
      rw [hComplaints] at hOutcome
      cases hOutcome
    | ok complaints =>
      cases hAssets : record.assetsOf record.parse followAssets with
      | error fault =>
        rw [hComplaints, hAssets] at hOutcome
        cases hOutcome
      | ok assets =>
        rw [hComplaints, hAssets] at hOutcome
        cases hOutcome
        exact ⟨rfl, .inl ⟨rfl, rfl⟩⟩
  · obtain ⟨hRecord, hNone⟩ := hFailed _ _ h
    exact ⟨hRecord, .inr hNone⟩

/-- Only pages bring further records. -/
theorem derived_eq_nil (hKind : record.kind ≠ .markup)
    (h : record.analyze toggles nesting followAssets = .ok o) : o.derived = [] ∧ o.assets = [] := by
  obtain ⟨-, ⟨hDerived, hAssets⟩ | hNone⟩ := analyze_cases h
  · rw [derivedFrom_eq_nil hKind] at hDerived
    rw [assetsOf_eq_nil hKind, Except.ok.injEq] at hAssets
    exact ⟨hDerived, hAssets.symm⟩
  · exact hNone

theorem kind_derived (h : record.analyze toggles nesting followAssets = .ok o) : ∀ r ∈ o.derived, r.kind ≠ .markup := by
  obtain ⟨-, ⟨hDerived, -⟩ | ⟨hDerived, -⟩⟩ := analyze_cases h
  · rw [hDerived]
    exact record.kind_derivedFrom record.parse
  · rw [hDerived]
    simp

theorem kind_assets (h : record.analyze toggles nesting followAssets = .ok o) :
    ∀ a ∈ o.assets, a.kind ≠ .markup := by
  obtain ⟨-, ⟨-, hAssets⟩ | ⟨-, hNone⟩⟩ := analyze_cases h
  · exact kind_assetsOf hAssets
  · rw [hNone]
    simp

end Record

end WebAudit
