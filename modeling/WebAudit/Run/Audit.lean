import WebAudit.Config.Toggles
import WebAudit.Finding.Order
import WebAudit.Finding.Summary
import WebAudit.Run.Work

/-!
# Runs

A run collects a source, analyzes its records, judges the imports between its scripts, and reports
all findings in order. A run that is cancelled reports what it has, without judging imports.
-/

namespace WebAudit.Run

open Collect (World Options)

structure Request where
  source : Source
  toggles : Toggles := {}
  options : Options := {}
  /-- How deep data may be nested. -/
  nesting : Nat
  workers : Nat := 1
  schedule : Schedule
  /-- Whether the run is to stop, once these reports were made. -/
  isCancelled : List Progress → Bool := fun _ => false

def Request.heardBy {σ : Type} (request : Request) (listener : Listener σ) (s : σ) : Request :=
  { request with isCancelled := fun reports =>
      request.isCancelled reports || listener.stops (listener.tell (Progress.shown reports) s).1 }

def inFlightPerWorker : Nat := 4

def Request.plan (request : Request) (world : World) : Plan where
  toggles := request.toggles
  nesting := request.nesting
  options := request.options
  web := world.web
  followAssets := request.options.followAssets && request.source.kind == .page
  inFlight := max (request.workers * inFlightPerWorker) 1
  schedule := request.schedule

structure Report where
  findings : List Finding
  summary : Summary
  filesAnalyzed : Nat
  totalLines : Nat
  kinds : ContentKind → Nat
  skipped : List Skip
  cancelled : Bool
  progress : List Progress
  events : List Event

namespace Book

def judgeImports (b : Book) (toggles : Toggles) (cancelled : Bool) : Book :=
  if !cancelled && toggles.isEnabled .quality then
    { b.report 90 "Analyzing dependencies" with tally := b.tally.withImports }
  else b

def close (b : Book) (cancelled : Bool) : Report :=
  let b := b.report 95 "Summarizing"
  let findings := finalize b.tally.findings
  let b := b.note (.runCompleted b.tally.filesAnalyzed findings.length)
  let b := b.report 100 (if cancelled then "Cancelled" else "Done")
  { findings, cancelled
    summary := summarize findings
    filesAnalyzed := b.tally.filesAnalyzed
    totalLines := b.tally.totalLines
    kinds := b.tally.kinds
    skipped := b.ledger.skipped
    progress := Progress.shown b.reports
    events := b.ledger.events }

end Book

def execute (world : World) (request : Request) : Except Fault Report := do
  let (supply, ledger) ← (Collect.openSource world request.options request.source).mapError .source
  let (cancelled, b) ← ((request.plan world).start supply ledger).work request.isCancelled
  return (b.judgeImports request.toggles cancelled).close cancelled

/-! ## Configuration -/

/-- A source, or the fields that describe one. -/
inductive SourceSetting where
  | given (source : Source)
  | fields (table : List (String × Json.Value))

/-- Why a run is not started. -/
inductive SetupFault where
  | source (count : Nat)
  | toggles (fault : ToggleFault)
  | workers (count : Int)
deriving DecidableEq, Repr, Inhabited

def SetupFault.message : SetupFault → String
  | source count => Source.faultMessage count
  | toggles fault => fault.message
  | workers count => "workers must be at least 1, got " ++ toString count

def SourceSetting.source : SourceSetting → Except SetupFault Source
  | given source => .ok source
  | fields table => (Source.ofFields table).mapError .source

def setUp (source : SourceSetting) (config : List (String × Json.Value)) (options : Options) (nesting : Nat)
    (workers : Int) (schedule : Schedule) (isCancelled : List Progress → Bool) : Except SetupFault Request := do
  let source ← source.source
  let toggles ← (Toggles.ofFields config).mapError .toggles
  if workers < 1 then throw (.workers workers)
  else return { source, toggles, options, nesting, schedule, isCancelled, workers := workers.toNat }

end WebAudit.Run
