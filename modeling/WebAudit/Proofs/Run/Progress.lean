import Mathlib.Algebra.Order.Field.Basic
import Mathlib.Algebra.Order.Ring.Rat
import Mathlib.Tactic.NormNum
import Mathlib.Tactic.Positivity
import WebAudit.Proofs.Run.Conservation

/-!
# The progress of a run

Each record that was submitted is completed, done or in flight, and every step of a run keeps it so. At no point
are more of them completed than were submitted, whatever a wait brings. How many records are expected goes up and
down while a run goes on, but it never falls below the submitted ones. So no report of a record is above ninety, and
with the reports before and after them the percentages rise in stages from zero to a hundred. Who listens has no
part in that, and may fail at any report.
-/

namespace WebAudit

/-! ## Reports that are shown -/

namespace Progress

theorem advance_eq (previous next : Rat) : advance previous next = min (max previous next) 100 := by
  unfold advance
  rw [max_def, min_def]

/-- From a percentage on, what is shown lies between it and a hundred. -/
theorem between_of_mem_shownFrom {previous : Rat} (hPrevious : previous ≤ 100) {reports : List Progress} :
    ∀ p ∈ shownFrom previous reports, previous ≤ p.percent ∧ p.percent ≤ 100 := by
  induction reports generalizing previous with
  | nil => simp [shownFrom]
  | cons r rs ih =>
    have hUp : previous ≤ advance previous r.percent := by
      rw [advance_eq]
      exact le_min (le_max_left _ _) hPrevious
    have hTop : advance previous r.percent ≤ 100 := by
      rw [advance_eq]
      exact min_le_right _ _
    intro p hp
    rcases List.mem_cons.mp hp with rfl | hp
    · exact ⟨hUp, hTop⟩
    · obtain ⟨hLow, hHigh⟩ := ih hTop p hp
      exact ⟨hUp.trans hLow, hHigh⟩

theorem pairwise_shownFrom (previous : Rat) (reports : List Progress) :
    (shownFrom previous reports).Pairwise fun p q => p.percent ≤ q.percent := by
  induction reports generalizing previous with
  | nil => exact .nil
  | cons r rs ih =>
    have hTop : advance previous r.percent ≤ 100 := by
      rw [advance_eq]
      exact min_le_right _ _
    refine List.pairwise_cons.mpr ⟨?_, ih _⟩
    intro q hq
    exact (between_of_mem_shownFrom hTop q hq).1

end Progress

/-! ## Listeners -/

namespace Listener

variable {σ : Type}

/-- The listener that does the same and never fails. -/
def calm (l : Listener σ) : Listener σ where
  hear p s := (.ok (), (l.hear p s).2)
  stops := l.stops

/-- The listener that does the same and also keeps what it is told. -/
def recording (l : Listener σ) : Listener (σ × List Progress) where
  hear p s := ((l.hear p s.1).1, (l.hear p s.1).2, s.2 ++ [p])
  stops s := l.stops s.1

theorem tell_cons (l : Listener σ) (p : Progress) (ps : List Progress) (s : σ) :
    (l.tell (p :: ps) s).1 = (l.tell ps (l.hear p s).2).1 := by
  rw [tell]
  split
  · rename_i hHear
    rw [hHear]
  · rename_i hHear
    rw [hHear]

/-- Whether a listener fails makes no difference to its state. -/
theorem tell_calm (l : Listener σ) (ps : List Progress) (s : σ) : (l.calm.tell ps s).1 = (l.tell ps s).1 := by
  induction ps generalizing s with
  | nil => rfl
  | cons p ps ih =>
    rw [tell_cons, tell_cons]
    exact ih _

/-- A listener is told everything in order, and comes to the same state as without a record of it. -/
theorem tell_recording (l : Listener σ) (ps told : List Progress) (s : σ) :
    (l.recording.tell ps (s, told)).1 = ((l.tell ps s).1, told ++ ps) := by
  induction ps generalizing s told with
  | nil => rw [List.append_nil]; rfl
  | cons p ps ih =>
    rw [tell_cons, tell_cons]
    change (l.recording.tell ps ((l.hear p s).2, told ++ [p])).1 = _
    rw [ih, List.append_assoc]
    rfl

end Listener

/-! ## What steps do to the account -/

namespace Run

open Collect (Supply Ledger World)

structure ReportsOn (o : Outcome) (p : Progress) : Prop where
  message : p.message = "Analyzed " ++ o.record.path
  bound : p.percent ≤ 90

/-- As long as no report is above ninety, none is shown above it. -/
theorem exists_shownFrom_append {os : List Outcome} {reports : List Progress}
    (h : List.Forall₂ ReportsOn os reports) {previous : Rat} (hPrevious : previous ≤ 90) (more : List Progress) :
    ∃ shown reached, Progress.shownFrom previous (reports ++ more) = shown ++ Progress.shownFrom reached more ∧
      List.Forall₂ ReportsOn os shown ∧ reached ≤ 90 := by
  induction h generalizing previous with
  | nil => exact ⟨[], previous, rfl, .nil, hPrevious⟩
  | @cons o r os rs hHead _ ih =>
    have hNext : Progress.advance previous r.percent ≤ 90 := by
      rw [Progress.advance_eq]
      exact (min_le_left _ _).trans (max_le hPrevious hHead.bound)
    obtain ⟨shown, reached, hSplit, hShown, hReached⟩ := ih hNext
    refine ⟨⟨Progress.advance previous r.percent, r.message⟩ :: shown, reached, ?_, ?_, hReached⟩
    · rw [List.cons_append, Progress.shownFrom, hSplit]
      rfl
    · exact .cons ⟨hHead.message, hNext⟩ hShown

namespace Book

/-- Of the records that are expected, no more are done than there are. -/
theorem share_le {done expected : Nat} (h : done ≤ expected) : 90 * (done : Rat) / (expected : Rat) ≤ 90 := by
  have hCast : (done : Rat) ≤ (expected : Rat) := by exact_mod_cast h
  have hWhole : (0 : Rat) ≤ (expected : Rat) := by exact_mod_cast Nat.zero_le expected
  exact div_le_of_le_mul₀ hWhole (by norm_num) (mul_le_mul_of_nonneg_left hCast (by norm_num))

/-- As many records are expected as were submitted, or more. -/
theorem submitted_le_expected (b : Book) (plan : Plan) (waiting : Nat) :
    b.submitted ≤ b.expected plan waiting := by
  unfold expected
  omega

end Book

namespace State

variable {plan : Plan} {s s' : State plan} {os : List Outcome}

def Balanced (s : State plan) : Prop :=
  s.book.completed + s.done.length + s.pending.length = s.book.submitted

theorem Balanced.completed_le (h : s.Balanced) : s.book.completed ≤ s.book.submitted := by
  unfold Balanced at h
  omega

theorem Balanced.next {record : Option Record} (h : s.Balanced) (hNext : s.next = .ok (record, s')) :
    s'.Balanced := by
  obtain ⟨ledger, exhausted, hBook⟩ := book_of_next hNext
  obtain ⟨hDone, hPending⟩ := done_of_next hNext
  unfold Balanced
  rw [hBook, hDone, hPending]
  exact h

theorem Balanced.submit (h : s.Balanced) (r : Record) : (s.submit r).Balanced := by
  obtain ⟨ledger, -, hBook⟩ := s.book_submit r
  have hPending : (s.submit r).pending.length = s.pending.length + 1 := List.length_append
  have hDone : (s.submit r).done = s.done := rfl
  unfold Balanced at *
  rw [hBook, hPending, hDone]
  dsimp only
  omega

theorem Balanced.wait (h : s.Balanced) (hDone : s.done = []) : s.wait.Balanced := by
  have hSplit := (plan.schedule.finished_append_unfinished s.waits s.pending).length_eq
  rw [List.length_append] at hSplit
  unfold Balanced at *
  rw [hDone, List.length_nil] at h
  simp only [State.wait]
  omega

theorem Balanced.settle {job : Job plan} {rest : List (Job plan)} (h : s.Balanced) (hDone : s.done = job :: rest)
    (o : Outcome) (assets : List Record) (ledger : Ledger) : (s.settle o assets ledger).Balanced := by
  unfold Balanced at *
  rw [hDone, List.length_cons] at h
  change s.book.completed + 1 + s.done.tail.length + s.pending.length = s.book.submitted
  rw [hDone, List.tail_cons]
  omega

theorem Step.balanced (hStep : s.Step os s') (h : s.Balanced) : s'.Balanced := by
  cases hStep with
  | submitted hNext => exact (h.next hNext).submit _
  | exhausted hNext => exact h.next hNext
  | waited hDone => exact h.wait hDone
  | merged hDone _ _ => exact h.settle hDone ..

theorem Steps.balanced (hSteps : s.Steps os s') (h : s.Balanced) : s'.Balanced := by
  induction hSteps with
  | refl => exact h
  | step hStep _ ih => exact ih (hStep.balanced h)

/-- A record is reported when it is merged. It was submitted and not completed before, so the report of it is at
most ninety. -/
theorem Step.reports (hStep : s.Step os s') (h : s.Balanced) :
    ∃ news, s'.book.reports = s.book.reports ++ news ∧ List.Forall₂ ReportsOn os news := by
  cases hStep with
  | @submitted r t hNext =>
    obtain ⟨_, _, hBook⟩ := book_of_next hNext
    obtain ⟨_, -, hSubmit⟩ := t.book_submit r
    rw [hSubmit, hBook]
    exact ⟨[], (List.append_nil _).symm, .nil⟩
  | exhausted hNext =>
    obtain ⟨_, _, hBook⟩ := book_of_next hNext
    rw [hBook]
    exact ⟨[], (List.append_nil _).symm, .nil⟩
  | waited _ => exact ⟨[], (List.append_nil _).symm, .nil⟩
  | @merged _ _ o assets ledger hDone _ _ =>
    have hCompleted := (h.settle hDone o assets ledger).completed_le
    refine ⟨_, rfl, .cons ⟨rfl, Book.share_le ?_⟩ .nil⟩
    exact hCompleted.trans (Book.submitted_le_expected ..)

theorem Steps.reports (hSteps : s.Steps os s') (h : s.Balanced) :
    ∃ news, s'.book.reports = s.book.reports ++ news ∧ List.Forall₂ ReportsOn os news := by
  induction hSteps with
  | refl => exact ⟨[], (List.append_nil _).symm, .nil⟩
  | step hStep _ ih =>
    obtain ⟨news, hNews, hAll⟩ := hStep.reports h
    obtain ⟨news', hNews', hAll'⟩ := ih (hStep.balanced h)
    exact ⟨news ++ news', by rw [hNews', hNews, List.append_assoc], List.rel_append hAll hAll'⟩

theorem balanced_start (plan : Plan) (supply : Supply) (ledger : Ledger) : (plan.start supply ledger).Balanced :=
  rfl

end State

/-! ## Whole runs -/

theorem execute_cases {world : World} {request : Request} {report : Report}
    (h : execute world request = .ok report) :
    ∃ supply ledger cancelled b,
      Collect.openSource world request.options request.source = .ok (supply, ledger) ∧
      ((request.plan world).start supply ledger).work request.isCancelled = .ok (cancelled, b) ∧
      report = (b.judgeImports request.toggles cancelled).close cancelled := by
  unfold execute at h
  obtain ⟨⟨supply, ledger⟩, hOpen, h⟩ := bind_eq_ok.mp h
  obtain ⟨⟨cancelled, b⟩, hWork, h⟩ := bind_eq_ok.mp h
  cases h
  refine ⟨supply, ledger, cancelled, b, ?_, hWork, rfl⟩
  cases hSource : Collect.openSource world request.options request.source with
  | error fault =>
    rw [hSource] at hOpen
    cases hOpen
  | ok x =>
    rw [hSource] at hOpen
    cases hOpen
    rfl

/-- A run takes in what it merges and reports each record of it, whether it goes on to its end or is stopped. -/
theorem goesOn_of_work {plan : Plan} {supply : Supply} {ledger : Ledger} {isCancelled : List Progress → Bool}
    {cancelled : Bool} {b : Book} (h : (plan.start supply ledger).work isCancelled = .ok (cancelled, b)) :
    let merged := (plan.start supply ledger).merged isCancelled
    b.tally = merged.foldl Tally.merge {} ∧ (∀ o ∈ merged, plan.Analyzes o.record o) ∧
      ∃ news, b.reports = ⟨0, "Collecting sources"⟩ :: news ∧ List.Forall₂ ReportsOn merged news := by
  obtain ⟨s, hSteps, hBook⟩ := State.steps_of_work rfl h
  have hSame : b.tally = s.book.tally ∧ b.reports = s.book.reports := by
    rw [hBook]
    split <;> exact ⟨rfl, rfl⟩
  rw [hSame.1, hSame.2]
  exact ⟨hSteps.tally, hSteps.analyzes, hSteps.reports (State.balanced_start ..)⟩

/-- The reports that come after those of records. -/
def closing (toggles : Toggles) (cancelled : Bool) : List Progress :=
  (if !cancelled && toggles.isEnabled .quality then [⟨90, "Analyzing dependencies"⟩] else []) ++
    [⟨95, "Summarizing"⟩, ⟨100, if cancelled then "Cancelled" else "Done"⟩]

theorem getLast?_closing (toggles : Toggles) (cancelled : Bool) :
    (closing toggles cancelled).getLast? = some ⟨100, if cancelled then "Cancelled" else "Done"⟩ := by
  rw [closing, List.getLast?_append]
  rfl

theorem Book.progress_close (b : Book) (toggles : Toggles) (cancelled : Bool) :
    ((b.judgeImports toggles cancelled).close cancelled).progress =
      Progress.shown (b.reports ++ closing toggles cancelled) := by
  unfold judgeImports closing
  split <;> simp [close, report, note]

theorem Book.cancelled_close (b : Book) (toggles : Toggles) (cancelled : Bool) :
    ((b.judgeImports toggles cancelled).close cancelled).cancelled = cancelled := by
  unfold judgeImports
  split <;> rfl

/-- What comes after the records is shown as it is reported. -/
theorem shownFrom_closing {reached : Rat} (h : reached ≤ 90) (toggles : Toggles) (cancelled : Bool) :
    Progress.shownFrom reached (closing toggles cancelled) = closing toggles cancelled := by
  have hNinety : Progress.advance reached 90 = 90 := by
    rw [Progress.advance_eq, max_eq_right h]
    norm_num
  have hSummary : Progress.advance reached 95 = 95 := by
    rw [Progress.advance_eq, max_eq_right (h.trans (by norm_num))]
    norm_num
  have hNext : Progress.advance 90 95 = 95 := by decide +kernel
  have hEnd : Progress.advance 95 100 = 100 := by decide +kernel
  unfold closing
  split
  · simp [Progress.shownFrom, hNinety, hNext, hEnd]
  · simp [Progress.shownFrom, hSummary, hEnd]

/-- What a run reports: the findings of all that it merged, and those about imports if it got so far. -/
theorem findings_of_execute {world : World} {request : Request} {report : Report}
    (h : execute world request = .ok report) :
    ∃ supply ledger merged, Collect.openSource world request.options request.source = .ok (supply, ledger) ∧
      ((request.plan world).start supply ledger).merged request.isCancelled = merged ∧
      (∀ o ∈ merged, (request.plan world).Analyzes o.record o) ∧
      report.findings = finalize (merged.flatMap (·.findings) ++
        if !report.cancelled && request.toggles.isEnabled .quality then
          Imports.findings (merged.foldl Tally.merge {}).imports (merged.foldl Tally.merge {}).scriptPaths
        else []) := by
  obtain ⟨supply, ledger, cancelled, b, hOpen, hWork, rfl⟩ := execute_cases h
  obtain ⟨hTally, hAnalyzes, -⟩ := goesOn_of_work hWork
  refine ⟨supply, ledger, _, hOpen, rfl, hAnalyzes, ?_⟩
  have hFindings :=
    Tally.findings_foldl_merge {} (((request.plan world).start supply ledger).merged request.isCancelled)
  rw [b.cancelled_close, ← hTally]
  rw [← hTally] at hFindings
  change finalize (b.judgeImports request.toggles cancelled).tally.findings = _
  unfold Book.judgeImports
  split
  · change finalize (b.tally.findings ++ _) = _
    rw [hFindings]
    rfl
  · rw [hFindings, List.append_nil]
    rfl

/-- The stages of a run: its start, the records it merges, and its end. -/
theorem stages_of_execute {world : World} {request : Request} {report : Report}
    (h : execute world request = .ok report) :
    ∃ supply ledger analyzed,
      Collect.openSource world request.options request.source = .ok (supply, ledger) ∧
      List.Forall₂ ReportsOn (((request.plan world).start supply ledger).merged request.isCancelled) analyzed ∧
      report.progress =
        ⟨0, "Collecting sources"⟩ :: (analyzed ++ closing request.toggles report.cancelled) := by
  obtain ⟨supply, ledger, cancelled, b, hOpen, hWork, rfl⟩ := execute_cases h
  obtain ⟨-, -, news, hNews, hAll⟩ := goesOn_of_work hWork
  obtain ⟨analyzed, reached, hSplit, hAnalyzed, hReached⟩ :=
    exists_shownFrom_append hAll (by norm_num : (0 : Rat) ≤ 90) (closing request.toggles cancelled)
  refine ⟨supply, ledger, analyzed, hOpen, hAnalyzed, ?_⟩
  have hStart : Progress.advance 0 0 = 0 := by decide +kernel
  rw [shownFrom_closing hReached] at hSplit
  rw [b.progress_close, b.cancelled_close, hNews, ← hSplit]
  change _ :: Progress.shownFrom (Progress.advance 0 0) _ = _
  rw [hStart]
  rfl

theorem exists_shown_of_execute {world : World} {request : Request} {report : Report}
    (h : execute world request = .ok report) : ∃ reports, report.progress = Progress.shown reports := by
  obtain ⟨_, _, cancelled, b, -, -, rfl⟩ := execute_cases h
  exact ⟨_, b.progress_close request.toggles cancelled⟩

/-- The source opens and gives its records, and every asset of a collected page that is requested is either
fetched or skipped. -/
def Request.Collects (request : Request) (world : World) : Prop :=
  let plan := request.plan world
  ∃ supply ledger records l fetched l',
    Collect.openSource world request.options request.source = .ok (supply, ledger) ∧
    Collect.drain request.options supply ledger = .ok (records, l) ∧
    plan.fetchPages (plan.outcomes records) ledger = .ok (fetched, l')

namespace Request

variable {request : Request} {world : World}

/-- A source collects if it gives its records and no assets are followed. -/
theorem collects_of_no_assets {supply : Supply} {ledger l : Ledger} {records : List Record}
    (hFollow : (request.plan world).followAssets = false)
    (hOpen : Collect.openSource world request.options request.source = .ok (supply, ledger))
    (hDrain : Collect.drain request.options supply ledger = .ok (records, l)) : request.Collects world := by
  refine ⟨supply, ledger, records, l, [], ledger, hOpen, hDrain, ?_⟩
  have hWhole := Supply.Yields.whole ⟨l, hDrain⟩ (Collect.whole_openSource hOpen).1
  have hAnalyzed := (request.plan world).analyzes_outcomes fun r hr => (hWhole r hr).placed
  refine Plan.fetchPages_of_no_assets ?_ ledger
  intro o ho
  have hAnalyze := (Plan.analyzes_of_mem hAnalyzed o ho).2
  unfold Plan.Analyzes at hAnalyze
  rw [hFollow] at hAnalyze
  exact Record.assets_eq_nil hAnalyze

theorem Collects.returns (h : request.Collects world) : ∃ report, execute world request = .ok report := by
  obtain ⟨supply, ledger, records, l, fetched, l', hOpen, hDrain, hFetch⟩ := h
  obtain ⟨cancelled, b, hWork⟩ := (request.owes_start hOpen hDrain hFetch).returns request.isCancelled rfl
  exact ⟨_, execute_of_work hOpen hWork⟩

/-- Who listens to a run makes no difference to what is collected. -/
theorem Collects.heardBy {σ : Type} (h : request.Collects world) (listener : Listener σ) (s : σ) :
    (request.heardBy listener s).Collects world :=
  h

theorem heardBy_calm {σ : Type} (request : Request) (listener : Listener σ) (s : σ) :
    request.heardBy listener.calm s = request.heardBy listener s := by
  unfold heardBy
  simp only [Listener.tell_calm]
  rfl

end Request

/-- A run whose source collects returns, whoever listens to it, and a listener that fails is told the same as
one that does not, of the same run. What it is told of a run that returns starts at zero, then names each
merged record and reaches ninety at most, and ends at a hundred. It never goes back. The records may be done in any
order, and any part of those in flight at a time. -/
theorem progress_rises_in_stages {σ : Type} (world : World) (request : Request) (listener : Listener σ)
    (s : σ) :
    let heard := request.heardBy listener s
    (request.Collects world → ∃ report, execute world heard = .ok report) ∧
    execute world (request.heardBy listener.calm s) = execute world heard ∧
    ∀ report, execute world heard = .ok report →
      (listener.recording.tell report.progress (s, [])).1.2 = report.progress ∧
      (∃ supply ledger analyzed,
        Collect.openSource world request.options request.source = .ok (supply, ledger) ∧
        List.Forall₂ ReportsOn (((heard.plan world).start supply ledger).merged heard.isCancelled) analyzed ∧
        report.progress =
          ⟨0, "Collecting sources"⟩ :: (analyzed ++ closing request.toggles report.cancelled)) ∧
      report.progress.getLast?.map (·.percent) = some 100 ∧
      report.progress.Pairwise (fun p q => p.percent ≤ q.percent) ∧
      ∀ p ∈ report.progress, 0 ≤ p.percent ∧ p.percent ≤ 100 := by
  intro heard
  refine ⟨fun h => (h.heardBy listener s).returns, ?_, ?_⟩
  · rw [Request.heardBy_calm]
  · intro report hReport
    have hStages := stages_of_execute hReport
    obtain ⟨reports, hShown⟩ := exists_shown_of_execute hReport
    refine ⟨?_, hStages, ?_, ?_, ?_⟩
    · rw [Listener.tell_recording]
      rfl
    · obtain ⟨supply, ledger, analyzed, -, -, hStages⟩ := hStages
      rw [hStages, ← List.cons_append, List.getLast?_append, getLast?_closing]
      rfl
    · rw [hShown]
      exact Progress.pairwise_shownFrom 0 reports
    · rw [hShown]
      exact Progress.between_of_mem_shownFrom (by norm_num)

/-! The same page without what it refers to, in a run that waits for one record at a time. -/

/-- At each wait only the record that was submitted last is done. -/
def Schedule.latest : Schedule where
  done _ count := (List.range count).drop (count - 1)
  lt_of_mem h := List.mem_range.mp (List.mem_of_mem_drop h)
  nodup _ _ := List.nodup_range.drop
  ne_nil _ _ h := by simpa using h

def plainRequest : Request :=
  { scriptedRequest with options := {}, schedule := .latest }

theorem openSource_plainRequest : Collect.openSource scriptedWeb plainRequest.options plainRequest.source =
    .ok (Supply.page [scriptedPage], ({} : Ledger).count) := by
  have hPage : Collect.page scriptedWeb plainRequest.options plainRequest.source = .ok scriptedPage := by
    decide +kernel
  unfold Collect.openSource
  rw [show plainRequest.source.kind = .page from rfl]
  dsimp only
  rw [hPage]

theorem drain_plainRequest : Collect.drain plainRequest.options (Supply.page [scriptedPage]) ({} : Ledger).count =
    .ok ([scriptedPage], ({} : Ledger).count) := by
  rw [Collect.drain_of_some rfl, Collect.drain_of_none rfl]
  rfl

theorem collects_plainRequest : plainRequest.Collects scriptedWeb :=
  Request.collects_of_no_assets rfl openSource_plainRequest drain_plainRequest

theorem owes_plainRequest : ∃ fetched,
    ((plainRequest.plan scriptedWeb).start (Supply.page [scriptedPage]) ({} : Ledger).count).Owes
      [scriptedPage] fetched := by
  obtain ⟨_, _, _, _, fetched, _, hOpen, hDrain, hFetch⟩ := collects_plainRequest
  cases openSource_plainRequest.symm.trans hOpen
  cases drain_plainRequest.symm.trans hDrain
  exact ⟨fetched, plainRequest.owes_start hOpen hDrain hFetch⟩

/-- A run on the page that never gets through to its listener, and is stopped by it after two reports. -/
theorem plainRequest_progress_rises :
    let listener : Listener Nat :=
      { hear := fun _ heard => (.error "busy", heard + 1), stops := fun heard => 2 ≤ heard }
    plainRequest.Collects scriptedWeb ∧
    ∃ report, execute scriptedWeb (plainRequest.heardBy listener 0) = .ok report ∧
      report.progress.getLast?.map (·.percent) = some 100 ∧
      (∃ analyzed, report.progress =
        ⟨0, "Collecting sources"⟩ :: (analyzed ++ closing plainRequest.toggles report.cancelled)) ∧
      report.progress.Pairwise fun p q => p.percent ≤ q.percent := by
  intro listener
  obtain ⟨hReturns, -, hReports⟩ := progress_rises_in_stages scriptedWeb plainRequest listener 0
  obtain ⟨report, hReport⟩ := hReturns collects_plainRequest
  obtain ⟨-, ⟨_, _, analyzed, -, -, hStages⟩, hLast, hRises, -⟩ := hReports report hReport
  exact ⟨collects_plainRequest, report, hReport, hLast, ⟨analyzed, hStages⟩, hRises⟩

end Run

end WebAudit
