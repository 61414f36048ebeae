import Mathlib.Data.List.Forall2
import WebAudit.Proofs.Analysis.Selection
import WebAudit.Proofs.Finding.Order
import WebAudit.Proofs.Related
import WebAudit.Proofs.Run.Work
import WebAudit.Run.Audit

/-!
# What toggles do to a run

A run for some concerns and the same run for all of them go the same way, step by step, if the same
analyses are done whenever they wait: they collect the same records, submit them in the same turns, merge
them in the same order and stop at the same point. Their accounts differ in the findings of the other
concerns and in events. So in the end the first reports what the second does, less those findings.
-/

namespace WebAudit

/-! ## Tallies -/

theorem Imports.isOf_findings {batch : Batch} {paths patterns : List String} {f : Finding}
    (hf : f ∈ findings batch paths patterns) : f.IsOf circularDependency ∨ f.IsOf unusedFile := by
  unfold findings at hf
  rcases List.mem_append.mp hf with hf | hf
  · obtain ⟨c, -, rfl⟩ := List.mem_map.mp hf
    exact .inl (isOf_finding _ _ _ _ _)
  · obtain ⟨path, -, rfl⟩ := List.mem_map.mp hf
    exact .inr (isOf_finding _ _ _ _ _)

theorem Imports.isKnown_findings {batch : Batch} {paths patterns : List String} {f : Finding}
    (hf : f ∈ findings batch paths patterns) : f.IsKnown := by
  rcases isOf_findings hf with hOf | hOf
  · exact ⟨circularDependency, by simp [reportedRules], hOf⟩
  · exact ⟨unusedFile, by simp [reportedRules], hOf⟩

theorem Imports.concern_findings {batch : Batch} {paths patterns : List String} {f : Finding}
    (hf : f ∈ findings batch paths patterns) : f.concern = .quality := by
  rcases isOf_findings hf with hOf | hOf
  · exact hOf.concern
  · exact hOf.concern

structure Tally.Narrows (toggles : Toggles) (t full : Tally) : Prop where
  findings : t.findings = full.findings.filter toggles.selects
  imports : toggles.isEnabled .quality = true → t.imports = full.imports
  scriptPaths : t.scriptPaths = full.scriptPaths
  kinds : t.kinds = full.kinds
  filesAnalyzed : t.filesAnalyzed = full.filesAnalyzed
  totalLines : t.totalLines = full.totalLines
  known : ∀ f ∈ full.findings, f.IsKnown

namespace Tally.Narrows

variable {toggles : Toggles} {t full : Tally}

theorem count (h : t.Narrows toggles full) (r : Record) :
    (t.count r).Narrows toggles (full.count r) where
  findings := h.findings
  imports := h.imports
  scriptPaths := by simp only [Tally.count, h.scriptPaths]
  kinds := by simp only [Tally.count, h.kinds]
  filesAnalyzed := by simp only [Tally.count, h.filesAnalyzed]
  totalLines := by simp only [Tally.count, h.totalLines]
  known := h.known

theorem merge (h : t.Narrows toggles full) {o o' : Outcome} (hOutcome : o.Narrows toggles o') :
    (t.merge o).Narrows toggles (full.merge o') := by
  have hCount : (if o.record.synthetic then t else t.count o.record).Narrows toggles
      (if o.record.synthetic then full else full.count o.record) := by
    split
    · exact h
    · exact h.count o.record
  unfold Tally.merge
  dsimp only
  rw [← hOutcome.record]
  refine ⟨?_, ?_, hCount.scriptPaths, hCount.kinds, hCount.filesAnalyzed, hCount.totalLines, ?_⟩
  · rw [List.filter_append, ← hCount.findings, ← hOutcome.findings]
  · intro hQuality
    dsimp only
    rw [hOutcome.imports hQuality, hCount.imports hQuality]
  · intro f hf
    rcases List.mem_append.mp hf with hf | hf
    · exact hCount.known f hf
    · exact hOutcome.known f hf

theorem withImports (h : t.Narrows toggles full) :
    (if toggles.isEnabled .quality then t.withImports else t).Narrows toggles full.withImports := by
  have hKnown : ∀ f ∈ full.withImports.findings, f.IsKnown := by
    intro f hf
    rcases List.mem_append.mp hf with hf | hf
    · exact h.known f hf
    · exact Imports.isKnown_findings hf
  have hFilter : full.withImports.findings.filter toggles.selects = t.findings ++
      if toggles.isEnabled .quality then Imports.findings full.imports full.scriptPaths else [] := by
    have hConcern : ∀ f ∈ Imports.findings full.imports full.scriptPaths, f.concern = .quality :=
      fun f hf => Imports.concern_findings hf
    rw [Tally.withImports, List.filter_append, ← h.findings, toggles.filter_selects hConcern]
  split
  · rename_i hOn
    refine ⟨?_, h.imports, h.scriptPaths, h.kinds, h.filesAnalyzed, h.totalLines, hKnown⟩
    rw [hFilter, if_pos hOn, Tally.withImports, h.imports hOn, h.scriptPaths]
  · rename_i hOff
    refine ⟨?_, h.imports, h.scriptPaths, h.kinds, h.filesAnalyzed, h.totalLines, hKnown⟩
    rw [hFilter, if_neg hOff, List.append_nil]

/-- Leaving findings of other concerns out does not renumber the rest. -/
theorem finalize (h : t.Narrows toggles full) :
    WebAudit.finalize t.findings = (WebAudit.finalize full.findings).filter toggles.selects := by
  rw [h.findings, filter_finalize]
  · intro f rank
    unfold Finding.withRank
    split <;> rfl
  · intro f hf g hg hId
    rw [Toggles.selects, Toggles.selects,
      Finding.concern_eq_of_id_eq (h.known f hf) (h.known g hg) hId]

end Tally.Narrows

namespace Run

open Collect (Supply Ledger World)

/-! ## Accounts -/

/-- The account is what the selected concerns leave of a full one, events aside. -/
structure Book.Narrows (toggles : Toggles) (b full : Book) : Prop where
  ledger : b.ledger.Agrees full.ledger
  tally : b.tally.Narrows toggles full.tally
  submitted : b.submitted = full.submitted
  completed : b.completed = full.completed
  exhausted : b.exhausted = full.exhausted
  reports : b.reports = full.reports

namespace Book.Narrows

variable {toggles : Toggles} {b full : Book}

theorem note_left (h : b.Narrows toggles full) (event : Event) :
    (b.note event).Narrows toggles full :=
  { h with ledger := h.ledger.note_left event }

theorem note_right (h : b.Narrows toggles full) (event : Event) :
    b.Narrows toggles (full.note event) :=
  { h with ledger := h.ledger.note_right event }

theorem noteAll (h : b.Narrows toggles full) (events events' : List Event) :
    (b.noteAll events).Narrows toggles (full.noteAll events') := by
  induction events generalizing b with
  | nil =>
    induction events' generalizing full with
    | nil => exact h
    | cons e es ih => exact ih (h.note_right e)
  | cons e es ih => exact ih (h.note_left e)

theorem report (h : b.Narrows toggles full) (percent : Rat) (message : String) :
    (b.report percent message).Narrows toggles (full.report percent message) :=
  { h with reports := congrArg (· ++ _) h.reports }

theorem merge (h : b.Narrows toggles full) {o o' : Outcome} (hOutcome : o.Narrows toggles o') :
    (b.merge o).Narrows toggles (full.merge o') := by
  refine Narrows.note_left (Narrows.note_right ?_ _) _
  exact { h with tally := h.tally.merge hOutcome }

theorem complete (h : b.Narrows toggles full) (plan : Plan) (waiting : Nat) (path : String) :
    (b.complete plan waiting path).Narrows toggles (full.complete plan waiting path) := by
  unfold Book.complete Book.expected
  dsimp only
  rw [h.completed, h.submitted, h.exhausted]
  refine Narrows.report ?_ _ _
  exact ⟨h.ledger, h.tally, rfl, rfl, rfl, h.reports⟩

end Book.Narrows

/-! ## Turns -/

def Plan.widened (plan : Plan) : Plan :=
  { plan with toggles := .allOn }

@[simp]
theorem Plan.widened_options (plan : Plan) : plan.widened.options = plan.options := rfl

@[simp]
theorem Plan.widened_inFlight (plan : Plan) : plan.widened.inFlight = plan.inFlight := rfl

variable {plan : Plan}

theorem Plan.fetchAll_agrees (plan : Plan) {l l' : Ledger} (h : l.Agrees l') (origin : String)
    (assets : List Markup.Asset) :
    Related (fun x y => (x.1 = y.1 ∧ ∀ r ∈ x.1, r.Placed) ∧ x.2.Agrees y.2)
      (plan.fetchAll origin assets l) (plan.fetchAll origin assets l') := by
  induction assets generalizing l l' with
  | nil => exact .ok ⟨⟨rfl, by simp⟩, h⟩
  | cons a rest ih =>
    have hFetch := Collect.fetchAsset_agrees h plan.web plan.options a.url a.kind origin
    rw [fetchAll_cons, fetchAll_cons]
    rcases Related.iff_exists.mp hFetch with ⟨fault, hSome, hAll⟩ |
      ⟨⟨record, m⟩, ⟨record', m'⟩, hSome, hAll, hSame⟩
    · rw [hSome, hAll]
      exact .error _
    · rw [hSome, hAll]
      cases hSame.record
      dsimp only
      rcases Related.iff_exists.mp (ih hSame.ledger) with ⟨fault, hSome, hAll⟩ |
        ⟨⟨records, k⟩, ⟨_, k'⟩, hSome, hAll, ⟨rfl, hPlaced⟩, hLedger⟩
      · rw [hSome, hAll]
        exact .error _
      · rw [hSome, hAll]
        refine .ok ⟨⟨rfl, ?_⟩, hLedger⟩
        intro r hr
        rcases List.mem_append.mp hr with hr | hr
        · exact hSame.placed r (Option.mem_toList.mp hr)
        · exact hPlaced r hr

/-- The assets of a page are requested alike, whatever the concerns. -/
theorem Plan.fetchAll_widened (plan : Plan) (origin : String) (assets : List Markup.Asset) (l : Ledger) :
    plan.widened.fetchAll origin assets l = plan.fetchAll origin assets l := by
  induction assets generalizing l with
  | nil => rfl
  | cons a rest ih =>
    rw [fetchAll_cons, fetchAll_cons]
    simp only [ih]
    rfl

namespace State

/-- The run is where the run for all concerns is, with the same records ahead and in flight. -/
structure Narrows (s : State plan) (full : State plan.widened) : Prop where
  supply : s.supply = full.supply
  queue : s.queue = full.queue
  pending : s.pending.map (·.record) = full.pending.map (·.record)
  done : s.done.map (·.record) = full.done.map (·.record)
  waits : s.waits = full.waits
  book : s.book.Narrows plan.toggles full.book
  placedSupply : s.supply.Placed
  placed : ∀ r ∈ s.held, r.Placed

variable {s : State plan} {full : State plan.widened}

/-- The outcomes of a record for some concerns and for all of them. -/
theorem narrows_of_record {job : Job plan} {job' : Job plan.widened} (hRecord : job.record = job'.record)
    (hPlaced : job.record.Placed) :
    ∃ o o', job.result = .ok o ∧ job'.result = .ok o' ∧ o.Narrows plan.toggles o' := by
  obtain ⟨o, o', hSome, hAll, hOutcome⟩ := hPlaced.analyze plan.toggles plan.nesting plan.followAssets
  refine ⟨o, o', job.result_eq.trans hSome, job'.result_eq.trans ?_, hOutcome⟩
  rw [← hRecord]
  exact hAll

theorem Narrows.submit (h : s.Narrows full) {r : Record} (hr : r.Placed) :
    (s.submit r).Narrows (full.submit r) where
  supply := h.supply
  queue := h.queue
  pending := by
    simp only [State.submit, List.map_append, h.pending]
    rfl
  done := h.done
  waits := h.waits
  book := by
    refine Book.Narrows.noteAll ?_ _ _
    exact { h.book with submitted := congrArg (· + 1) h.book.submitted }
  placedSupply := h.placedSupply
  placed r' hr' := by
    rw [held_submit] at hr'
    rcases List.mem_append.mp hr' with hr' | hr'
    · exact h.placed r' hr'
    · exact List.mem_singleton.mp hr' ▸ hr

theorem Narrows.next (h : s.Narrows full) :
    Related (fun x y => (x.1 = y.1 ∧ ∀ r, x.1 = some r → r.Placed) ∧ x.2.Narrows y.2) s.next full.next := by
  unfold State.next
  rw [← h.queue, ← h.supply, ← h.book.exhausted]
  split
  · rename_i r rest hQueue
    have hHeld : ∀ r' ∈ r :: rest, r'.Placed := fun r' hr' =>
      h.placed r' (List.mem_append_left _ (hQueue ▸ hr'))
    obtain ⟨hHead, hTail⟩ := List.forall_mem_cons.mp hHeld
    refine .ok ⟨⟨rfl, ?_⟩, { h with supply := rfl, queue := rfl, placed := ?_ }⟩
    · rintro _ ⟨⟩
      exact hHead
    · exact List.forall_mem_append.mpr ⟨hTail, fun r' hr' => h.placed r' (List.mem_append_right _ hr')⟩
  · split
    · exact .ok ⟨⟨rfl, by simp⟩, h⟩
    · rw [Plan.widened_options]
      rcases Related.iff_exists.mp (Supply.next_agrees h.book.ledger plan.options h.placedSupply) with
        ⟨failure, hSome, hAll⟩ |
        ⟨⟨record, rest, l⟩, ⟨_, _, l'⟩, hSome, hAll, ⟨hRecord, rfl⟩, hPlaced⟩
      · rw [hSome, hAll]
        exact .error _
      · rw [hSome, hAll]
        cases hRecord.record
        refine .ok ⟨⟨rfl, hRecord.placed⟩, { h with supply := rfl, queue := rfl, placedSupply := hPlaced, book := ?_ }⟩
        exact { h.book with ledger := hRecord.ledger, exhausted := rfl }

theorem Narrows.fill (h : s.Narrows full) (count : Nat) :
    Related Narrows (s.fill count) (full.fill count) := by
  induction count generalizing s full with
  | zero => exact .ok h
  | succ count ih =>
    rw [State.fill, State.fill]
    rcases Related.iff_exists.mp h.next with ⟨fault, hSome, hAll⟩ |
      ⟨⟨record, t⟩, ⟨_, t'⟩, hSome, hAll, ⟨rfl, hPlaced⟩, hNext⟩
    · rw [hSome, hAll]
      exact .error fault
    · rw [hSome, hAll]
      cases record with
      | none => exact .ok hNext
      | some r => exact ih (hNext.submit (hPlaced r rfl))

/-- The same records are done in both runs. -/
theorem Narrows.wait (h : s.Narrows full) : s.wait.Narrows full.wait where
  supply := h.supply
  queue := h.queue
  pending := by
    simp only [State.wait, ← Schedule.unfinished_map, h.pending, h.waits]
    rfl
  done := by
    simp only [State.wait, ← Schedule.finished_map, h.pending, h.waits]
    rfl
  waits := congrArg (· + 1) h.waits
  book := h.book
  placedSupply := h.placedSupply
  placed r hr := by
    have hSplit := (plan.schedule.finished_append_unfinished s.waits s.pending).map (·.record)
    rcases List.mem_append.mp hr with hr | hr
    · exact h.placed r (List.mem_append_left _ hr)
    · have hPending : r ∈ s.pending.map (·.record) := hSplit.mem_iff.mp hr
      refine h.placed r (List.mem_append_right _ ?_)
      rw [flight_eq]
      exact List.mem_append_right _ hPending

theorem Narrows.settle (h : s.Narrows full) {o o' : Outcome} (hOutcome : o.Narrows plan.toggles o')
    {assets : List Record} (hAssets : ∀ r ∈ assets, r.Placed) {l l' : Ledger} (hLedger : l.Agrees l') :
    (s.settle o assets l).Narrows (full.settle o' assets l') where
  supply := h.supply
  queue := by simp only [State.settle, h.queue, hOutcome.derived]
  pending := h.pending
  done := by simp only [State.settle, List.map_tail, h.done]
  waits := h.waits
  book := by
    have hBook : ({ s.book.merge o with ledger := l } : Book).Narrows plan.toggles
        { full.book.merge o' with ledger := l' } := { h.book.merge hOutcome with ledger := hLedger }
    simp only [State.settle, ← h.queue, ← hOutcome.derived, ← hOutcome.record]
    exact hBook.complete plan _ _
  placedSupply := h.placedSupply
  placed r hr := by
    simp only [held, flight, State.settle, List.mem_append, List.map_append, List.map_tail] at hr
    rcases hr with ((hr | hr) | hr) | hr | hr
    · exact h.placed r (List.mem_append_left _ hr)
    · exact hOutcome.placed r (hOutcome.derived ▸ hr)
    · exact hAssets r hr
    · refine h.placed r (List.mem_append_right _ ?_)
      rw [flight_eq]
      exact List.mem_append_left _ (List.mem_of_mem_tail hr)
    · refine h.placed r (List.mem_append_right _ ?_)
      rw [flight_eq]
      exact List.mem_append_right _ hr

theorem Narrows.merge (h : s.Narrows full) {job : Job plan} {job' : Job plan.widened}
    (hRecord : job.record = job'.record) (hPlaced : job.record.Placed) :
    Related Narrows (s.merge job) (full.merge job') := by
  obtain ⟨o, o', hSome, hAll, hOutcome⟩ := narrows_of_record hRecord hPlaced
  unfold State.merge
  rw [hSome, hAll]
  dsimp only
  rw [Plan.fetchAll_widened, ← hOutcome.record, ← hOutcome.assets]
  have hFetch := plan.fetchAll_agrees (h.book.merge hOutcome).ledger o.record.path o.assets
  rcases Related.iff_exists.mp hFetch with ⟨fault, hSome, hAll⟩ |
    ⟨⟨assets, l⟩, ⟨_, l'⟩, hSome, hAll, ⟨rfl, hAssets⟩, hLedger⟩
  · rw [hSome, hAll]
    exact .error fault
  · rw [hSome, hAll]
    exact .ok (h.settle hOutcome hAssets hLedger)

theorem Narrows.mergeAll (h : s.Narrows full) {jobs : List (Job plan)} {jobs' : List (Job plan.widened)}
    (hJobs : jobs.map (·.record) = jobs'.map (·.record)) (hPlaced : ∀ job ∈ jobs, job.record.Placed) :
    Related Narrows (State.mergeAll jobs s) (State.mergeAll jobs' full) := by
  induction jobs generalizing jobs' s full with
  | nil =>
    cases jobs' with
    | nil => exact .ok h
    | cons _ _ => cases hJobs
  | cons job jobs ih =>
    cases jobs' with
    | nil => cases hJobs
    | cons job' jobs' =>
      obtain ⟨hHead, hTail⟩ := List.forall_mem_cons.mp hPlaced
      obtain ⟨hRecord, hRest⟩ := List.cons.inj hJobs
      rw [State.mergeAll, State.mergeAll]
      rcases Related.iff_exists.mp (h.merge hRecord hHead) with ⟨fault, hSome, hAll⟩ |
        ⟨t, t', hSome, hAll, hNext⟩
      · rw [hSome, hAll]
        exact .error fault
      · rw [hSome, hAll]
        exact ih hNext hRest hTail

/-- Both runs do the same in a turn, and have the same left to do. -/
theorem Narrows.turn (h : s.Narrows full) :
    Related (fun x y => (∃ b b', x = .inl b ∧ y = .inl b' ∧ b.Narrows plan.toggles b') ∨
        ∃ t t', x = .inr t ∧ y = .inr t' ∧ t.Narrows t')
      s.turn full.turn := by
  have hCount : s.pending.length = full.pending.length := by
    simpa using congrArg List.length h.pending
  unfold State.turn
  rw [Plan.widened_inFlight, ← hCount]
  rcases Related.iff_exists.mp (h.fill _) with ⟨fault, hSome, hAll⟩ | ⟨t, t', hSome, hAll, hFill⟩
  · rw [hSome, hAll]
    exact .error fault
  · rw [hSome, hAll]
    dsimp only
    have hEmpty : t.pending.isEmpty = t'.pending.isEmpty := by
      simpa using congrArg List.isEmpty hFill.pending
    rw [hEmpty]
    split
    · exact .ok (.inl ⟨_, _, rfl, rfl, hFill.book⟩)
    · have hPlaced : ∀ job ∈ t.wait.done, job.record.Placed := by
        intro job hJob
        refine hFill.wait.placed _ (List.mem_append_right _ (List.mem_map_of_mem ?_))
        exact List.mem_append_left _ hJob
      rcases Related.iff_exists.mp (hFill.wait.mergeAll hFill.wait.done hPlaced) with ⟨fault, hSome, hAll⟩ |
        ⟨u, u', hSome, hAll, hMerge⟩
      · rw [hSome, hAll]
        exact .error fault
      · rw [hSome, hAll]
        exact .ok (.inr ⟨_, _, rfl, rfl, hMerge⟩)

/-- Both runs end the same way. -/
theorem Narrows.work (h : s.Narrows full) (isCancelled : List Progress → Bool) :
    Related (fun x y => x.1 = y.1 ∧ x.2.Narrows plan.toggles y.2)
      (s.work isCancelled) (full.work isCancelled) := by
  induction s using work_induction generalizing full with
  | step s ih =>
    rw [work_eq, work_eq, ← h.book.reports]
    split
    · exact .ok ⟨rfl, (h.book.note_left _).note_right _⟩
    · rcases Related.iff_exists.mp h.turn with ⟨fault, hSome, hAll⟩ |
        ⟨_, _, hSome, hAll, ⟨b, b', rfl, rfl, hBook⟩ | ⟨t, t', rfl, rfl, hNext⟩⟩
      · rw [hSome, hAll]
        exact .error fault
      · rw [hSome, hAll]
        exact .ok ⟨rfl, hBook⟩
      · rw [hSome, hAll]
        exact ih t hSome hNext

end State

/-! ## Whole runs -/

theorem Book.Narrows.judgeImports {toggles : Toggles} {b full : Book} (h : b.Narrows toggles full)
    (cancelled : Bool) :
    (b.judgeImports toggles cancelled).tally.Narrows toggles
      (full.judgeImports .allOn cancelled).tally := by
  unfold Book.judgeImports
  rw [Toggles.isEnabled_allOn]
  cases cancelled with
  | true => exact h.tally
  | false =>
    have hImports := h.tally.withImports
    cases hQuality : toggles.isEnabled .quality <;> (rw [hQuality] at hImports; exact hImports)

end Run

end WebAudit
