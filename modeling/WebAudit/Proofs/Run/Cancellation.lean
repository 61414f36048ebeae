import WebAudit.Proofs.Run.WellFormed

/-!
# Cancelled runs

Whether a run is to stop is looked at once in each turn, before anything is submitted. What a turn does depends on
the turns before it, and on what its wait brings. So a run that is stopped has done the first turns of the run that
is not and whose waits bring the same, and it reports what these merged, without a word on imports.
-/

namespace WebAudit.Run

open Collect (Supply Ledger World)

structure Turn where
  /-- What was reported when the run could be stopped. -/
  before : List Progress
  merged : List Outcome

namespace State

variable {plan : Plan} {s s' : State plan}

/-! ## Turns -/

/-- The turns of a run that nothing stops. The last one merges nothing. -/
def turns (s : State plan) : List Turn :=
  match _h : s.turn with
  | .ok (.inr s') => ⟨s.book.reports, s.turnOutcomes⟩ :: s'.turns
  | _ => [⟨s.book.reports, []⟩]
termination_by (s.load, s.held.length)
decreasing_by exact (less_of_turn _h).lex

theorem turns_of_turn (hTurn : s.turn = .ok (.inr s')) :
    s.turns = ⟨s.book.reports, s.turnOutcomes⟩ :: s'.turns := by
  rw [turns]
  split
  · rename_i hTurn'
    rw [hTurn] at hTurn'
    cases hTurn'
    rfl
  · rename_i hNo
    exact (hNo _ hTurn).elim

theorem turns_of_end (h : ∀ s', s.turn ≠ .ok (.inr s')) : s.turns = [⟨s.book.reports, []⟩] := by
  rw [turns]
  split
  · rename_i hTurn
    exact absurd hTurn (h _)
  · rfl

/-- A run has a first turn, and then its other turns if that was not the last. -/
theorem turns_cases (s : State plan) :
    (s.turns = [⟨s.book.reports, []⟩] ∧ ∀ s', s.turn ≠ .ok (.inr s')) ∨
    ∃ s', s.turn = .ok (.inr s') ∧ s.turns = ⟨s.book.reports, s.turnOutcomes⟩ :: s'.turns := by
  by_cases hMore : ∃ s', s.turn = .ok (.inr s')
  · obtain ⟨s', hTurn⟩ := hMore
    exact .inr ⟨s', hTurn, turns_of_turn hTurn⟩
  · have hEnd : ∀ s', s.turn ≠ .ok (.inr s') := fun s' hTurn => hMore ⟨s', hTurn⟩
    exact .inl ⟨turns_of_end hEnd, hEnd⟩

theorem exists_first_turn (s : State plan) : ∃ os back, s.turns = ⟨s.book.reports, os⟩ :: back := by
  obtain ⟨hTurns, -⟩ | ⟨_, -, hTurns⟩ := s.turns_cases
  · exact ⟨_, _, hTurns⟩
  · exact ⟨_, _, hTurns⟩

/-- Each turn but the last reports something. -/
theorem length_reports_lt_of_turn (hDone : s.done = []) (hBalanced : s.Balanced) (h : s.turn = .ok (.inr s')) :
    s.book.reports.length < s'.book.reports.length ∧ s'.done = [] ∧ s'.Balanced := by
  obtain ⟨_, ⟨⟩, -⟩ | ⟨_, ⟨⟩, hSteps, hEmpty, hSome⟩ := turn_cases hDone h
  obtain ⟨news, hNews, hAll⟩ := hSteps.reports hBalanced
  have hMore := List.length_pos_iff.mpr hSome
  rw [hAll.length_eq] at hMore
  rw [hNews, List.length_append]
  exact ⟨by omega, hEmpty, hSteps.balanced hBalanced⟩

/-! ## Runs by their turns -/

variable {isCancelled : List Progress → Bool}

/-- Without a stop a run merges what its turns do. -/
theorem merged_eq_turns (hNever : ∀ reports, isCancelled reports = false) (s : State plan) :
    s.merged isCancelled = s.turns.flatMap (·.merged) := by
  induction s using work_induction with
  | step s ih =>
    obtain ⟨hTurns, hEnd⟩ | ⟨_, hTurn, hTurns⟩ := s.turns_cases
    · rw [hTurns, merged, hNever, if_neg Bool.false_ne_true]
      split
      · rename_i hTurn
        exact absurd hTurn (hEnd _)
      · rfl
    · rw [hTurns, merged_of_turn (hNever _) hTurn, ih _ hTurn, List.flatMap_cons]

/-- A run that is first stopped before some turn returns, and has merged what the turns before it do. -/
theorem work_of_stop {front back : List Turn} {stop : Turn} (hTurns : s.turns = front ++ stop :: back)
    (hGoOn : ∀ t ∈ front, isCancelled t.before = false) (hStop : isCancelled stop.before = true) :
    (∃ b, s.work isCancelled = .ok (true, b)) ∧ s.merged isCancelled = front.flatMap (·.merged) := by
  induction front generalizing s with
  | nil =>
    have hNow : isCancelled s.book.reports = true := by
      obtain ⟨os, back', hHead⟩ := s.exists_first_turn
      rw [hHead] at hTurns
      cases hTurns
      exact hStop
    refine ⟨⟨s.book.note (.runCancelled s.book.completed), ?_⟩, merged_of_cancelled hNow⟩
    rw [work_eq, if_pos hNow]
  | cons t front ih =>
    obtain ⟨hHead, -⟩ | ⟨s', hTurn, hHead⟩ := s.turns_cases
    · rw [hHead] at hTurns
      simp at hTurns
    · rw [hHead, List.cons_append] at hTurns
      obtain ⟨rfl, hRest⟩ := List.cons.inj hTurns
      obtain ⟨hFirst, hLater⟩ := List.forall_mem_cons.mp hGoOn
      obtain ⟨⟨c, hWork⟩, hMerged⟩ := ih hRest hLater
      refine ⟨⟨c, ?_⟩, ?_⟩
      · rw [work_eq, hFirst, if_neg Bool.false_ne_true, hTurn]
        exact hWork
      · rw [merged_of_turn hFirst hTurn, hMerged, List.flatMap_cons]

end State

/-! ## Reports -/

theorem counts_of_execute {world : World} {request : Request} {report : Report} {supply : Supply} {ledger : Ledger}
    (h : execute world request = .ok report)
    (hOpen : Collect.openSource world request.options request.source = .ok (supply, ledger)) :
    let tally := (((request.plan world).start supply ledger).merged request.isCancelled).foldl Tally.merge {}
    report.filesAnalyzed = tally.filesAnalyzed ∧ report.totalLines = tally.totalLines ∧
      report.kinds = tally.kinds := by
  intro tally
  obtain ⟨supply', ledger', cancelled, b, hOpen', hWork, rfl⟩ := execute_cases h
  cases hOpen.symm.trans hOpen'
  have hTally : b.tally = tally := (goesOn_of_work hWork).1
  rw [← hTally]
  unfold Book.judgeImports
  split <;> exact ⟨rfl, rfl, rfl⟩

/-- A run that was stopped reports what it merged and nothing else. -/
theorem findings_of_stopped {world : World} {request : Request} {report : Report} {supply : Supply}
    {ledger : Ledger} (h : execute world request = .ok report)
    (hOpen : Collect.openSource world request.options request.source = .ok (supply, ledger))
    (hCancelled : report.cancelled = true) :
    report.findings =
      finalize ((((request.plan world).start supply ledger).merged request.isCancelled).flatMap (·.findings)) := by
  obtain ⟨supply', ledger', merged, hOpen', rfl, -, hFindings⟩ := findings_of_execute h
  cases hOpen.symm.trans hOpen'
  rw [hFindings, hCancelled]
  exact congrArg finalize (List.append_nil _)

theorem id_notMem_recordRules : ∀ rule ∈ recordRules,
    rule.id ≠ Imports.circularDependency.id ∧ rule.id ≠ Imports.unusedFile.id := by
  decide +kernel

/-- No finding of a record is about imports between records. -/
theorem ruleId_of_analyzes {plan : Plan} {o : Outcome} (h : plan.Analyzes o.record o) :
    ∀ f ∈ o.findings, f.ruleId ≠ Imports.circularDependency.id ∧ f.ruleId ≠ Imports.unusedFile.id := by
  intro f hf
  obtain ⟨rule, hRule, -, hit, -, hFinding⟩ := Record.yields_of_analyze h f hf
  rw [(Hit.isOf_finding? hFinding).ruleId]
  exact id_notMem_recordRules rule hRule

/-- What a run reports is, apart from ids, at least what it merged. -/
theorem subperm_of_execute {world : World} {request : Request} {report : Report} {supply : Supply}
    {ledger : Ledger} (h : execute world request = .ok report)
    (hOpen : Collect.openSource world request.options request.source = .ok (supply, ledger)) :
    (((((request.plan world).start supply ledger).merged request.isCancelled).flatMap (·.findings)).map
      Finding.withoutId).Subperm (report.findings.map Finding.withoutId) := by
  obtain ⟨supply', ledger', merged, hOpen', rfl, -, hFindings⟩ := findings_of_execute h
  cases hOpen.symm.trans hOpen'
  rw [hFindings]
  refine (List.Sublist.subperm ?_).trans (map_withoutId_finalize _).symm.subperm
  exact (List.sublist_append_left _ _).map Finding.withoutId

def Request.unstopped (request : Request) : Request :=
  { request with isCancelled := fun _ => false }

/-- A run that is first stopped before some turn is a prefix of the run that is not, whatever the waits bring
to both. It returns, has merged what the turns before that one merge, counts that and nothing else, and reports its
findings only. All of them are findings of the whole run, if that returns. -/
theorem stopped_run_is_prefix (world : World) (request : Request) {supply : Supply} {ledger : Ledger}
    {front back : List Turn} {stop : Turn}
    (hOpen : Collect.openSource world request.options request.source = .ok (supply, ledger))
    (hTurns : ((request.unstopped.plan world).start supply ledger).turns = front ++ stop :: back)
    (hGoOn : ∀ t ∈ front, request.isCancelled t.before = false)
    (hStop : request.isCancelled stop.before = true) :
    let merged := ((request.plan world).start supply ledger).merged request.isCancelled
    let tally := merged.foldl Tally.merge {}
    merged = front.flatMap (·.merged) ∧
    merged <+: ((request.unstopped.plan world).start supply ledger).merged request.unstopped.isCancelled ∧
    ∃ report, execute world request = .ok report ∧ report.cancelled = true ∧
      (report.filesAnalyzed = tally.filesAnalyzed ∧ report.totalLines = tally.totalLines ∧
        report.kinds = tally.kinds) ∧
      (report.findings.map Finding.withoutId).Perm ((merged.flatMap (·.findings)).map Finding.withoutId) ∧
      (∀ f ∈ report.findings,
        f.ruleId ≠ Imports.circularDependency.id ∧ f.ruleId ≠ Imports.unusedFile.id) ∧
      (report.summary.total = report.findings.length ∧
        (∀ s, report.summary.bySeverity s = report.findings.countP (·.severity == s)) ∧
        ∀ c, report.summary.byConcern c = report.findings.countP (·.concern == c)) ∧
      ∀ whole, execute world request.unstopped = .ok whole →
        (report.findings.map Finding.withoutId).Subperm (whole.findings.map Finding.withoutId) := by
  intro merged tally
  obtain ⟨⟨b, hWork⟩, hMerged⟩ := State.work_of_stop hTurns hGoOn hStop
  have hFull : ((request.unstopped.plan world).start supply ledger).merged request.unstopped.isCancelled =
      merged ++ (stop :: back).flatMap (·.merged) := by
    have hNever : ∀ reports, request.unstopped.isCancelled reports = false := fun _ => rfl
    rw [State.merged_eq_turns hNever, hTurns, List.flatMap_append, ← hMerged]
    rfl
  have hReport := execute_of_work hOpen hWork
  have hCancelled := b.cancelled_close request.toggles true
  have hFindings := findings_of_stopped hReport hOpen hCancelled
  have hPerm := map_withoutId_finalize (merged.flatMap (·.findings))
  rw [← hFindings] at hPerm
  refine ⟨hMerged, ⟨_, hFull.symm⟩, _, hReport, hCancelled, counts_of_execute hReport hOpen, hPerm, ?_,
    ⟨rfl, fun _ => rfl, fun _ => rfl⟩, ?_⟩
  · intro f hf
    rw [hFindings] at hf
    obtain ⟨g, hg, rank, rfl⟩ := exists_found hf
    obtain ⟨o, ho, hg⟩ := List.mem_flatMap.mp hg
    have hRule : (g.withRank rank).ruleId = g.ruleId := (congrArg Finding.ruleId (g.withoutId_withRank rank) :)
    rw [hRule]
    exact ruleId_of_analyzes ((goesOn_of_work hWork).2.1 o ho) g hg
  · intro whole hWhole
    have hAll := subperm_of_execute hWhole hOpen
    rw [hFull, List.flatMap_append, List.map_append] at hAll
    exact hPerm.subperm.trans ((List.sublist_append_left _ _).subperm.trans hAll)

def haltedRequest : Request :=
  { plainRequest with isCancelled := fun reports => 2 ≤ reports.length }

theorem haltedRequest_is_prefix :
    ∃ supply ledger front stop back,
      Collect.openSource scriptedWeb haltedRequest.options haltedRequest.source = .ok (supply, ledger) ∧
      ((haltedRequest.unstopped.plan scriptedWeb).start supply ledger).turns = [front] ++ stop :: back ∧
      haltedRequest.isCancelled front.before = false ∧ haltedRequest.isCancelled stop.before = true ∧
      ((haltedRequest.plan scriptedWeb).start supply ledger).merged haltedRequest.isCancelled = front.merged ∧
      ∃ report whole, execute scriptedWeb haltedRequest = .ok report ∧ report.cancelled = true ∧
        execute scriptedWeb haltedRequest.unstopped = .ok whole ∧
        (report.findings.map Finding.withoutId).Subperm (whole.findings.map Finding.withoutId) := by
  obtain ⟨whole, hWhole⟩ := collects_plainRequest.returns
  obtain ⟨fetched, hOwes⟩ := owes_plainRequest
  let start := (plainRequest.plan scriptedWeb).start (Supply.page [scriptedPage]) ({} : Ledger).count
  have hNever : ∀ reports, plainRequest.isCancelled reports = false := fun _ => rfl
  obtain ⟨_, -, hPerm⟩ := hOwes.work rfl (plainRequest.inFlight_pos scriptedWeb) hNever
  obtain ⟨s', hTurn⟩ : ∃ s', start.turn = .ok (.inr s') := by
    obtain ⟨x, hTurn⟩ := hOwes.turn_ok rfl
    obtain ⟨t, rfl, -⟩ | ⟨t, rfl, -⟩ := State.turn_cases rfl hTurn
    · rw [State.merged_of_end hTurn] at hPerm
      cases hPerm.length_eq
    · exact ⟨t, hTurn⟩
  obtain ⟨os, back, hRest⟩ := s'.exists_first_turn
  have hSplit : start.turns = [⟨start.book.reports, start.turnOutcomes⟩] ++ ⟨s'.book.reports, os⟩ :: back := by
    rw [State.turns_of_turn hTurn, hRest]
    rfl
  obtain ⟨hLess, -⟩ := State.length_reports_lt_of_turn rfl (State.balanced_start ..) hTurn
  have hGoOn : haltedRequest.isCancelled start.book.reports = false := rfl
  have hStop : haltedRequest.isCancelled s'.book.reports = true := decide_eq_true hLess
  obtain ⟨hMerged, -, report, hReport, hCancelled, -, -, -, -, hSubperm⟩ :=
    stopped_run_is_prefix scriptedWeb haltedRequest openSource_plainRequest hSplit
      (List.forall_mem_singleton.mpr hGoOn) hStop
  exact ⟨_, _, _, _, _, openSource_plainRequest, hSplit, hGoOn, hStop, hMerged.trans (List.append_nil _),
    report, whole, hReport, hCancelled, hWhole, hSubperm whole hWhole⟩

end WebAudit.Run
