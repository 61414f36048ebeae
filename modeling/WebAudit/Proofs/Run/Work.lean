import WebAudit.Proofs.Collect.Agreement
import WebAudit.Run.Work

/-!
# The steps of a run

A run submits a record, finds that its source gives no more, waits, or merges an outcome. A turn is a sequence of
such steps, and so is a run. What every step keeps is therefore kept by every run, whatever a wait brings and in
whatever order.
-/

namespace WebAudit.Run

open Collect (Supply Ledger)

variable {plan : Plan}

def Plan.Analyzes (plan : Plan) (r : Record) (o : Outcome) : Prop :=
  r.analyze plan.toggles plan.nesting plan.followAssets = .ok o

theorem Job.analyzes {job : Job plan} {o : Outcome} (h : job.result = .ok o) : plan.Analyzes job.record o :=
  job.result_eq.symm.trans h

theorem Plan.Analyzes.record {r : Record} {o : Outcome} (h : plan.Analyzes r o) : o.record = r :=
  (Record.analyze_cases h).1

theorem Book.noteAll_eq (b : Book) (events : List Event) :
    ∃ ledger, b.ledger.Agrees ledger ∧ b.noteAll events = { b with ledger } := by
  induction events generalizing b with
  | nil => exact ⟨b.ledger, .refl _, rfl⟩
  | cons e es ih =>
    obtain ⟨ledger, hAgrees, hNote⟩ := ih (b.note e)
    exact ⟨ledger, ((Ledger.Agrees.refl b.ledger).note_right e).trans hAgrees, hNote⟩

namespace State

theorem book_submit (s : State plan) (r : Record) :
    ∃ ledger, s.book.ledger.Agrees ledger ∧
      (s.submit r).book = { s.book with ledger, submitted := s.book.submitted + 1 } :=
  Book.noteAll_eq { s.book with submitted := s.book.submitted + 1 } (plan.job r).events

/-! ## Steps -/

/-- What a run does in one step, and the outcome that it merges if it does. -/
inductive Step (s : State plan) : List Outcome → State plan → Prop
  | submitted {r : Record} {s' : State plan} (h : s.next = .ok (some r, s')) : Step s [] (s'.submit r)
  | exhausted {s' : State plan} (h : s.next = .ok (none, s')) : Step s [] s'
  | waited (h : s.done = []) : Step s [] s.wait
  | merged {job : Job plan} {rest : List (Job plan)} {o : Outcome} {assets : List Record} {ledger : Ledger}
      (hDone : s.done = job :: rest) (hResult : job.result = .ok o)
      (hFetch : plan.fetchAll o.record.path o.assets (s.book.merge o).ledger = .ok (assets, ledger)) :
      Step s [o] (s.settle o assets ledger)

inductive Steps : State plan → List Outcome → State plan → Prop
  | refl (s : State plan) : Steps s [] s
  | step {s s' s'' : State plan} {os os' : List Outcome} (h : s.Step os s') (h' : Steps s' os' s'') :
      Steps s (os ++ os') s''

variable {s s' s'' : State plan} {os os' : List Outcome}

theorem Steps.single (h : s.Step os s') : s.Steps os s' := by
  have hSteps := Steps.step h (.refl s')
  rwa [List.append_nil] at hSteps

theorem Steps.trans (h : s.Steps os s') (h' : s'.Steps os' s'') : s.Steps (os ++ os') s'' := by
  induction h with
  | refl => exact h'
  | step hStep _ ih =>
    rw [List.append_assoc]
    exact .step hStep (ih h')

theorem book_of_next {record : Option Record} (h : s.next = .ok (record, s')) :
    ∃ ledger exhausted, s'.book = { s.book with ledger, exhausted } := by
  obtain ⟨_, _, -, -, rfl⟩ | ⟨-, -, -, rfl⟩ | ⟨_, _, -, -, -, rfl⟩ := next_cases h
  all_goals exact ⟨_, _, rfl⟩

/-- The tally changes by merging only. -/
theorem Step.tally (h : s.Step os s') : s'.book.tally = os.foldl Tally.merge s.book.tally := by
  cases h with
  | @submitted r t hNext =>
    obtain ⟨ledger, exhausted, hBook⟩ := book_of_next hNext
    obtain ⟨ledger', -, hSubmit⟩ := t.book_submit r
    rw [hSubmit, hBook]
    rfl
  | exhausted hNext =>
    obtain ⟨ledger, exhausted, hBook⟩ := book_of_next hNext
    rw [hBook]
    rfl
  | waited _ => rfl
  | merged _ _ _ => rfl

theorem Steps.tally (h : s.Steps os s') : s'.book.tally = os.foldl Tally.merge s.book.tally := by
  induction h with
  | refl => rfl
  | step hStep _ ih => rw [ih, hStep.tally, List.foldl_append]

/-- What is merged are outcomes of records. -/
theorem Step.analyzes (h : s.Step os s') : ∀ o ∈ os, plan.Analyzes o.record o := by
  cases h with
  | merged _ hResult _ =>
    have hAnalyzes := Job.analyzes hResult
    refine List.forall_mem_singleton.mpr ?_
    rwa [← hAnalyzes.record] at hAnalyzes
  | _ => exact fun _ ho => nomatch ho

theorem Steps.analyzes (h : s.Steps os s') : ∀ o ∈ os, plan.Analyzes o.record o := by
  induction h with
  | refl => exact fun _ ho => nomatch ho
  | step hStep _ ih => exact List.forall_mem_append.mpr ⟨hStep.analyzes, ih⟩

theorem done_of_next {record : Option Record} (h : s.next = .ok (record, s')) :
    s'.done = s.done ∧ s'.pending = s.pending := by
  obtain ⟨_, _, -, -, rfl⟩ | ⟨-, -, -, rfl⟩ | ⟨_, _, -, -, -, rfl⟩ := next_cases h
  all_goals exact ⟨rfl, rfl⟩

theorem steps_of_fill {count : Nat} (h : s.fill count = .ok s') : s.Steps [] s' ∧ s'.done = s.done := by
  induction count generalizing s with
  | zero =>
    cases h
    exact ⟨.refl _, rfl⟩
  | succ count ih =>
    rw [fill] at h
    split at h
    · cases h
    · rename_i hNext
      cases h
      exact ⟨.single (.exhausted hNext), (done_of_next hNext).1⟩
    · rename_i r t hNext
      obtain ⟨hSteps, hDone⟩ := ih h
      exact ⟨.step (.submitted hNext) hSteps, hDone.trans (done_of_next hNext).1⟩

def outcomesOf (jobs : List (Job plan)) : List Outcome :=
  jobs.filterMap (·.result.toOption)

theorem outcomesOf_cons {job : Job plan} {o : Outcome} (h : job.result = .ok o) (jobs : List (Job plan)) :
    outcomesOf (job :: jobs) = o :: outcomesOf jobs := by
  unfold outcomesOf
  rw [List.filterMap_cons_some]
  rw [h]
  rfl

theorem merge_cases {job : Job plan} (h : s.merge job = .ok s') :
    ∃ o assets ledger, job.result = .ok o ∧
      plan.fetchAll o.record.path o.assets (s.book.merge o).ledger = .ok (assets, ledger) ∧
      s' = s.settle o assets ledger := by
  unfold merge at h
  split at h
  · cases h
  · rename_i o hResult
    split at h
    · cases h
    · rename_i assets ledger hFetch
      cases h
      exact ⟨o, assets, ledger, hResult, hFetch, rfl⟩

/-- All that is done gets merged, in order. -/
theorem steps_of_mergeAll {jobs : List (Job plan)} (hDone : s.done = jobs) (h : mergeAll jobs s = .ok s') :
    s.Steps (outcomesOf jobs) s' ∧ s'.done = [] ∧ (outcomesOf jobs).length = jobs.length := by
  induction jobs generalizing s with
  | nil =>
    cases h
    exact ⟨.refl _, hDone, rfl⟩
  | cons job rest ih =>
    rw [mergeAll] at h
    split at h
    · cases h
    · rename_i t hMerge
      obtain ⟨o, assets, ledger, hResult, hFetch, rfl⟩ := merge_cases hMerge
      have hRest : (s.settle o assets ledger).done = rest := by
        change s.done.tail = rest
        rw [hDone, List.tail_cons]
      obtain ⟨hSteps, hEmpty, hLength⟩ := ih hRest h
      rw [outcomesOf_cons hResult]
      refine ⟨.step (.merged hDone hResult hFetch) hSteps, hEmpty, ?_⟩
      rw [List.length_cons, List.length_cons, hLength]

/-! ## Turns -/

def turnOutcomes (s : State plan) : List Outcome :=
  match s.fill (plan.inFlight - s.pending.length) with
  | .ok s => outcomesOf s.wait.done
  | .error _ => []

/-- A turn merges what its wait brings. It is the last one if nothing is in flight. -/
theorem turn_cases {x : Book ⊕ State plan} (hDone : s.done = []) (h : s.turn = .ok x) :
    (∃ s', x = .inl s'.book ∧ s.fill (plan.inFlight - s.pending.length) = .ok s' ∧ s'.pending = [] ∧
      s'.done = [] ∧ s.turnOutcomes = []) ∨
    ∃ s', x = .inr s' ∧ s.Steps s.turnOutcomes s' ∧ s'.done = [] ∧ s.turnOutcomes ≠ [] := by
  unfold turn at h
  unfold turnOutcomes
  split at h
  · cases h
  · rename_i t hFill
    rw [hFill]
    dsimp only
    obtain ⟨hSteps, hSame⟩ := steps_of_fill hFill
    rw [hDone] at hSame
    split at h
    · rename_i hEmpty
      cases h
      have hPending : t.pending = [] := List.isEmpty_iff.mp hEmpty
      refine .inl ⟨t, rfl, rfl, hPending, hSame, ?_⟩
      change outcomesOf (plan.schedule.finished t.waits t.pending) = []
      rw [hPending, plan.schedule.finished_nil]
      rfl
    · rename_i hSome
      split at h
      · cases h
      · rename_i u hMerge
        cases h
        obtain ⟨hMerged, hEmpty, hLength⟩ := steps_of_mergeAll rfl hMerge
        refine .inr ⟨u, rfl, ?_, hEmpty, ?_⟩
        · exact hSteps.trans (.step (.waited hSame) hMerged)
        · have hSome : t.wait.done ≠ [] := plan.schedule.finished_ne_nil t.waits (by simpa using hSome)
          rwa [← List.length_pos_iff, hLength, List.length_pos_iff]

/-! ## Runs -/

theorem work_eq (isCancelled : List Progress → Bool) (s : State plan) :
    s.work isCancelled =
      if isCancelled s.book.reports then .ok (true, s.book.note (.runCancelled s.book.completed))
      else
        match s.turn with
        | .error fault => .error fault
        | .ok (.inl b) => .ok (false, b)
        | .ok (.inr s) => s.work isCancelled := by
  rw [work]
  split
  · rfl
  · split <;> simp_all

/-- What follows for a run from what a turn leaves to do holds of every run. -/
theorem work_induction {motive : State plan → Prop}
    (step : ∀ s, (∀ s', s.turn = .ok (.inr s') → motive s') → motive s) (s : State plan) : motive s := by
  refine step s ?_
  intro s' hTurn
  exact work_induction step s'
termination_by (s.load, s.held.length)
decreasing_by exact (less_of_turn hTurn).lex

def merged (isCancelled : List Progress → Bool) (s : State plan) : List Outcome :=
  if isCancelled s.book.reports then []
  else
    match _h : s.turn with
    | .ok (.inr s') => s.turnOutcomes ++ s'.merged isCancelled
    | _ => []
termination_by (s.load, s.held.length)
decreasing_by exact (less_of_turn _h).lex

variable {isCancelled : List Progress → Bool}

theorem merged_of_cancelled (h : isCancelled s.book.reports = true) : s.merged isCancelled = [] := by
  rw [merged, if_pos h]

theorem merged_of_turn (hGoOn : isCancelled s.book.reports = false) (hTurn : s.turn = .ok (.inr s')) :
    s.merged isCancelled = s.turnOutcomes ++ s'.merged isCancelled := by
  rw [merged, hGoOn, if_neg Bool.false_ne_true]
  split
  · rename_i hTurn'
    rw [hTurn] at hTurn'
    cases hTurn'
    rfl
  · rename_i hNo
    exact (hNo _ hTurn).elim

theorem merged_of_end {b : Book} (hTurn : s.turn = .ok (.inl b)) : s.merged isCancelled = [] := by
  rw [merged]
  split
  · rfl
  · split
    · rename_i hTurn'
      rw [hTurn] at hTurn'
      cases hTurn'
    · rfl

/-- A run that returns has gone the steps that merge its outcomes. -/
theorem steps_of_work {cancelled : Bool} {b : Book} (hDone : s.done = [])
    (h : s.work isCancelled = .ok (cancelled, b)) :
    ∃ s', s.Steps (s.merged isCancelled) s' ∧
      b = if cancelled then s'.book.note (.runCancelled s'.book.completed) else s'.book := by
  induction s using work_induction with
  | step s ih =>
    rw [work_eq] at h
    split at h
    · rename_i hStop
      cases h
      rw [merged_of_cancelled hStop]
      exact ⟨s, .refl s, rfl⟩
    · rename_i hGoOn
      split at h
      · cases h
      · rename_i hTurn
        cases h
        obtain ⟨s', ⟨⟩, hFill, -⟩ | ⟨_, ⟨⟩, -⟩ := turn_cases hDone hTurn
        rw [merged_of_end hTurn]
        exact ⟨s', (steps_of_fill hFill).1, rfl⟩
      · rename_i t hTurn
        obtain ⟨_, ⟨⟩, -⟩ | ⟨_, ⟨⟩, hSteps, hEmpty, -⟩ := turn_cases hDone hTurn
        obtain ⟨s', hRest, hBook⟩ := ih t hTurn hEmpty h
        rw [merged_of_turn (by simpa using hGoOn) hTurn]
        exact ⟨s', hSteps.trans hRest, hBook⟩

end State

end WebAudit.Run
