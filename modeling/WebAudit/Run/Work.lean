import WebAudit.Collect.Collector
import WebAudit.Run.Progress
import WebAudit.Run.Schedule
import WebAudit.Run.Tally

/-!
# The work of a run

Work goes in turns. In each turn records are submitted for analysis, first those that wait and then those that the
source gives, up to a number that may be in flight. Then the run waits, and the outcomes that are there are merged
one by one. Of a page come further records, which wait to be submitted; these are no pages themselves. So each turn
takes from the source, or it leaves fewer pages, or it leaves fewer records, and the work ends.
-/

namespace WebAudit.Run

open Collect (Supply Ledger World Options)

structure Plan where
  toggles : Toggles
  /-- How deep data may be nested. -/
  nesting : Nat
  options : Options
  web : Web
  /-- Whether the assets of pages are requested. -/
  followAssets : Bool
  /-- How many records may be in flight. -/
  inFlight : Nat
  schedule : Schedule

/-- Why a run ends without a result. -/
inductive Fault where
  | source (fault : Collect.SourceFault)
  | analysis (fault : AnalysisFault)
  | asset (fault : Collect.AssetFault)
deriving Repr, Inhabited

structure Book where
  ledger : Ledger := {}
  tally : Tally := {}
  submitted : Nat := 0
  completed : Nat := 0
  /-- The source gives no more records. -/
  exhausted : Bool := false
  /-- The reports of progress, before they are made to rise. -/
  reports : List Progress := []

namespace Book

def note (b : Book) (event : Event) : Book :=
  { b with ledger := b.ledger.note event }

def noteAll (b : Book) (events : List Event) : Book :=
  events.foldl note b

def report (b : Book) (percent : Rat) (message : String) : Book :=
  { b with reports := b.reports ++ [⟨percent, message⟩] }

def merge (b : Book) (o : Outcome) : Book :=
  { b with tally := b.tally.merge o }.note
    (.recordAnalyzed o.record.path o.record.kind o.findings.length)

/-- How many records there will be, as far as is known; `waiting` of them are not submitted yet. -/
def expected (b : Book) (plan : Plan) (waiting : Nat) : Nat :=
  max (b.submitted + waiting + if b.exhausted then 0 else plan.inFlight) 1

def complete (b : Book) (plan : Plan) (waiting : Nat) (path : String) : Book :=
  let b := { b with completed := b.completed + 1 }
  b.report (90 * (b.completed : Rat) / (b.expected plan waiting : Rat)) ("Analyzed " ++ path)

end Book

/-- A record that was submitted, with what comes of it. -/
structure Job (plan : Plan) where
  record : Record
  result : Except AnalysisFault Outcome
  result_eq : result = record.analyze plan.toggles plan.nesting plan.followAssets

def Plan.job (plan : Plan) (r : Record) : Job plan :=
  ⟨r, r.analyze plan.toggles plan.nesting plan.followAssets, rfl⟩

def Job.events {plan : Plan} (job : Job plan) : List Event :=
  match job.result with
  | .ok o => o.events
  | .error _ => []

structure State (plan : Plan) where
  /-- What the source has still to give. -/
  supply : Supply
  /-- The records that come of pages and are not submitted yet. -/
  queue : List Record := []
  /-- What is in flight, in the order of submission. -/
  pending : List (Job plan) := []
  /-- What the last wait has brought and is not merged yet. -/
  done : List (Job plan) := []
  waits : Nat := 0
  book : Book

def Plan.fetchAll (plan : Plan) (origin : String) :
    List Markup.Asset → Ledger → Except Fault (List Record × Ledger)
  | [], l => .ok ([], l)
  | a :: rest, l =>
    match Collect.fetchAsset plan.web plan.options a.url a.kind origin l with
    | .error fault => .error (.asset fault)
    | .ok (record, l) =>
      match plan.fetchAll origin rest l with
      | .error fault => .error fault
      | .ok (records, l) => .ok (record.toList ++ records, l)

theorem Plan.fetchAll_cons (plan : Plan) (origin : String) (a : Markup.Asset) (rest : List Markup.Asset) (l : Ledger) :
    plan.fetchAll origin (a :: rest) l =
      match Collect.fetchAsset plan.web plan.options a.url a.kind origin l with
      | .error fault => .error (.asset fault)
      | .ok (record, l) =>
        match plan.fetchAll origin rest l with
        | .error fault => .error fault
        | .ok (records, l) => .ok (record.toList ++ records, l) := by
  rfl

theorem Plan.kind_fetchAll {plan : Plan} {origin : String} {assets : List Markup.Asset} {l l' : Ledger}
    {records : List Record} (hKinds : ∀ a ∈ assets, a.kind ≠ .markup)
    (h : plan.fetchAll origin assets l = .ok (records, l')) : ∀ r ∈ records, r.kind ≠ .markup := by
  induction assets generalizing l records with
  | nil =>
    cases h
    simp
  | cons a rest ih =>
    obtain ⟨hHead, hTail⟩ := List.forall_mem_cons.mp hKinds
    rw [fetchAll_cons] at h
    split at h
    · cases h
    · rename_i record m hFetch
      split at h
      · cases h
      · rename_i hRest
        cases h
        refine List.forall_mem_append.mpr ⟨?_, ih hTail hRest⟩
        intro r hr
        rw [Option.mem_toList] at hr
        subst hr
        rw [(Collect.record_of_fetchAsset hFetch).1]
        exact hHead

namespace State

variable {plan : Plan}

def next (s : State plan) : Except Fault (Option Record × State plan) :=
  match s.queue with
  | r :: rest => .ok (some r, { s with queue := rest })
  | [] =>
    if s.book.exhausted then .ok (none, s)
    else
      match s.supply.next plan.options s.book.ledger with
      | .error failure => .error (.source (.archive failure))
      | .ok (record, supply, ledger) =>
        .ok (record, { s with supply, book := { s.book with ledger, exhausted := record.isNone } })

/-- The next record comes from the queue, or else from the source as long as that gives any. -/
theorem next_cases {s s' : State plan} {record : Option Record} (h : s.next = .ok (record, s')) :
    (∃ r rest, record = some r ∧ s.queue = r :: rest ∧ s' = { s with queue := rest }) ∨
    (record = none ∧ s.queue = [] ∧ s.book.exhausted = true ∧ s' = s) ∨
    ∃ supply ledger, s.queue = [] ∧ s.book.exhausted = false ∧
      s.supply.next plan.options s.book.ledger = .ok (record, supply, ledger) ∧
      s' = { s with supply, book := { s.book with ledger, exhausted := record.isNone } } := by
  unfold next at h
  split at h
  · rename_i r rest hQueue
    cases h
    exact .inl ⟨r, rest, rfl, hQueue, rfl⟩
  · rename_i hQueue
    split at h
    · rename_i hExhausted
      cases h
      exact .inr (.inl ⟨rfl, hQueue, hExhausted, rfl⟩)
    · rename_i hOpen
      split at h
      · cases h
      · rename_i hNext
        cases h
        exact .inr (.inr ⟨_, _, hQueue, by simpa using hOpen, hNext, rfl⟩)

def submit (s : State plan) (r : Record) : State plan :=
  let job := plan.job r
  { s with
    pending := s.pending ++ [job]
    book := { s.book with submitted := s.book.submitted + 1 }.noteAll job.events }

def fill : Nat → State plan → Except Fault (State plan)
  | 0, s => .ok s
  | count + 1, s =>
    match s.next with
    | .error fault => .error fault
    | .ok (none, s) => .ok s
    | .ok (some r, s) => fill count (s.submit r)

def wait (s : State plan) : State plan :=
  { s with
    pending := plan.schedule.unfinished s.waits s.pending
    done := plan.schedule.finished s.waits s.pending
    waits := s.waits + 1 }

/-- Takes in the outcome of the first job of those done, with the assets that were fetched for it. -/
def settle (s : State plan) (o : Outcome) (assets : List Record) (ledger : Ledger) : State plan :=
  let queue := s.queue ++ o.derived ++ assets
  { s with
    queue
    done := s.done.tail
    book := { s.book.merge o with ledger }.complete plan queue.length o.record.path }

def merge (s : State plan) (job : Job plan) : Except Fault (State plan) :=
  match job.result with
  | .error fault => .error (.analysis fault)
  | .ok o =>
    match plan.fetchAll o.record.path o.assets (s.book.merge o).ledger with
    | .error fault => .error fault
    | .ok (assets, ledger) => .ok (s.settle o assets ledger)

def mergeAll : List (Job plan) → State plan → Except Fault (State plan)
  | [], s => .ok s
  | job :: rest, s =>
    match s.merge job with
    | .error fault => .error fault
    | .ok s => mergeAll rest s

/-- One turn: the state after it, or the account if there was nothing to do. -/
def turn (s : State plan) : Except Fault (Book ⊕ State plan) :=
  match s.fill (plan.inFlight - s.pending.length) with
  | .error fault => .error fault
  | .ok s =>
    if s.pending.isEmpty then .ok (.inl s.book)
    else
      match mergeAll s.wait.done s.wait with
      | .error fault => .error fault
      | .ok s => .ok (.inr s)

/-! ## The work ends -/

def flight (s : State plan) : List Record :=
  (s.done ++ s.pending).map (·.record)

theorem flight_eq (s : State plan) : s.flight = s.done.map (·.record) ++ s.pending.map (·.record) :=
  List.map_append

def held (s : State plan) : List Record :=
  s.queue ++ s.flight

/-- A record that the source has still to give counts for more than the page that it may be. -/
def load (s : State plan) : Nat :=
  2 * s.supply.size + s.held.countP (·.kind = .markup)

def Within (s' s : State plan) : Prop :=
  s'.load < s.load ∨ (s'.load = s.load ∧ s'.held.length ≤ s.held.length)

def Less (s' s : State plan) : Prop :=
  s'.load < s.load ∨ (s'.load = s.load ∧ s'.held.length < s.held.length)

theorem Within.of_le {s s' : State plan} (hLoad : s'.load ≤ s.load) (hHeld : s'.held.length ≤ s.held.length) :
    s'.Within s := by
  unfold Within
  omega

theorem Within.trans {s s' s'' : State plan} (h : s''.Within s') (h' : s'.Within s) : s''.Within s := by
  unfold Within at *
  omega

theorem Less.within {s s' : State plan} (h : s'.Less s) : s'.Within s := by
  unfold Less Within at *
  omega

theorem Less.trans_within {s s' s'' : State plan} (h : s''.Less s') (h' : s'.Within s) : s''.Less s := by
  unfold Less Within at *
  omega

theorem flight_submit (s : State plan) (r : Record) : (s.submit r).flight = s.flight ++ [r] := by
  have hRecord : (plan.job r).record = r := rfl
  simp only [flight, submit, List.map_append, List.map_cons, List.map_nil, hRecord, List.append_assoc]

theorem held_submit (s : State plan) (r : Record) : (s.submit r).held = s.held ++ [r] := by
  rw [held, held, flight_submit, List.append_assoc]
  rfl

theorem within_submit {s s' : State plan} {r : Record} (h : s.next = .ok (some r, s')) :
    (s'.submit r).Within s := by
  unfold Within load
  rw [held_submit, List.countP_append, List.countP_singleton, List.length_append, List.length_singleton]
  obtain ⟨_, rest, ⟨⟩, hQueue, rfl⟩ | ⟨⟨⟩, -⟩ | ⟨supply, ledger, -, -, hNext, rfl⟩ := next_cases h
  · right
    rw [held, held, hQueue, List.cons_append, List.countP_cons, List.length_cons]
    exact ⟨rfl, Nat.le_refl _⟩
  · have hLess := (Supply.next_size hNext).2 rfl
    left
    change 2 * supply.size + (s.held.countP _ + _) < _
    split <;> omega

theorem within_of_next_none {s s' : State plan} (h : s.next = .ok (none, s')) : s'.Within s := by
  obtain ⟨_, _, ⟨⟩, -⟩ | ⟨-, -, -, rfl⟩ | ⟨supply, ledger, -, -, hNext, rfl⟩ := next_cases h
  · exact .of_le (Nat.le_refl _) (Nat.le_refl _)
  · have hLe := (Supply.next_size hNext).1
    refine .of_le ?_ (Nat.le_refl _)
    simp only [load, held, flight]
    omega

theorem within_of_fill {count : Nat} {s s' : State plan} (h : s.fill count = .ok s') : s'.Within s := by
  induction count generalizing s with
  | zero =>
    cases h
    exact .of_le (Nat.le_refl _) (Nat.le_refl _)
  | succ count ih =>
    rw [fill] at h
    split at h
    · cases h
    · rename_i hNext
      cases h
      exact within_of_next_none hNext
    · rename_i hNext
      exact (ih h).trans (within_submit hNext)

theorem within_wait (s : State plan) : s.wait.Within s := by
  have hSplit := (plan.schedule.finished_append_unfinished s.waits s.pending).map (·.record)
  have hPages := hSplit.countP_eq (·.kind = .markup)
  have hLength := hSplit.length_eq
  rw [List.map_append, List.countP_append] at hPages
  simp only [List.length_map, List.length_append] at hLength
  apply Within.of_le
  · simp only [load, held, flight, wait, List.map_append, List.countP_append]
    omega
  · simp only [held, flight, wait, List.map_append, List.length_append, List.length_map]
    omega

/-- Merging brings records that are no pages, and none at all unless it is a page that is merged. -/
theorem queue_of_merge {s s' : State plan} {job : Job plan} (h : s.merge job = .ok s') :
    s'.supply = s.supply ∧ s'.pending = s.pending ∧ s'.done = s.done.tail ∧
      ∃ news, s'.queue = s.queue ++ news ∧ (∀ r ∈ news, r.kind ≠ .markup) ∧
        (job.record.kind ≠ .markup → news = []) := by
  unfold merge at h
  split at h
  · cases h
  · rename_i o hResult
    have hAnalyze := job.result_eq.symm.trans hResult
    split at h
    · cases h
    · rename_i assets ledger hFetch
      cases h
      refine ⟨rfl, rfl, rfl, o.derived ++ assets, List.append_assoc .., ?_, ?_⟩
      · exact List.forall_mem_append.mpr ⟨Record.kind_derived hAnalyze,
          Plan.kind_fetchAll (Record.kind_assets hAnalyze) hFetch⟩
      · intro hKind
        obtain ⟨hDerived, hAssets⟩ := Record.derived_eq_nil hKind hAnalyze
        rw [hAssets] at hFetch
        cases hFetch
        rw [hDerived]
        rfl

theorem less_of_merge {s s' : State plan} {job : Job plan} {rest : List (Job plan)} (hDone : s.done = job :: rest)
    (h : s.merge job = .ok s') : s'.Less s := by
  obtain ⟨hSupply, hPending, hRest, news, hQueue, hKinds, hNone⟩ := queue_of_merge h
  have hNews : news.countP (·.kind = .markup) = 0 :=
    List.countP_eq_zero.mpr fun r hr => by simpa using hKinds r hr
  rw [hDone, List.tail_cons] at hRest
  unfold Less load held flight
  simp only [hSupply, hPending, hRest, hQueue, hDone, List.map_append, List.map_cons, List.countP_append,
    List.countP_cons, List.length_append, List.length_cons, hNews, decide_eq_true_eq]
  split
  · omega
  · rename_i hKind
    rw [hNone hKind, List.length_nil]
    omega

theorem less_of_mergeAll {jobs : List (Job plan)} {s s' : State plan} (hDone : s.done = jobs) (hSome : jobs ≠ [])
    (h : mergeAll jobs s = .ok s') : s'.Less s := by
  induction jobs generalizing s with
  | nil => exact absurd rfl hSome
  | cons job rest ih =>
    rw [mergeAll] at h
    split at h
    · cases h
    · rename_i t hMerge
      have hLess := less_of_merge hDone hMerge
      obtain ⟨-, -, hRest, -⟩ := queue_of_merge hMerge
      rw [hDone, List.tail_cons] at hRest
      cases rest with
      | nil =>
        cases h
        exact hLess
      | cons next rest => exact (ih hRest (by simp) h).trans_within hLess.within

theorem less_of_turn {s s' : State plan} (h : s.turn = .ok (.inr s')) : s'.Less s := by
  unfold turn at h
  split at h
  · cases h
  · rename_i t hFill
    split at h
    · cases h
    · rename_i hPending
      split at h
      · cases h
      · rename_i hMerge
        cases h
        have hSome : t.wait.done ≠ [] := plan.schedule.finished_ne_nil t.waits (by simpa using hPending)
        have hWithin := (within_wait t).trans (within_of_fill hFill)
        exact (less_of_mergeAll rfl hSome hMerge).trans_within hWithin

theorem Less.lex {s s' : State plan} (h : s'.Less s) :
    Prod.Lex (· < ·) (· < ·) (s'.load, s'.held.length) (s.load, s.held.length) := by
  rcases h with hLoad | ⟨hLoad, hHeld⟩
  · exact .left _ _ hLoad
  · rw [hLoad]
    exact .right _ hHeld

/-- Goes on in turns until there is nothing left to do, or the run is cancelled; then the answer says so. Whether
it is cancelled is asked with the reports made so far. -/
def work (isCancelled : List Progress → Bool) (s : State plan) : Except Fault (Bool × Book) :=
  if isCancelled s.book.reports then .ok (true, s.book.note (.runCancelled s.book.completed))
  else
    match _h : s.turn with
    | .error fault => .error fault
    | .ok (.inl b) => .ok (false, b)
    | .ok (.inr s) => s.work isCancelled
termination_by (s.load, s.held.length)
decreasing_by exact (less_of_turn _h).lex

end State

/-- The account that a run starts with, once its source is open. -/
def Book.opened (ledger : Ledger) : Book :=
  { ({} : Book).report 0 "Collecting sources" with ledger }

def Plan.start (plan : Plan) (supply : Supply) (ledger : Ledger) : State plan :=
  { supply, book := .opened ledger }

end WebAudit.Run
