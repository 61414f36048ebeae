import WebAudit.Proofs.Run.Collected

/-!
# No record is lost

A step submits a record that waits or that the supply gives, or it merges an outcome and puts the records that come
of a page at the end of the queue. At every point the records that are merged, those that wait or are in flight and
those that the supply is going to give are together all that is to be merged. A run goes on until nothing waits,
nothing is in flight and nothing is given, so it merges every collected record once, every block of a collected page
once, and every asset that was fetched once. How many records are in flight makes no difference, and neither does
the order in which they are done.
-/

namespace WebAudit.Run

open Collect (Supply Ledger World)

/-! ## What is still to be merged -/

namespace State

variable {plan : Plan}

def collected (s : State plan) : List Record :=
  s.flight.filter (!·.synthetic)

/-- What a run has still to do, where the source is going to give `records`, and `fetched` are the assets of all
collected pages that are not merged. Only pages have assets, and these change the account between two records. -/
structure Owes (s : State plan) (records fetched : List Record) : Prop where
  supply : s.supply.Whole
  page : plan.followAssets = true → s.supply.IsPage
  yields : if s.book.exhausted then records = [] else s.supply.Yields plan.options s.book.ledger records
  whole : ∀ r ∈ records, r.Whole
  queue : ∀ r ∈ s.queue, r.Embedded
  flight : ∀ r ∈ s.flight, r.Whole ∨ r.Embedded
  single : plan.followAssets = true → (s.collected ++ records).length ≤ 1
  fetches : ∃ l, plan.fetchPages (plan.outcomes (s.collected ++ records)) s.book.ledger = .ok (fetched, l)

/-- All that is to be merged: what is held or going to be given, and what comes of it. -/
def total (s : State plan) (records fetched : List Record) : List Record :=
  s.held ++ records ++ (plan.outcomes (s.collected ++ records)).flatMap (·.derived) ++ fetched

variable {s s' : State plan} {records fetched : List Record}

namespace Owes

theorem whole_collected (h : s.Owes records fetched) : ∀ r ∈ s.collected ++ records, r.Whole := by
  refine List.forall_mem_append.mpr ⟨?_, h.whole⟩
  intro r hr
  obtain ⟨hMem, hFile⟩ := List.mem_filter.mp hr
  refine (h.flight r hMem).resolve_right fun hEmbedded => ?_
  rw [hEmbedded.synthetic] at hFile
  cases hFile

theorem analyzed (h : s.Owes records fetched) :
    List.Forall₂ plan.Analyzes (s.collected ++ records) (plan.outcomes (s.collected ++ records)) :=
  plan.analyzes_outcomes fun r hr => (h.whole_collected r hr).placed

theorem assets_eq_nil (h : s.Owes records fetched) (hFollow : plan.followAssets = false) :
    ∀ o ∈ plan.outcomes (s.collected ++ records), o.assets = [] := by
  intro o ho
  have hAnalyze := (Plan.analyzes_of_mem h.analyzed o ho).2
  unfold Plan.Analyzes at hAnalyze
  rw [hFollow] at hAnalyze
  exact Record.assets_eq_nil hAnalyze

/-- What the source gives does not depend on the assets of pages. -/
theorem yields_of_ledger (h : s.Owes records fetched) {l : Ledger}
    (hLedger : plan.followAssets = false → s.book.ledger.Agrees l) :
    if s.book.exhausted then records = [] else s.supply.Yields plan.options l records := by
  have hYields := h.yields
  split
  · rename_i hEnd
    rwa [if_pos hEnd] at hYields
  · rename_i hEnd
    rw [if_neg hEnd] at hYields
    cases hFollow : plan.followAssets with
    | true => exact (h.page hFollow).yields hYields l
    | false => exact hYields.agrees h.supply (hLedger hFollow)

/-- What is going to be fetched does not change while records are collected: assets are followed only from pages,
and their supply leaves the account as it is. -/
theorem fetches_of_ledger (h : s.Owes records fetched) {l : Ledger}
    (hLedger : plan.followAssets = true → s.book.ledger.Agrees l) :
    ∃ l', plan.fetchPages (plan.outcomes (s.collected ++ records)) l = .ok (fetched, l') := by
  obtain ⟨m, hFetch⟩ := h.fetches
  cases hFollow : plan.followAssets with
  | true =>
    obtain ⟨l', hFetch', -⟩ := Plan.fetchPages_agrees hFetch (hLedger hFollow)
    exact ⟨l', hFetch'⟩
  | false =>
    have hNone := h.assets_eq_nil hFollow
    rw [Plan.fetchPages_of_no_assets hNone] at hFetch
    cases hFetch
    exact ⟨l, Plan.fetchPages_of_no_assets hNone _⟩

/-- The order of collected records does not matter: if assets are followed, there is one at most. -/
theorem fetches_of_perm (h : s.Owes records fetched) {collected : List Record} (hPerm : s.collected.Perm collected) :
    ∃ l, plan.fetchPages (plan.outcomes (collected ++ records)) s.book.ledger = .ok (fetched, l) := by
  cases hFollow : plan.followAssets with
  | true =>
    have hSingle := h.single hFollow
    have hSame : s.collected = collected := by
      rw [List.length_append] at hSingle
      match hOne : s.collected with
      | [] => exact (hOne ▸ hPerm).nil_eq
      | [r] => exact (hOne ▸ hPerm).singleton_eq
      | _ :: _ :: _ =>
        rw [hOne] at hSingle
        simp at hSingle
        omega
    rw [← hSame]
    exact h.fetches
  | false =>
    obtain ⟨l, hFetch⟩ := h.fetches
    have hNone : ∀ o ∈ plan.outcomes (collected ++ records), o.assets = [] := by
      intro o ho
      exact h.assets_eq_nil hFollow o (((hPerm.append_right records).filterMap _).mem_iff.mpr ho)
    rw [Plan.fetchPages_of_no_assets (h.assets_eq_nil hFollow)] at hFetch
    cases hFetch
    exact ⟨_, Plan.fetchPages_of_no_assets hNone _⟩

end Owes

/-! ## Steps -/

theorem collected_submit (s : State plan) (r : Record) :
    (s.submit r).collected = s.collected ++ if r.synthetic then [] else [r] := by
  rw [collected, collected, flight_submit, List.filter_append]
  cases h : r.synthetic <;> simp [h]

theorem flight_settle {job : Job plan} {rest : List (Job plan)} (hDone : s.done = job :: rest) (o : Outcome)
    (assets : List Record) (ledger : Ledger) : s.flight = job.record :: (s.settle o assets ledger).flight := by
  rw [flight_eq, flight_eq, hDone]
  simp only [settle, hDone, List.tail_cons, List.map_cons, List.cons_append]

namespace Owes

/-- Submitting a record from the queue leaves what is to be merged as it is. -/
theorem queued {r : Record} {rest : List Record} (h : s.Owes records fetched) (hQueue : s.queue = r :: rest) :
    ({ s with queue := rest }.submit r).Owes records fetched ∧
      (({ s with queue := rest }.submit r).total records fetched).Perm (s.total records fetched) := by
  let t : State plan := { s with queue := rest }
  have hEmbedded : ∀ r' ∈ r :: rest, r'.Embedded := hQueue ▸ h.queue
  obtain ⟨hHead, hTail⟩ := List.forall_mem_cons.mp hEmbedded
  obtain ⟨ledger, hLedger, hBook⟩ := t.book_submit r
  have hCollected : (t.submit r).collected = s.collected := by
    rw [collected_submit, hHead.synthetic, if_pos rfl, List.append_nil]
    rfl
  refine ⟨{ supply := h.supply, page := h.page, yields := ?_, whole := h.whole, queue := hTail, flight := ?_,
            single := ?_, fetches := ?_ }, ?_⟩
  · change if (t.submit r).book.exhausted then _ else s.supply.Yields _ (t.submit r).book.ledger _
    rw [hBook]
    exact h.yields_of_ledger fun _ => hLedger
  · rw [flight_submit]
    exact List.forall_mem_append.mpr ⟨h.flight, List.forall_mem_singleton.mpr (.inr hHead)⟩
  · rw [hCollected]
    exact h.single
  · rw [hCollected, hBook]
    exact h.fetches_of_ledger fun _ => hLedger
  · rw [List.perm_iff_count]
    intro x
    unfold total
    rw [hCollected, held_submit, held, held, hQueue]
    simp only [List.count_append, List.count_cons, List.count_nil]
    have hFlight : t.flight = s.flight := rfl
    rw [hFlight]
    omega

/-- Submitting a record that the source gives leaves what is to be merged as it is. -/
theorem collects {r : Record} {supply : Supply} {ledger : Ledger} (h : s.Owes records fetched)
    (hOpen : s.book.exhausted = false)
    (hNext : s.supply.next plan.options s.book.ledger = .ok (some r, supply, ledger)) :
    let t : State plan := { s with supply, book := { s.book with ledger, exhausted := false } }
    ∃ rest, (t.submit r).Owes rest fetched ∧ ((t.submit r).total rest fetched).Perm (s.total records fetched) := by
  intro t
  have hYields := h.yields
  rw [hOpen, if_neg Bool.false_ne_true] at hYields
  obtain ⟨_, _, hNone, -⟩ | ⟨_, rest, _, _, hSome, rfl, hRest⟩ := hYields.next
  · cases hNext.symm.trans hNone
  · cases hNext.symm.trans hSome
    obtain ⟨hHead, hTail⟩ := List.forall_mem_cons.mp h.whole
    obtain ⟨ledger', hLedger, hBook⟩ := t.book_submit r
    have hCollected : (t.submit r).collected ++ rest = s.collected ++ r :: rest := by
      rw [collected_submit, hHead.synthetic, if_neg Bool.false_ne_true, List.append_assoc]
      rfl
    have hWhole := (h.supply.next hNext).2
    refine ⟨rest, { supply := hWhole, page := ?_, yields := ?_, whole := hTail, queue := h.queue, flight := ?_,
                    single := ?_, fetches := ?_ }, ?_⟩
    · exact fun hFollow => ((h.page hFollow).next hNext).1
    · change if (t.submit r).book.exhausted then _ else supply.Yields _ (t.submit r).book.ledger _
      rw [hBook, if_neg Bool.false_ne_true]
      exact hRest.agrees hWhole hLedger
    · rw [flight_submit]
      exact List.forall_mem_append.mpr ⟨h.flight, List.forall_mem_singleton.mpr (.inl hHead)⟩
    · rw [hCollected]
      exact h.single
    · rw [hCollected, hBook]
      refine h.fetches_of_ledger fun hFollow => ?_
      have hSame : ledger = s.book.ledger := ((h.page hFollow).next hNext).2
      rw [← hSame]
      exact hLedger
    · rw [List.perm_iff_count]
      intro x
      unfold total
      rw [hCollected, held_submit]
      simp only [List.count_append, List.count_cons, List.count_nil]
      have hHeld : t.held = s.held := rfl
      rw [hHeld]
      omega

/-- A source that gives no more has given all. -/
theorem exhausts {supply : Supply} {ledger : Ledger} (h : s.Owes records fetched)
    (hOpen : s.book.exhausted = false)
    (hNext : s.supply.next plan.options s.book.ledger = .ok (none, supply, ledger)) :
    let t : State plan := { s with supply, book := { s.book with ledger, exhausted := true } }
    t.Owes [] fetched ∧ t.total [] fetched = s.total records fetched := by
  intro t
  have hYields := h.yields
  rw [hOpen, if_neg Bool.false_ne_true] at hYields
  obtain ⟨_, _, -, rfl⟩ | ⟨_, _, _, _, hSome, -⟩ := hYields.next
  · refine ⟨?_, rfl⟩
    refine { supply := (h.supply.next hNext).2, page := ?_, yields := rfl, whole := h.whole, queue := h.queue,
             flight := h.flight, single := h.single, fetches := ?_ }
    · exact fun hFollow => ((h.page hFollow).next hNext).1
    · refine h.fetches_of_ledger fun hFollow => ?_
      have hSame : ledger = s.book.ledger := ((h.page hFollow).next hNext).2
      rw [← hSame]
      exact .refl _
  · cases hNext.symm.trans hSome

/-- Waiting moves records in flight and nothing else. -/
theorem wait (h : s.Owes records fetched) (hDone : s.done = []) :
    s.wait.Owes records fetched ∧ (s.wait.total records fetched).Perm (s.total records fetched) := by
  have hFlight : s.wait.flight.Perm s.flight := by
    unfold State.flight
    rw [hDone]
    exact (plan.schedule.finished_append_unfinished s.waits s.pending).map _
  have hCollected : s.wait.collected.Perm s.collected := hFlight.filter _
  refine ⟨{ supply := h.supply, page := h.page, yields := h.yields, whole := h.whole, queue := h.queue,
            flight := ?_, single := ?_, fetches := h.fetches_of_perm hCollected.symm }, ?_⟩
  · exact fun r hr => h.flight r (hFlight.mem_iff.mp hr)
  · intro hFollow
    rw [(hCollected.append_right records).length_eq]
    exact h.single hFollow
  · have hOutcomes := ((hCollected.append_right records).filterMap
      fun r => (r.analyze plan.toggles plan.nesting plan.followAssets).toOption).flatMap_right (·.derived)
    exact (((hFlight.append_left s.queue).append_right records).append hOutcomes).append_right fetched

/-- Merging a record that belongs to a page brings nothing. -/
theorem settle_embedded {job : Job plan} {rest : List (Job plan)} {o : Outcome} {assets : List Record}
    {ledger : Ledger} (h : s.Owes records fetched) (hDone : s.done = job :: rest) (hResult : job.result = .ok o)
    (hFetch : plan.fetchAll o.record.path o.assets (s.book.merge o).ledger = .ok (assets, ledger))
    (hEmbedded : job.record.Embedded) :
    (s.settle o assets ledger).Owes records fetched ∧
      (o.record :: (s.settle o assets ledger).total records fetched).Perm (s.total records fetched) := by
  obtain ⟨hDerived, hAssets⟩ := Record.derived_eq_nil hEmbedded.kind (Job.analyzes hResult)
  rw [hAssets] at hFetch
  cases hFetch
  have hLedger : s.book.ledger.Agrees (s.book.merge o).ledger := (Ledger.Agrees.refl _).note_right _
  have hQueue : (s.settle o [] (s.book.merge o).ledger).queue = s.queue := by
    simp only [settle, hDerived, List.append_nil]
  have hFlight := flight_settle hDone o [] (s.book.merge o).ledger
  have hCollected : (s.settle o [] (s.book.merge o).ledger).collected = s.collected := by
    rw [collected, collected, hFlight, List.filter_cons, hEmbedded.synthetic]
    rfl
  refine ⟨{ supply := h.supply, page := h.page, yields := h.yields_of_ledger fun _ => hLedger, whole := h.whole,
            queue := hQueue ▸ h.queue, flight := ?_, single := hCollected ▸ h.single,
            fetches := hCollected ▸ h.fetches_of_ledger fun _ => hLedger }, ?_⟩
  · exact fun r hr => h.flight r (hFlight ▸ List.mem_cons_of_mem _ hr)
  · rw [(Job.analyzes hResult).record]
    unfold total held
    rw [hCollected, hQueue, hFlight, List.perm_iff_count]
    intro x
    simp only [List.count_append, List.count_cons]
    omega

/-- Merging a collected record brings its blocks and its assets. -/
theorem settle_whole {job : Job plan} {rest : List (Job plan)} {o : Outcome} {assets : List Record}
    {ledger : Ledger} (h : s.Owes records fetched) (hDone : s.done = job :: rest) (hResult : job.result = .ok o)
    (hFetch : plan.fetchAll o.record.path o.assets (s.book.merge o).ledger = .ok (assets, ledger))
    (hWhole : job.record.Whole) :
    ∃ more, (s.settle o assets ledger).Owes records more ∧
      (o.record :: (s.settle o assets ledger).total records more).Perm (s.total records fetched) := by
  have hAnalyze := Job.analyzes hResult
  have hLedger : s.book.ledger.Agrees (s.book.merge o).ledger := (Ledger.Agrees.refl _).note_right _
  have hFlight := flight_settle hDone o assets ledger
  have hCollected : s.collected = job.record :: (s.settle o assets ledger).collected := by
    rw [collected, collected, hFlight, List.filter_cons, hWhole.synthetic]
    rfl
  -- of what is to be fetched, the assets of this record come first
  obtain ⟨l, hPages⟩ := h.fetches_of_ledger fun _ => hLedger
  rw [hCollected, List.cons_append, Plan.outcomes_cons hAnalyze] at hPages
  obtain ⟨_, _, more, hHead, hTail, rfl⟩ := Plan.fetchPages_cons.mp hPages
  cases hFetch.symm.trans hHead
  have hEmbedded : ∀ r ∈ o.derived ++ assets, r.Embedded := by
    refine List.forall_mem_append.mpr ⟨hWhole.placed.embedded_derived hAnalyze, ?_⟩
    exact Plan.embedded_fetchAll (Record.kind_assets hAnalyze) hFetch
  refine ⟨more, { supply := h.supply, page := h.page, yields := h.yields_of_ledger ?_, whole := h.whole,
                  queue := ?_, flight := ?_, single := ?_, fetches := ⟨l, hTail⟩ }, ?_⟩
  · intro hFollow
    have hNone : o.assets = [] := by
      unfold Plan.Analyzes at hAnalyze
      rw [hFollow] at hAnalyze
      exact Record.assets_eq_nil hAnalyze
    rw [hNone] at hFetch
    cases hFetch
    exact hLedger
  · simp only [settle, List.append_assoc]
    exact List.forall_mem_append.mpr ⟨h.queue, hEmbedded⟩
  · exact fun r hr => h.flight r (hFlight ▸ List.mem_cons_of_mem _ hr)
  · intro hFollow
    have hSingle := h.single hFollow
    rw [hCollected, List.cons_append, List.length_cons] at hSingle
    omega
  · have hQueue : (s.settle o assets ledger).queue = s.queue ++ o.derived ++ assets := rfl
    rw [hAnalyze.record]
    unfold total held
    rw [hCollected, hFlight, hQueue, List.cons_append, Plan.outcomes_cons hAnalyze, List.flatMap_cons,
      List.perm_iff_count]
    intro x
    simp only [List.count_append, List.count_cons]
    omega

/-- A step merges a part of what is to be merged, and the rest is still to be. -/
theorem step {os : List Outcome} (h : s.Owes records fetched) (hStep : s.Step os s') :
    ∃ records' fetched', s'.Owes records' fetched' ∧
      (os.map (·.record) ++ s'.total records' fetched').Perm (s.total records fetched) := by
  cases hStep with
  | submitted hNext =>
    obtain ⟨_, rest, ⟨⟩, hQueue, rfl⟩ | ⟨⟨⟩, -⟩ | ⟨supply, ledger, -, hOpen, hSupply, rfl⟩ := next_cases hNext
    · obtain ⟨hOwes, hPerm⟩ := h.queued hQueue
      exact ⟨_, _, hOwes, hPerm⟩
    · obtain ⟨rest, hOwes, hPerm⟩ := h.collects hOpen hSupply
      exact ⟨_, _, hOwes, hPerm⟩
  | exhausted hNext =>
    obtain ⟨_, _, ⟨⟩, -⟩ | ⟨-, -, -, rfl⟩ | ⟨supply, ledger, -, hOpen, hSupply, rfl⟩ := next_cases hNext
    · exact ⟨_, _, h, .refl _⟩
    · obtain ⟨hOwes, hTotal⟩ := h.exhausts hOpen hSupply
      exact ⟨_, _, hOwes, .of_eq hTotal⟩
  | waited hDone =>
    obtain ⟨hOwes, hPerm⟩ := h.wait hDone
    exact ⟨_, _, hOwes, hPerm⟩
  | @merged job _ o assets ledger hDone hResult hFetch =>
    have hMem : job.record ∈ s.flight := by
      rw [flight_settle hDone o assets ledger]
      exact List.mem_cons_self
    rcases h.flight _ hMem with hWhole | hEmbedded
    · obtain ⟨more, hOwes, hPerm⟩ := h.settle_whole hDone hResult hFetch hWhole
      exact ⟨_, _, hOwes, hPerm⟩
    · obtain ⟨hOwes, hPerm⟩ := h.settle_embedded hDone hResult hFetch hEmbedded
      exact ⟨_, _, hOwes, hPerm⟩

theorem steps {os : List Outcome} (h : s.Owes records fetched) (hSteps : s.Steps os s') :
    ∃ records' fetched', s'.Owes records' fetched' ∧
      (os.map (·.record) ++ s'.total records' fetched').Perm (s.total records fetched) := by
  induction hSteps generalizing records fetched with
  | refl s => exact ⟨records, fetched, h, .refl _⟩
  | step hStep _ ih =>
    obtain ⟨records', fetched', hOwes, hPerm⟩ := h.step hStep
    obtain ⟨records'', fetched'', hOwes', hPerm'⟩ := ih hOwes
    refine ⟨records'', fetched'', hOwes', ?_⟩
    rw [List.map_append, List.append_assoc]
    exact (hPerm'.append_left _).trans hPerm

/-! ## Turns -/

theorem next_ok (h : s.Owes records fetched) : ∃ x, s.next = .ok x := by
  unfold State.next
  split
  · exact ⟨_, rfl⟩
  · split
    · exact ⟨_, rfl⟩
    · rename_i hOpen
      have hYields := h.yields
      rw [if_neg hOpen] at hYields
      obtain ⟨_, _, hNext, -⟩ | ⟨_, _, _, _, hNext, -⟩ := hYields.next
      · rw [hNext]
        exact ⟨_, rfl⟩
      · rw [hNext]
        exact ⟨_, rfl⟩

theorem fill_ok (h : s.Owes records fetched) (count : Nat) : ∃ s', s.fill count = .ok s' := by
  induction count generalizing s records fetched with
  | zero => exact ⟨s, rfl⟩
  | succ count ih =>
    obtain ⟨⟨record, t⟩, hNext⟩ := h.next_ok
    rw [State.fill, hNext]
    cases record with
    | none => exact ⟨t, rfl⟩
    | some r =>
      obtain ⟨_, _, hOwes, -⟩ := h.step (.submitted hNext)
      exact ih hOwes

/-- Every record has an outcome, and every asset that is followed can be asked for. -/
theorem merge_ok {job : Job plan} {rest : List (Job plan)} (h : s.Owes records fetched)
    (hDone : s.done = job :: rest) : ∃ s', s.merge job = .ok s' := by
  have hMem : job.record ∈ s.flight := by
    rw [flight_eq, hDone]
    exact List.mem_cons_self
  have hPlaced : job.record.Placed := by
    rcases h.flight _ hMem with hWhole | hEmbedded
    · exact hWhole.placed
    · exact hEmbedded.placed
  obtain ⟨o, -, hAnalyze, -⟩ := hPlaced.analyze plan.toggles plan.nesting plan.followAssets
  have hResult : job.result = .ok o := job.result_eq.trans hAnalyze
  unfold State.merge
  rw [hResult]
  dsimp only
  suffices hFetch : ∃ x, plan.fetchAll o.record.path o.assets (s.book.merge o).ledger = .ok x by
    obtain ⟨x, hFetch⟩ := hFetch
    rw [hFetch]
    exact ⟨_, rfl⟩
  rcases h.flight _ hMem with hWhole | hEmbedded
  · have hCollected : s.collected = job.record :: (s.settle o [] s.book.ledger).collected := by
      rw [collected, collected, flight_settle hDone o [] s.book.ledger, List.filter_cons, hWhole.synthetic]
      rfl
    obtain ⟨l, hPages⟩ := h.fetches_of_ledger fun _ => (Ledger.Agrees.refl s.book.ledger).note_right _
    rw [hCollected, List.cons_append, Plan.outcomes_cons hAnalyze] at hPages
    obtain ⟨_, _, _, hFetch, -⟩ := Plan.fetchPages_cons.mp hPages
    exact ⟨_, hFetch⟩
  · rw [(Record.derived_eq_nil hEmbedded.kind hAnalyze).2]
    exact ⟨_, rfl⟩

theorem mergeAll_ok {jobs : List (Job plan)} (h : s.Owes records fetched) (hDone : s.done = jobs) :
    ∃ s', State.mergeAll jobs s = .ok s' := by
  induction jobs generalizing s records fetched with
  | nil => exact ⟨s, rfl⟩
  | cons job rest ih =>
    obtain ⟨t, hMerge⟩ := h.merge_ok hDone
    obtain ⟨o, assets, ledger, hResult, hFetch, rfl⟩ := merge_cases hMerge
    obtain ⟨_, _, hOwes, -⟩ := h.step (.merged hDone hResult hFetch)
    rw [State.mergeAll, hMerge]
    refine ih hOwes ?_
    change s.done.tail = rest
    rw [hDone, List.tail_cons]

theorem turn_ok (h : s.Owes records fetched) (hDone : s.done = []) : ∃ x, s.turn = .ok x := by
  obtain ⟨t, hFill⟩ := h.fill_ok (plan.inFlight - s.pending.length)
  obtain ⟨hSteps, hSame⟩ := steps_of_fill hFill
  obtain ⟨_, _, hOwes, -⟩ := h.steps hSteps
  obtain ⟨hWait, -⟩ := hOwes.wait (hSame.trans hDone)
  obtain ⟨u, hMerge⟩ := hWait.mergeAll_ok rfl
  unfold State.turn
  rw [hFill]
  dsimp only
  split
  · exact ⟨_, rfl⟩
  · rw [hMerge]
    exact ⟨_, rfl⟩

end Owes

theorem pending_of_fill {count : Nat} (h : s.fill count = .ok s') : s.pending <+: s'.pending := by
  induction count generalizing s with
  | zero =>
    cases h
    exact List.prefix_rfl
  | succ count ih =>
    rw [fill] at h
    split at h
    · cases h
    · rename_i hNext
      cases h
      exact (done_of_next hNext).2 ▸ List.prefix_rfl
    · rename_i hNext
      rw [← (done_of_next hNext).2]
      exact (List.prefix_append _ _).trans (ih h)

/-- If there is room and nothing gets submitted, there is nothing to submit. -/
theorem exhausted_of_fill {count : Nat} (hCount : 0 < count) (h : s.fill count = .ok s')
    (hPending : s'.pending = []) : s'.queue = [] ∧ s'.book.exhausted = true := by
  cases count with
  | zero => cases hCount
  | succ count =>
    rw [fill] at h
    split at h
    · cases h
    · rename_i hNext
      cases h
      obtain ⟨_, _, ⟨⟩, -⟩ | ⟨-, hQueue, hEnd, rfl⟩ | ⟨_, _, hQueue, -, -, rfl⟩ := next_cases hNext
      · exact ⟨hQueue, hEnd⟩
      · exact ⟨hQueue, rfl⟩
    · have hPrefix := pending_of_fill h
      rw [hPending, List.prefix_nil] at hPrefix
      simp [submit] at hPrefix

/-- Nothing is to be merged any more when a run ends by itself. -/
theorem Owes.total_eq_nil (h : s.Owes records fetched) (hQueue : s.queue = []) (hFlight : s.flight = [])
    (hEnd : s.book.exhausted = true) : s.total records fetched = [] := by
  have hRecords := h.yields
  rw [if_pos hEnd] at hRecords
  have hCollected : s.collected = [] := by
    rw [collected, hFlight]
    rfl
  obtain ⟨l, hFetch⟩ := h.fetches
  rw [hCollected, hRecords] at hFetch
  cases hFetch
  rw [total, held, hQueue, hFlight, hCollected, hRecords]
  rfl

/-- A run that is not stopped merges all that is to be merged. -/
theorem Owes.work {isCancelled : List Progress → Bool} (h : s.Owes records fetched) (hDone : s.done = [])
    (hRoom : 0 < plan.inFlight) (hNever : ∀ reports, isCancelled reports = false) :
    ∃ b, s.work isCancelled = .ok (false, b) ∧
      ((s.merged isCancelled).map (·.record)).Perm (s.total records fetched) := by
  induction s using work_induction generalizing records fetched with
  | step s ih =>
    rw [work_eq, hNever, if_neg Bool.false_ne_true]
    obtain ⟨x, hTurn⟩ := h.turn_ok hDone
    rw [hTurn]
    obtain ⟨t, rfl, hFill, hPending, hEmpty, -⟩ | ⟨t, rfl, hSteps, hEmpty, -⟩ := turn_cases hDone hTurn
    · obtain ⟨records', fetched', hOwes, hPerm⟩ := h.steps (steps_of_fill hFill).1
      have hNone : s.pending = [] := by
        have hPrefix := pending_of_fill hFill
        rwa [hPending, List.prefix_nil] at hPrefix
      rw [hNone, List.length_nil, Nat.sub_zero] at hFill
      obtain ⟨hQueue, hEnd⟩ := exhausted_of_fill hRoom hFill hPending
      have hFlight : t.flight = [] := by
        rw [flight_eq, hEmpty, hPending]
        rfl
      rw [hOwes.total_eq_nil hQueue hFlight hEnd] at hPerm
      rw [merged_of_end hTurn]
      exact ⟨t.book, rfl, hPerm⟩
    · obtain ⟨records', fetched', hOwes, hPerm⟩ := h.steps hSteps
      obtain ⟨b, hWork, hRest⟩ := ih t hTurn hOwes hEmpty
      rw [merged_of_turn (hNever _) hTurn, List.map_append]
      exact ⟨b, hWork, (hRest.append_left _).trans hPerm⟩

/-- A run that can go on to its end returns, wherever it is stopped. -/
theorem Owes.returns (isCancelled : List Progress → Bool) (h : s.Owes records fetched) (hDone : s.done = []) :
    ∃ cancelled b, s.work isCancelled = .ok (cancelled, b) := by
  induction s using work_induction generalizing records fetched with
  | step s ih =>
    rw [work_eq]
    split
    · exact ⟨true, _, rfl⟩
    · obtain ⟨x, hTurn⟩ := h.turn_ok hDone
      rw [hTurn]
      obtain ⟨t, rfl, -⟩ | ⟨t, rfl, hSteps, hEmpty, -⟩ := turn_cases hDone hTurn
      · exact ⟨false, _, rfl⟩
      · obtain ⟨_, _, hOwes, -⟩ := h.steps hSteps
        exact ih t hTurn hOwes hEmpty

end State

/-! ## Whole runs -/

theorem Plan.owes_start {plan : Plan} {supply : Supply} {ledger l l' : Ledger} {records fetched : List Record}
    (hWhole : supply.Whole) (hPage : plan.followAssets = true → supply.IsPage ∧ supply.size = 1)
    (hDrain : Collect.drain plan.options supply ledger = .ok (records, l))
    (hFetch : plan.fetchPages (plan.outcomes records) ledger = .ok (fetched, l')) :
    (plan.start supply ledger).Owes records fetched := by
  have hYields : supply.Yields plan.options ledger records := ⟨l, hDrain⟩
  exact {
    supply := hWhole
    page := fun hFollow => (hPage hFollow).1
    yields := hYields
    whole := hYields.whole hWhole
    queue := fun _ hr => nomatch hr
    flight := fun _ hr => nomatch hr
    single := fun hFollow => (hPage hFollow).2 ▸ hYields.length_le
    fetches := ⟨l', hFetch⟩ }

theorem Request.inFlight_pos (request : Request) (world : World) : 0 < (request.plan world).inFlight :=
  Nat.lt_of_lt_of_le Nat.one_pos (Nat.le_max_right _ _)

theorem Request.owes_start {world : World} (request : Request) {supply : Supply} {ledger l l' : Ledger}
    {records fetched : List Record}
    (hOpen : Collect.openSource world request.options request.source = .ok (supply, ledger))
    (hDrain : Collect.drain request.options supply ledger = .ok (records, l))
    (hFetch : (request.plan world).fetchPages ((request.plan world).outcomes records) ledger = .ok (fetched, l')) :
    ((request.plan world).start supply ledger).Owes records fetched := by
  obtain ⟨hWhole, hPage⟩ := Collect.whole_openSource hOpen
  refine Plan.owes_start hWhole (fun hFollow => hPage ?_) hDrain hFetch
  simpa using (Bool.and_eq_true_iff.mp hFollow).2

theorem execute_of_work {world : World} {request : Request} {supply : Supply} {ledger : Ledger}
    {cancelled : Bool} {b : Book}
    (hOpen : Collect.openSource world request.options request.source = .ok (supply, ledger))
    (hWork : ((request.plan world).start supply ledger).work request.isCancelled = .ok (cancelled, b)) :
    execute world request = .ok ((b.judgeImports request.toggles cancelled).close cancelled) := by
  unfold execute
  rw [hOpen]
  dsimp only [Except.mapError, bind, Except.bind]
  rw [hWork]
  rfl

/-- Files are counted, and the records that are part of a page are not. -/
theorem sum_fileCount {records embedded : List Record} (hWhole : ∀ r ∈ records, r.Whole)
    (hEmbedded : ∀ r ∈ embedded, r.Embedded) :
    ((records ++ embedded).map Record.fileCount).sum = records.length := by
  have hFiles : records.map Record.fileCount = records.map fun _ => 1 := by
    refine List.map_congr_left fun r hr => ?_
    rw [Record.fileCount, (hWhole r hr).synthetic]
    rfl
  have hParts : embedded.map Record.fileCount = embedded.map fun _ => 0 := by
    refine List.map_congr_left fun r hr => ?_
    rw [Record.fileCount, (hEmbedded r hr).synthetic]
    rfl
  rw [List.map_append, hFiles, hParts]
  simp

theorem Book.tally_close (b : Book) (toggles : Toggles) :
    ((b.judgeImports toggles false).close false).filesAnalyzed = b.tally.filesAnalyzed ∧
      ((b.judgeImports toggles false).close false).kinds = b.tally.kinds := by
  unfold judgeImports
  split <;> exact ⟨rfl, rfl⟩

/-- A run that is not cancelled merges each collected record, each block of a collected page and each
asset that was fetched exactly once, however many records are in flight and in whatever order they are done, and it
counts the collected ones. -/
theorem run_merges_each_record_once (world : World) (request : Request) {supply : Supply}
    {ledger l l' : Ledger} {records fetched : List Record}
    (hNever : ∀ reports, request.isCancelled reports = false)
    (hOpen : Collect.openSource world request.options request.source = .ok (supply, ledger))
    (hDrain : Collect.drain request.options supply ledger = .ok (records, l))
    (hFetch : (request.plan world).fetchPages ((request.plan world).outcomes records) ledger =
      .ok (fetched, l')) :
    let plan := request.plan world
    let start := plan.start supply ledger
    let merged := start.merged request.isCancelled
    ∃ b report, start.work request.isCancelled = .ok (false, b) ∧
      execute world request = .ok report ∧
      b.tally = merged.foldl Tally.merge {} ∧
      List.Forall₂ plan.Analyzes records (plan.outcomes records) ∧
      (∀ o ∈ merged, plan.Analyzes o.record o) ∧
      (merged.map (·.record)).Perm
        (records ++ (plan.outcomes records).flatMap (·.derived) ++ fetched) ∧
      (∀ o ∈ merged, o.record.synthetic = true → o.derived = [] ∧ o.assets = []) ∧
      (plan.followAssets = false → ∀ o ∈ plan.outcomes records, o.assets = []) ∧
      report.filesAnalyzed = records.length ∧
      (ContentKind.all.map report.kinds).sum = records.length := by
  intro plan start merged
  have hOwes := request.owes_start hOpen hDrain hFetch
  obtain ⟨b, hWork, hPerm⟩ := hOwes.work rfl (request.inFlight_pos world) hNever
  obtain ⟨s, hSteps, hBook⟩ := State.steps_of_work rfl hWork
  obtain rfl : b = s.book := hBook
  have hTally : s.book.tally = merged.foldl Tally.merge {} := hSteps.tally
  have hAnalyzed : List.Forall₂ plan.Analyzes records (plan.outcomes records) := hOwes.analyzed
  have hEmbedded := Plan.embedded_of_whole hOwes.whole hAnalyzed hFetch
  have hTotal : start.total records fetched = records ++ ((plan.outcomes records).flatMap (·.derived) ++ fetched) :=
    List.append_assoc ..
  rw [hTotal] at hPerm
  have hCount : (merged.map (·.record.fileCount)).sum = records.length := by
    rw [← sum_fileCount hOwes.whole hEmbedded, ← (hPerm.map Record.fileCount).sum_nat, List.map_map]
    rfl
  obtain ⟨hFiles, hKinds⟩ := s.book.tally_close request.toggles
  refine ⟨s.book, _, hWork, execute_of_work hOpen hWork, hTally, hAnalyzed, hSteps.analyzes, ?_, ?_,
    hOwes.assets_eq_nil, ?_, ?_⟩
  · rwa [List.append_assoc]
  · intro o ho hSynthetic
    rcases List.mem_append.mp (hPerm.mem_iff.mp (List.mem_map_of_mem ho)) with hMem | hMem
    · rw [(hOwes.whole _ hMem).synthetic] at hSynthetic
      contradiction
    · exact Record.derived_eq_nil (hEmbedded _ hMem).kind (hSteps.analyzes o ho)
  · rw [hFiles, hTally, Tally.filesAnalyzed_foldl_merge, hCount]
    exact Nat.zero_add _
  · rw [hKinds, hTally, Tally.sum_kinds_foldl_merge, hCount]
    exact Nat.zero_add _

/-! A page with a script of its own and one that it refers to. -/

def scriptedPage : Record :=
  { path := "http://h/i.html", kind := .markup, sizeBytes := 48
    content := "<script>f()</script><script src=\"a.js\"></script>" }

def scriptedBlock : Record :=
  { path := "http://h/i.html", content := "f()", kind := .script, sizeBytes := 3, synthetic := true
    origin := some "http://h/i.html", metadata := [("embedded", "inline")] }

def scriptedAsset : Record :=
  { path := "http://h/a.js", content := "g()", kind := .script, sizeBytes := 3, synthetic := true
    origin := some "http://h/i.html", metadata := [("embedded", "external")] }

def scriptedWeb : World :=
  { disk := { name := "empty" }
    web := { replies := [("http://h/a.js", .response { body := [103, 40, 41] })] } }

def scriptedRequest : Request :=
  { source := { kind := .page, locator := scriptedPage.path, content := some (.text scriptedPage.content) }
    options := { followAssets := true }
    nesting := 100
    schedule := .all }

theorem scriptedRequest_merges_each_record_once :
    let plan := scriptedRequest.plan scriptedWeb
    let supply := Supply.page [scriptedPage]
    let ledger := ({} : Ledger).count
    (∀ reports, scriptedRequest.isCancelled reports = false) ∧
    Collect.openSource scriptedWeb scriptedRequest.options scriptedRequest.source = .ok (supply, ledger) ∧
    Collect.drain scriptedRequest.options supply ledger = .ok ([scriptedPage], ledger) ∧
    (∃ l', plan.fetchPages (plan.outcomes [scriptedPage]) ledger = .ok ([scriptedAsset], l')) ∧
    (((plan.start supply ledger).merged scriptedRequest.isCancelled).map (·.record)).Perm
      [scriptedPage, scriptedBlock, scriptedAsset] ∧
    ∃ report, execute scriptedWeb scriptedRequest = .ok report ∧ report.filesAnalyzed = 1 := by
  intro plan supply ledger
  have hNever : ∀ reports, scriptedRequest.isCancelled reports = false := fun _ => rfl
  have hPage : Collect.page scriptedWeb scriptedRequest.options scriptedRequest.source =
      .ok scriptedPage := by decide +kernel
  have hOpen : Collect.openSource scriptedWeb scriptedRequest.options scriptedRequest.source =
      .ok (supply, ledger) := by
    unfold Collect.openSource
    rw [show scriptedRequest.source.kind = .page from rfl]
    dsimp only
    rw [hPage]
  have hDrain : Collect.drain scriptedRequest.options supply ledger = .ok ([scriptedPage], ledger) := by
    rw [Collect.drain_of_some rfl, Collect.drain_of_none rfl]
    rfl
  have hBlocks : (plan.outcomes [scriptedPage]).flatMap (·.derived) = [scriptedBlock] := by
    decide +kernel
  have hAssets : ((plan.fetchPages (plan.outcomes [scriptedPage]) ledger).map (·.1)).toOption =
      some [scriptedAsset] := by
    decide +kernel
  obtain ⟨l', hFetch⟩ : ∃ l', plan.fetchPages (plan.outcomes [scriptedPage]) ledger =
      .ok ([scriptedAsset], l') := by
    cases hFetch : plan.fetchPages (plan.outcomes [scriptedPage]) ledger with
    | error fault =>
      rw [hFetch] at hAssets
      cases hAssets
    | ok x =>
      obtain ⟨fetched, l'⟩ := x
      rw [hFetch] at hAssets
      cases hAssets
      exact ⟨l', rfl⟩
  obtain ⟨b, report, -, hReport, -, -, -, hPerm, -, -, hFiles, -⟩ :=
    run_merges_each_record_once scriptedWeb scriptedRequest hNever hOpen hDrain hFetch
  refine ⟨hNever, hOpen, hDrain, ⟨l', hFetch⟩, ?_, report, hReport, hFiles⟩
  rwa [hBlocks] at hPerm

end WebAudit.Run
