import WebAudit.Proofs.Analysis.Embedded
import WebAudit.Proofs.Collect.Whole
import WebAudit.Proofs.Run.Selection
import WebAudit.Proofs.Run.Tally

/-!
# What a run collects and fetches

Every collected record has an outcome. What is fetched for pages does not depend on the events noted in between,
and all of it belongs to a page.
-/

namespace WebAudit.Run.Plan

open Collect (Supply Ledger)

variable {plan : Plan}

/-! ## Outcomes -/

def outcomes (plan : Plan) (rs : List Record) : List Outcome :=
  rs.filterMap fun r => (r.analyze plan.toggles plan.nesting plan.followAssets).toOption

theorem outcomes_cons {r : Record} {o : Outcome} (h : plan.Analyzes r o) (rs : List Record) :
    plan.outcomes (r :: rs) = o :: plan.outcomes rs := by
  unfold outcomes
  rw [List.filterMap_cons_some]
  rw [show r.analyze plan.toggles plan.nesting plan.followAssets = .ok o from h]
  rfl

/-- Every record has an outcome. -/
theorem analyzes_outcomes (plan : Plan) {rs : List Record} (h : ∀ r ∈ rs, r.Placed) :
    List.Forall₂ plan.Analyzes rs (plan.outcomes rs) := by
  induction rs with
  | nil => exact .nil
  | cons r rs ih =>
    obtain ⟨hHead, hTail⟩ := List.forall_mem_cons.mp h
    obtain ⟨o, -, hAnalyze, -⟩ := hHead.analyze plan.toggles plan.nesting plan.followAssets
    rw [outcomes_cons hAnalyze]
    exact .cons hAnalyze (ih hTail)

theorem analyzes_of_mem {rs : List Record} {os : List Outcome}
    (h : List.Forall₂ plan.Analyzes rs os) : ∀ o ∈ os, o.record ∈ rs ∧ plan.Analyzes o.record o := by
  induction h with
  | nil => simp
  | @cons r o rs os hHead _ ih =>
    have hRecord := hHead.record
    refine List.forall_mem_cons.mpr ⟨⟨by simp [hRecord], by rwa [hRecord]⟩, ?_⟩
    intro o ho
    exact ⟨List.mem_cons_of_mem r (ih o ho).1, (ih o ho).2⟩

/-! ## Fetching -/

/-- The assets of pages, requested one after the other. -/
def fetchPages (plan : Plan) : List Outcome → Ledger → Except Fault (List Record × Ledger)
  | [], l => .ok ([], l)
  | o :: os, l => do
    let (assets, l) ← plan.fetchAll o.record.path o.assets l
    let (more, l) ← plan.fetchPages os l
    return (assets ++ more, l)

theorem fetchAll_events {origin : String} {assets : List Markup.Asset} {l m l' : Ledger}
    {fetched : List Record} (h : plan.fetchAll origin assets l = .ok (fetched, m))
    (hAgrees : l.Agrees l') :
    ∃ m', plan.fetchAll origin assets l' = .ok (fetched, m') ∧ m.Agrees m' := by
  have hRelated := plan.fetchAll_agrees hAgrees origin assets
  rw [h] at hRelated
  obtain ⟨_, hNo, _⟩ | ⟨_, ⟨records, m'⟩, hOk, hOk', ⟨hSame, _⟩, hLedger⟩ :=
    Related.iff_exists.mp hRelated
  · cases hNo
  · cases hOk
    cases hSame
    exact ⟨m', hOk', hLedger⟩

theorem fetchPages_cons {o : Outcome} {os : List Outcome} {l m : Ledger} {fetched : List Record} :
    plan.fetchPages (o :: os) l = .ok (fetched, m) ↔
      ∃ assets k more, plan.fetchAll o.record.path o.assets l = .ok (assets, k) ∧
        plan.fetchPages os k = .ok (more, m) ∧ fetched = assets ++ more := by
  rw [fetchPages]
  cases hHead : plan.fetchAll o.record.path o.assets l with
  | error fault => simp [bind, Except.bind]
  | ok x =>
    cases hTail : plan.fetchPages os x.2 with
    | error fault =>
      simp only [bind, Except.bind, hTail, reduceCtorEq, Except.ok.injEq, false_iff]
      rintro ⟨assets, k, more, rfl, hMore, -⟩
      rw [hTail] at hMore
      cases hMore
    | ok y =>
      simp only [bind, Except.bind, hTail, pure, Except.pure, Except.ok.injEq, Prod.mk.injEq]
      constructor
      · rintro ⟨rfl, rfl⟩
        exact ⟨x.1, x.2, y.1, rfl, hTail, rfl⟩
      · rintro ⟨assets, k, more, rfl, hMore, rfl⟩
        rw [hTail] at hMore
        cases hMore
        exact ⟨rfl, rfl⟩

/-- Events do not change what is fetched. -/
theorem fetchPages_agrees {os : List Outcome} {l m l' : Ledger} {fetched : List Record}
    (h : plan.fetchPages os l = .ok (fetched, m)) (hAgrees : l.Agrees l') :
    ∃ m', plan.fetchPages os l' = .ok (fetched, m') ∧ m.Agrees m' := by
  induction os generalizing l l' fetched with
  | nil =>
    cases h
    exact ⟨l', rfl, hAgrees⟩
  | cons o os ih =>
    obtain ⟨assets, k, more, hHead, hTail, rfl⟩ := fetchPages_cons.mp h
    obtain ⟨k', hHead', hAgrees'⟩ := fetchAll_events hHead hAgrees
    obtain ⟨m', hTail', hAgrees''⟩ := ih hTail hAgrees'
    exact ⟨m', fetchPages_cons.mpr ⟨assets, k', more, hHead', hTail', rfl⟩, hAgrees''⟩

theorem fetchPages_of_no_assets {os : List Outcome} (h : ∀ o ∈ os, o.assets = []) (l : Ledger) :
    plan.fetchPages os l = .ok ([], l) := by
  induction os with
  | nil => rfl
  | cons o os ih =>
    obtain ⟨hHead, hTail⟩ := List.forall_mem_cons.mp h
    refine fetchPages_cons.mpr ⟨[], l, [], ?_, ih hTail, rfl⟩
    rw [hHead]
    rfl

theorem embedded_fetchAll {origin : String} {assets : List Markup.Asset} {l m : Ledger}
    {fetched : List Record} (hKind : ∀ a ∈ assets, a.kind ≠ .markup)
    (h : plan.fetchAll origin assets l = .ok (fetched, m)) : ∀ r ∈ fetched, r.Embedded := by
  induction assets generalizing l fetched with
  | nil =>
    cases h
    simp
  | cons a rest ih =>
    obtain ⟨hHead, hTail⟩ := List.forall_mem_cons.mp hKind
    rw [fetchAll_cons] at h
    split at h
    · cases h
    · rename_i record k hFetch
      split at h
      · cases h
      · rename_i hRest
        cases h
        refine List.forall_mem_append.mpr ⟨?_, ih hTail hRest⟩
        intro r hr
        rw [Option.mem_toList] at hr
        subst hr
        obtain ⟨hSame, hSynthetic, hOffset⟩ := Collect.record_of_fetchAsset hFetch
        exact ⟨hSynthetic, Int.le_of_eq hOffset.symm, hSame ▸ hHead⟩

theorem embedded_fetchPages {os : List Outcome} {l m : Ledger} {fetched : List Record}
    (hKind : ∀ o ∈ os, ∀ a ∈ o.assets, a.kind ≠ .markup)
    (h : plan.fetchPages os l = .ok (fetched, m)) : ∀ r ∈ fetched, r.Embedded := by
  induction os generalizing l fetched with
  | nil =>
    cases h
    simp
  | cons o os ih =>
    obtain ⟨hHead, hTail⟩ := List.forall_mem_cons.mp hKind
    obtain ⟨assets, k, more, hFetch, hRest, rfl⟩ := fetchPages_cons.mp h
    exact List.forall_mem_append.mpr ⟨embedded_fetchAll hHead hFetch, ih hTail hRest⟩

/-- The blocks and the assets of whole files belong to pages. -/
theorem embedded_of_whole {rs : List Record} {os : List Outcome} {l m : Ledger} {fetched : List Record}
    (hWhole : ∀ r ∈ rs, r.Whole) (hAnalyzed : List.Forall₂ plan.Analyzes rs os)
    (hFetch : plan.fetchPages os l = .ok (fetched, m)) :
    ∀ r ∈ os.flatMap (·.derived) ++ fetched, r.Embedded := by
  refine List.forall_mem_append.mpr ⟨?_, embedded_fetchPages ?_ hFetch⟩
  · intro r hr
    obtain ⟨o, ho, hDerived⟩ := List.mem_flatMap.mp hr
    obtain ⟨hMem, hAnalyze⟩ := analyzes_of_mem hAnalyzed o ho
    exact (hWhole _ hMem).placed.embedded_derived hAnalyze r hDerived
  · intro o ho
    exact Record.kind_assets (analyzes_of_mem hAnalyzed o ho).2

end WebAudit.Run.Plan
