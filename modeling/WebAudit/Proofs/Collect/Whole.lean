import WebAudit.Proofs.Collect.Agreement

/-!
# Collected records

All that a supply gives are whole files. What it is going to give depends on the account only as far as
records were produced; the supply of a page does not look at the account at all.
-/

namespace WebAudit

structure Record.Whole (r : Record) : Prop where
  synthetic : r.synthetic = false
  lineOffset : r.lineOffset = 0

theorem Record.Whole.placed {r : Record} (h : r.Whole) : r.Placed :=
  Int.le_of_eq h.lineOffset.symm

namespace Collect

/-! ## Whole files -/

theorem Ledger.whole_collect {l : Ledger} {path : String} {kind : ContentKind} {data : List UInt8}
    {r : Record} (h : Verdict.ofOption (l.collect path kind data).1 = .record r) : r.Whole := by
  unfold Ledger.collect at h
  split at h
  · cases h
  · cases h
    exact ⟨rfl, rfl⟩

theorem whole_judgeFile {options : Options} {l : Ledger} {f : Disk.File} {r : Record}
    (h : (judgeFile options l f).1 = .record r) : r.Whole := by
  unfold judgeFile at h
  dsimp only at h
  split at h
  · cases h
  · split at h
    · cases h
    · split at h
      · cases h
      · cases h
      · split at h
        · cases h
        · exact Ledger.whole_collect h

theorem whole_nextFile {options : Options} {files : List Disk.File} {l : Ledger} {r : Record}
    (h : (nextFile options files l).1 = some r) : r.Whole := by
  induction files generalizing l with
  | nil => cases h
  | cons f fs ih =>
    rw [nextFile] at h
    split at h
    · rename_i hJudge
      cases h
      exact whole_judgeFile (congrArg Prod.fst hJudge)
    · exact ih h
    · cases h

theorem whole_judgeEntry {options : Options} {s s' : Archive.Session} {l l' : Ledger}
    {e : Archive.Entry} {r : Record} (h : judgeEntry options s l e = .ok (.record r, s', l')) :
    r.Whole := by
  unfold judgeEntry at h
  cases hFolder : e.isDirectory with
  | error failure =>
    rw [hFolder] at h
    cases h
  | ok isFolder =>
    rw [hFolder] at h
    dsimp only [bind, Except.bind] at h
    split at h
    · cases h
    · split at h
      · cases h
      · split at h
        · cases h
        · split at h
          · cases h
          · split at h <;> cases h
          · exact Ledger.whole_collect (Prod.mk.inj (Except.ok.inj h)).1

theorem whole_nextEntry {options : Options} {entries rest : List Archive.Entry}
    {s s' : Archive.Session} {l l' : Ledger} {r : Record}
    (h : nextEntry options entries s l = .ok (some r, rest, s', l')) : r.Whole := by
  induction entries generalizing s l with
  | nil => cases h
  | cons e es ih =>
    rw [nextEntry] at h
    split at h
    · cases h
    · rename_i hJudge
      cases h
      exact whole_judgeEntry hJudge
    · exact ih h
    · cases h

namespace Supply

def Whole : Supply → Prop
  | .page rest => ∀ r ∈ rest, r.Whole
  | _ => True

def IsPage : Supply → Prop
  | .page _ => True
  | _ => False

theorem Whole.placed {supply : Supply} (h : supply.Whole) : supply.Placed := by
  cases supply with
  | page rest => exact fun r hr => (h r hr).placed
  | _ => trivial

variable {options : Options} {supply supply' : Supply} {l l' : Ledger}

theorem Whole.next {record : Option Record} (hWhole : supply.Whole)
    (h : supply.next options l = .ok (record, supply', l')) :
    (∀ r, record = some r → r.Whole) ∧ supply'.Whole := by
  unfold Supply.next at h
  split at h
  · cases h
    exact ⟨fun r hr => whole_nextFile hr, trivial⟩
  · split at h
    · cases h
    · rename_i hEntry
      cases h
      refine ⟨?_, trivial⟩
      rintro r rfl
      exact whole_nextEntry hEntry
  · cases h
    exact ⟨by simp, hWhole⟩
  · cases h
    obtain ⟨hHead, hTail⟩ := List.forall_mem_cons.mp hWhole
    refine ⟨?_, hTail⟩
    rintro _ ⟨⟩
    exact hHead

theorem IsPage.next {record : Option Record} (hPage : supply.IsPage)
    (h : supply.next options l = .ok (record, supply', l')) : supply'.IsPage ∧ l' = l := by
  cases supply with
  | page rest =>
    cases rest with
    | nil =>
      cases h
      exact ⟨trivial, rfl⟩
    | cons r rest =>
      cases h
      exact ⟨trivial, rfl⟩
  | files _ => exact hPage.elim
  | entries _ _ => exact hPage.elim

end Supply

theorem whole_page {world : World} {options : Options} {source : Source} {r : Record}
    (h : page world options source = .ok r) : r.Whole := by
  unfold page at h
  cases hRaw : rawPage world source with
  | error fault =>
    rw [hRaw] at h
    cases h
  | ok raw =>
    rw [hRaw] at h
    dsimp only [bind, Except.bind] at h
    split at h
    · cases h
    · split at h
      · cases h
      · cases h
        exact ⟨rfl, rfl⟩

/-- A source opens to a supply of whole files, and a page to the supply of one page. -/
theorem whole_openSource {world : World} {options : Options} {source : Source} {supply : Supply}
    {l : Ledger} (h : openSource world options source = .ok (supply, l)) :
    supply.Whole ∧ (source.kind = .page → supply.IsPage ∧ supply.size = 1) := by
  unfold openSource at h
  split at h
  · rename_i hKind
    cases hOpen : openFolder world options source.locator with
    | error fault =>
      rw [hOpen] at h
      cases h
    | ok files =>
      rw [hOpen] at h
      cases h
      exact ⟨trivial, by simp [hKind]⟩
  · rename_i hKind
    cases hOpen : openArchive world source with
    | error fault =>
      rw [hOpen] at h
      cases h
    | ok entries =>
      rw [hOpen] at h
      cases h
      exact ⟨trivial, by simp [hKind]⟩
  · split at h
    · rename_i hPage
      cases h
      exact ⟨List.forall_mem_singleton.mpr (whole_page hPage), fun _ => ⟨trivial, rfl⟩⟩
    · cases h

/-! ## What a supply gives -/

section Drain

variable {options : Options} {supply supply' : Supply} {l l' : Ledger}

theorem drain_of_error {failure : Archive.Failure} (h : supply.next options l = .error failure) :
    drain options supply l = .error failure := by
  rw [drain]
  split
  all_goals
    rename_i hNext
    rw [h] at hNext
    cases hNext
  rfl

theorem drain_of_none (h : supply.next options l = .ok (none, supply', l')) :
    drain options supply l = .ok ([], l') := by
  rw [drain]
  split
  all_goals
    rename_i hNext
    rw [h] at hNext
    cases hNext
  rfl

theorem drain_of_some {r : Record} (h : supply.next options l = .ok (some r, supply', l')) :
    drain options supply l =
      (drain options supply' l').map fun (records, l) => (r :: records, l) := by
  rw [drain]
  split
  all_goals
    rename_i hNext
    rw [h] at hNext
    cases hNext
  cases drain options supply' l' <;> rfl

/-- What is drained is settled by what comes next. -/
theorem drain_congr (h : supply.next options l = supply'.next options l') :
    drain options supply l = drain options supply' l' := by
  cases hNext : supply'.next options l' with
  | error failure => rw [drain_of_error hNext, drain_of_error (h.trans hNext)]
  | ok x =>
    obtain ⟨record, rest, m⟩ := x
    cases record with
    | none => rw [drain_of_none hNext, drain_of_none (h.trans hNext)]
    | some r => rw [drain_of_some hNext, drain_of_some (h.trans hNext)]

end Drain

/-! ## One candidate after the other -/

section Candidates

variable {options : Options} {l m : Ledger} {r : Record}

section Files

variable {f : Disk.File} (fs : List Disk.File)

theorem drain_files_record (h : judgeFile options l f = (.record r, m)) :
    drain options (.files (f :: fs)) l =
      (drain options (.files fs) m).map fun (records, l) => (r :: records, l) := by
  have hNext : (Supply.files (f :: fs)).next options l = .ok (some r, .files fs, m) := by
    rw [Supply.next, nextFile, h]
  exact drain_of_some hNext

theorem drain_files_pass (h : judgeFile options l f = (.pass, m)) :
    drain options (.files (f :: fs)) l = drain options (.files fs) m := by
  refine drain_congr ?_
  rw [Supply.next, Supply.next, nextFile, h]

theorem drain_files_stop (h : judgeFile options l f = (.stop, m)) :
    drain options (.files (f :: fs)) l = .ok ([], m) := by
  have hNext : (Supply.files (f :: fs)).next options l = .ok (none, .files [], m) := by
    rw [Supply.next, nextFile, h]
  exact drain_of_none hNext

end Files

theorem collect_folder {world : World} (options : Options) {source : Source} {location : Disk.Location}
    {children : List (String × Disk.Tree)} (hFolder : source.kind = .directory)
    (hPlace : world.disk.place source.locator = .ok location)
    (hTree : world.disk.tree.at? location = some (.folder children)) :
    collect world options source =
      (drain options (.files (Disk.filesBelow world.disk.tree options.denied location)) {}).mapError .archive := by
  unfold collect openSource openFolder
  rw [hFolder, hPlace]
  dsimp only
  rw [hTree]
  rfl

section Entries

variable {e : Archive.Entry} {s s' : Archive.Session} (es : List Archive.Entry)

theorem drain_entries_error {failure : Archive.Failure}
    (h : judgeEntry options s l e = .error failure) :
    drain options (.entries s (e :: es)) l = .error failure := by
  have hNext : (Supply.entries s (e :: es)).next options l = .error failure := by
    rw [Supply.next, nextEntry, h]
  exact drain_of_error hNext

theorem drain_entries_record (h : judgeEntry options s l e = .ok (.record r, s', m)) :
    drain options (.entries s (e :: es)) l =
      (drain options (.entries s' es) m).map fun (records, l) => (r :: records, l) := by
  have hNext : (Supply.entries s (e :: es)).next options l = .ok (some r, .entries s' es, m) := by
    rw [Supply.next, nextEntry, h]
  exact drain_of_some hNext

theorem drain_entries_pass (h : judgeEntry options s l e = .ok (.pass, s', m)) :
    drain options (.entries s (e :: es)) l = drain options (.entries s' es) m := by
  refine drain_congr ?_
  rw [Supply.next, Supply.next, nextEntry, h]

theorem drain_entries_stop (h : judgeEntry options s l e = .ok (.stop, s', m)) :
    drain options (.entries s (e :: es)) l = .ok ([], m) := by
  have hNext : (Supply.entries s (e :: es)).next options l = .ok (none, .entries s' [], m) := by
    rw [Supply.next, nextEntry, h]
  exact drain_of_none hNext

end Entries

end Candidates

def Supply.Yields (options : Options) (supply : Supply) (l : Ledger) (records : List Record) : Prop :=
  ∃ l', drain options supply l = .ok (records, l')

namespace Supply

variable {options : Options} {supply : Supply} {l : Ledger} {records : List Record}

theorem yields_nil {supply' : Supply} {l' : Ledger}
    (h : supply.next options l = .ok (none, supply', l')) : supply.Yields options l [] :=
  ⟨l', drain_of_none h⟩

theorem yields_cons {supply' : Supply} {l' : Ledger} {r : Record}
    (h : supply.next options l = .ok (some r, supply', l'))
    (hRest : supply'.Yields options l' records) : supply.Yields options l (r :: records) := by
  obtain ⟨l'', hDrain⟩ := hRest
  refine ⟨l'', ?_⟩
  rw [drain_of_some h, hDrain]
  rfl

theorem Yields.next (h : supply.Yields options l records) :
    (∃ supply' l', supply.next options l = .ok (none, supply', l') ∧ records = []) ∨
    ∃ r rest supply' l', supply.next options l = .ok (some r, supply', l') ∧ records = r :: rest ∧
      supply'.Yields options l' rest := by
  obtain ⟨last, hDrain⟩ := h
  cases hNext : supply.next options l with
  | error failure =>
    rw [drain_of_error hNext] at hDrain
    cases hDrain
  | ok x =>
    obtain ⟨record, supply', l'⟩ := x
    cases record with
    | none =>
      rw [drain_of_none hNext] at hDrain
      cases hDrain
      exact .inl ⟨supply', _, rfl, rfl⟩
    | some r =>
      rw [drain_of_some hNext] at hDrain
      cases hRest : drain options supply' l' with
      | error failure =>
        rw [hRest] at hDrain
        cases hDrain
      | ok y =>
        rw [hRest] at hDrain
        cases hDrain
        exact .inr ⟨r, y.1, supply', l', rfl, rfl, y.2, hRest⟩

theorem Yields.length_le (h : supply.Yields options l records) : records.length ≤ supply.size := by
  induction records generalizing supply l with
  | nil => exact Nat.zero_le _
  | cons r rest ih =>
    obtain ⟨_, _, _, hNil⟩ | ⟨_, _, supply', m, hNext, hCons, hRest⟩ := h.next
    · cases hNil
    · cases hCons
      exact Nat.lt_of_le_of_lt (ih hRest) ((next_size hNext).2 rfl)

/-- Events do not change what a supply gives. -/
theorem Yields.agrees {l' : Ledger} (h : supply.Yields options l records) (hWhole : supply.Whole)
    (hAgrees : l.Agrees l') : supply.Yields options l' records := by
  induction records generalizing supply l l' with
  | nil =>
    obtain ⟨supply', m, hNext, -⟩ | ⟨_, _, _, _, _, hCons, _⟩ := h.next
    · have hRelated := next_agrees hAgrees options hWhole.placed
      rw [hNext] at hRelated
      obtain ⟨_, hNo, _⟩ | ⟨_, ⟨record, t, m'⟩, hOk, hOk', hSame, _⟩ := Related.iff_exists.mp hRelated
      · cases hNo
      · cases hOk
        cases hSame.next.record
        exact yields_nil hOk'
    · cases hCons
  | cons r rest ih =>
    obtain ⟨_, _, _, hNil⟩ | ⟨_, _, supply', m, hNext, hCons, hRest⟩ := h.next
    · cases hNil
    · cases hCons
      have hRelated := next_agrees hAgrees options hWhole.placed
      rw [hNext] at hRelated
      obtain ⟨_, hNo, _⟩ | ⟨_, ⟨record, t, m'⟩, hOk, hOk', hSame, _⟩ := Related.iff_exists.mp hRelated
      · cases hNo
      · cases hOk
        cases hSame.next.record
        cases hSame.rest
        exact yields_cons hOk' (ih hRest (hWhole.next hNext).2 hSame.next.ledger)

/-- The supply of a page does not look at the account. -/
theorem IsPage.yields (hPage : supply.IsPage) (h : supply.Yields options l records) (l' : Ledger) :
    supply.Yields options l' records := by
  cases supply with
  | files _ => exact hPage.elim
  | entries _ _ => exact hPage.elim
  | page waiting =>
    induction waiting generalizing records with
    | nil =>
      obtain ⟨_, _, _, rfl⟩ | ⟨_, _, _, _, hNext, _⟩ := h.next
      · exact yields_nil rfl
      · cases hNext
    | cons r waiting ih =>
      obtain ⟨_, _, hNext, _⟩ | ⟨_, _, _, _, hNext, rfl, hRest⟩ := h.next
      · cases hNext
      · cases hNext
        exact yields_cons rfl (ih trivial hRest)

theorem Yields.whole (h : supply.Yields options l records) (hWhole : supply.Whole) :
    ∀ r ∈ records, r.Whole := by
  induction records generalizing supply l with
  | nil => simp
  | cons r rest ih =>
    obtain ⟨_, _, _, hNil⟩ | ⟨_, _, supply', m, hNext, hCons, hRest⟩ := h.next
    · cases hNil
    · cases hCons
      obtain ⟨hHead, hTail⟩ := hWhole.next hNext
      exact List.forall_mem_cons.mpr ⟨hHead r rfl, ih hRest hTail⟩

end Supply

end Collect

end WebAudit
