import WebAudit.Collect.Collector
import WebAudit.Proofs.Collect.Judgement
import WebAudit.Proofs.Path.Contained

/-!
# Records of an archive stay inside it

Whatever the entries of an archive are called, a record is made only of an entry whose name does not lead
out, and its path is the name in normal form. A name of which nothing is left in that form has no extension,
so no table of kinds supports it.
-/

namespace WebAudit

theorem Archive.Session.escapes_eq_false_of_read {s s' : Session} {e : Entry} {data : List UInt8}
    (h : s.read e = (.ok data, s')) : Path.escapes e.name = false := by
  unfold read at h
  cases hCheck : e.check s.limits with
  | error fault =>
    rw [hCheck] at h
    cases h
  | ok =>
    unfold Entry.check at hCheck
    split at hCheck
    · cases hCheck
    · rename_i hInside
      simpa using hInside

theorem classify_dot (kinds : KindTable) : classify "." kinds = .unsupported := by
  have hExtension : (Text.extension ".").isEmpty = true := by decide
  unfold classify
  dsimp only
  rw [if_pos hExtension]

namespace Collect

open Archive (Entry Session)

/-- The record is given when the supply is asked often enough, whatever comes behind it. -/
inductive Supply.Gives (options : Options) : Supply → Ledger → Record → Prop
  | next {supply supply' : Supply} {l l' : Ledger} {r : Record}
    (hNext : supply.next options l = .ok (some r, supply', l')) : Gives options supply l r
  | later {supply supply' : Supply} {l l' : Ledger} {r r' : Record}
    (hNext : supply.next options l = .ok (some r', supply', l'))
    (hLater : Gives options supply' l' r) : Gives options supply l r

/-- The path leads down, and through no folder that is passed over. -/
structure Inside (options : Options) (path : List Char) : Prop extends Path.Contained path where
  allowed : ∀ c ∈ (Path.components path).dropLast, String.ofList c ∉ options.denied

theorem Ledger.path_of_collect {l : Ledger} {path : String} {kind : ContentKind} {data : List UInt8}
    {r : Record} (h : Verdict.ofOption (l.collect path kind data).1 = .record r) : r.path = path := by
  unfold Ledger.collect at h
  split at h
  · cases h
  · cases h
    rfl

theorem Candidate.inside {options : Options} {e : Entry} (h : Candidate options e)
    (hEscapes : Path.escapes e.name = false) : Inside options e.path.toList := by
  have hNamed : Path.normalName e.name ≠ ['.'] := by
    intro hDot
    apply h.supported
    rw [Entry.path, hDot]
    exact classify_dot options.kinds
  have hPath : e.path.toList = Path.normalName e.name := String.toList_ofList
  rw [hPath]
  refine ⟨Path.contained_normalName hEscapes hNamed, ?_⟩
  intro c hc hDenied
  have hOutside := h.outside
  rw [insideDenied, List.any_eq_false] at hOutside
  exact hOutside c hc (List.contains_iff_mem.mpr hDenied)

theorem inside_of_judgeEntry {options : Options} {s s' : Session} {l l' : Ledger} {e : Entry} {r : Record}
    (h : judgeEntry options s l e = .ok (.record r, s', l')) : Inside options r.path.toList := by
  have hJudged := judgement options s l e
  rw [h] at hJudged
  generalize hVerdict : Verdict.record r = verdict at hJudged
  cases hJudged with
  | ignored => cases hVerdict
  | full => cases hVerdict
  | spent => cases hVerdict
  | skipped => cases hVerdict
  | read hCandidate _ hRead =>
    rw [Ledger.path_of_collect hVerdict.symm]
    exact hCandidate.inside (Session.escapes_eq_false_of_read hRead)

theorem inside_of_nextEntry {options : Options} {entries rest : List Entry} {s s' : Session}
    {l l' : Ledger} {r : Record} (h : nextEntry options entries s l = .ok (some r, rest, s', l')) :
    Inside options r.path.toList := by
  induction entries generalizing s l with
  | nil => cases h
  | cons e es ih =>
    rw [nextEntry] at h
    split at h
    · cases h
    · rename_i hJudge
      cases h
      exact inside_of_judgeEntry hJudge
    · exact ih h
    · cases h

/-- What is left of a supply of entries are entries. -/
theorem Supply.next_entries {options : Options} {s : Session} {entries : List Entry} {l l' : Ledger}
    {r : Option Record} {supply : Supply}
    (h : (Supply.entries s entries).next options l = .ok (r, supply, l')) :
    ∃ s' rest, supply = .entries s' rest ∧ nextEntry options entries s l = .ok (r, rest, s', l') := by
  rw [Supply.next] at h
  split at h
  · cases h
  · rename_i hNext
    cases h
    exact ⟨_, _, rfl, hNext⟩

theorem Supply.Gives.inside {options : Options} {supply : Supply} {l : Ledger} {r : Record}
    (h : supply.Gives options l r) {s : Session} {entries : List Entry}
    (hEntries : supply = .entries s entries) : Inside options r.path.toList := by
  induction h generalizing s entries with
  | next hNext =>
    subst hEntries
    obtain ⟨_, _, _, hEntry⟩ := next_entries hNext
    exact inside_of_nextEntry hEntry
  | later hNext _ ih =>
    subst hEntries
    obtain ⟨_, _, hRest, _⟩ := next_entries hNext
    exact ih hRest

theorem openSource_archive {world : World} {options : Options} {source : Source} {supply : Supply}
    {l : Ledger} (hKind : source.kind = .archive) (h : openSource world options source = .ok (supply, l)) :
    ∃ entries, openArchive world source = .ok entries ∧ l = {} ∧
      supply = .entries { limits := { maxEntry := options.maxFileSize } } entries := by
  unfold openSource at h
  rw [hKind] at h
  dsimp only at h
  cases hOpen : openArchive world source with
  | error fault =>
    rw [hOpen] at h
    cases h
  | ok entries =>
    rw [hOpen] at h
    cases h
    exact ⟨entries, rfl, rfl, rfl⟩

/-- No record that an archive gives has a path that leads out of the archive or through a folder that is
passed over. -/
theorem archive_records_stay_inside {world : World} {options : Options} {source : Source}
    {supply : Supply} {l : Ledger} {r : Record} (hArchive : source.kind = .archive)
    (hOpen : openSource world options source = .ok (supply, l)) (hGives : supply.Gives options l r) :
    Inside options r.path.toList := by
  obtain ⟨entries, -, -, hSupply⟩ := openSource_archive hArchive hOpen
  exact hGives.inside hSupply

/-! An archive with an entry that leads out, and one whose name goes a roundabout way. -/

def windingArchive : List UInt8 :=
  [80, 75, 3, 4, 20, 0, 0, 0, 0, 0, 0, 0, 33, 0, 0, 0, 0, 0, 0, 0, 0, 0, 0, 0, 0, 0, 7, 0, 0,
   0, 46, 46, 47, 97, 46, 106, 115, 80, 75, 3, 4, 20, 0, 0, 0, 0, 0, 0, 0, 33, 0, 0, 0, 0, 0,
   0, 0, 0, 0, 0, 0, 0, 0, 15, 0, 0, 0, 120, 92, 46, 46, 92, 108, 105, 98, 47, 46, 47, 98, 46,
   106, 115, 80, 75, 1, 2, 20, 3, 20, 0, 0, 0, 0, 0, 0, 0, 33, 0, 0, 0, 0, 0, 0, 0, 0, 0, 0,
   0, 0, 0, 7, 0, 0, 0, 0, 0, 0, 0, 0, 0, 0, 0, 128, 1, 0, 0, 0, 0, 46, 46, 47, 97, 46, 106,
   115, 80, 75, 1, 2, 20, 3, 20, 0, 0, 0, 0, 0, 0, 0, 33, 0, 0, 0, 0, 0, 0, 0, 0, 0, 0, 0, 0,
   0, 15, 0, 0, 0, 0, 0, 0, 0, 0, 0, 0, 0, 128, 1, 37, 0, 0, 0, 120, 92, 46, 46, 92, 108, 105,
   98, 47, 46, 47, 98, 46, 106, 115, 80, 75, 5, 6, 0, 0, 0, 0, 2, 0, 2, 0, 114, 0, 0, 0, 82,
   0, 0, 0, 0, 0]

theorem windingArchive_record_inside :
    let world : World := { disk := { name := "top", tree := .folder [] } }
    let source : Source := { kind := .archive, content := some (.bytes windingArchive) }
    ∃ supply l r, openSource world {} source = .ok (supply, l) ∧ supply.Gives {} l r ∧
      r.path = "lib/b.js" ∧ Inside {} r.path.toList := by
  intro world source
  have hPath : ((openSource world {} source).toOption.bind fun opened =>
      (opened.1.next {} opened.2).toOption.bind fun next => next.1.map (·.path)) = some "lib/b.js" := by
    decide +kernel
  cases hOpen : openSource world {} source with
  | error fault =>
    rw [hOpen] at hPath
    cases hPath
  | ok opened =>
    obtain ⟨supply, l⟩ := opened
    rw [hOpen] at hPath
    cases hNext : supply.next {} l with
    | error failure =>
      simp [Except.toOption, hNext] at hPath
    | ok next =>
      obtain ⟨record, supply', l'⟩ := next
      simp only [Except.toOption, hNext, Option.bind_some] at hPath
      obtain ⟨r, rfl, hRecord⟩ := Option.map_eq_some_iff.mp hPath
      exact ⟨supply, l, r, rfl, .next hNext, hRecord, archive_records_stay_inside rfl hOpen (.next hNext)⟩

end Collect

end WebAudit
