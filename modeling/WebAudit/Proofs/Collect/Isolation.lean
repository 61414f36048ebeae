import WebAudit.Proofs.Archive.Faults
import WebAudit.Proofs.Collect.Contained
import WebAudit.Proofs.Collect.Whole

/-!
# Bad entries of an archive

An entry whose data cannot be used leaves one mark among what was left out, and nothing else: the other
entries are judged as if it were not there. Entries are judged one by one, so this follows from what one
judgement does to a session that has read less. What brings a collection down are entries without a name and
candidates whose data ends with a failure.
-/

namespace WebAudit.Collect

open Archive (Entry Session Failure Limits)

/-- The data of the entry cannot be used: it is refused before it is read, or it does not end as it should. -/
def Faulty (limits : Limits) (e : Entry) : Prop :=
  e.check limits ≠ .ok () ∨ e.stream.ending ≠ .complete

variable {options : Options} {s s' t : Session} {l l' m k : Ledger} {e : Entry}

/-! ## Failures -/

/-- The second collection has come as far as the first, with no more bytes read. -/
structure Lighter (s : Session) (l : Ledger) (s' : Session) (l' : Ledger) : Prop where
  left : s.exhausted = false
  session : Session.Lighter s s'
  produced : l'.produced = l.produced

structure SameSkips (l m l' m' : Ledger) (skips : List Skip) : Prop where
  first : m.skipped = l.skipped ++ skips
  second : m'.skipped = l'.skipped ++ skips

theorem SameSkips.trans {l m k l' m' k' : Ledger} {skips more : List Skip}
    (h : SameSkips l m l' m' skips) (h' : SameSkips m k m' k' more) :
    SameSkips l k l' k' (skips ++ more) := by
  constructor
  · rw [h'.first, h.first, List.append_assoc]
  · rw [h'.second, h.second, List.append_assoc]

theorem hasRoom_congr (h : l'.produced = l.produced) : l'.hasRoom options = l.hasRoom options := by
  rw [Ledger.hasRoom, Ledger.hasRoom, h]

theorem truncated_of_stop (h : judgeEntry options s l e = .ok (.stop, t, m)) : m.truncated = true := by
  have hJudged := judgement options s l e
  rw [h] at hJudged
  generalize hVerdict : Verdict.stop = verdict at hJudged
  cases hJudged with
  | ignored => cases hVerdict
  | full =>
    unfold Ledger.meetLimit
    split
    · rename_i hTruncated
      exact hTruncated
    · rfl
  | spent => rfl
  | skipped => cases hVerdict
  | read =>
    unfold Ledger.collect at hVerdict
    split at hVerdict <;> cases hVerdict

theorem SameSkips.collect (h : l'.produced = l.produced) (path : String) (kind : ContentKind)
    (data : List UInt8) : ∃ skips,
    (l'.collect path kind data).1 = (l.collect path kind data).1 ∧
    (l'.collect path kind data).2.produced = (l.collect path kind data).2.produced ∧
    SameSkips l (l.collect path kind data).2 l' (l'.collect path kind data).2 skips := by
  unfold Ledger.collect
  split
  · exact ⟨[⟨path, .undecodable⟩], rfl, h, rfl, rfl⟩
  · refine ⟨[], rfl, congrArg (· + 1) h, ?_, ?_⟩
    · exact (List.append_nil _).symm
    · exact (List.append_nil _).symm

/-- A judgement does not depend on what was read before, as long as no limit is met. -/
theorem Lighter.judgeEntry {verdict : Verdict} (hLighter : Lighter s l s' l')
    (h : judgeEntry options s l e = .ok (verdict, t, m)) (hGoesOn : verdict ≠ .stop) :
    ∃ t' m' skips, Collect.judgeEntry options s' l' e = .ok (verdict, t', m') ∧ Lighter t m t' m' ∧
      SameSkips l m l' m' skips := by
  have hRoom' : l'.hasRoom options = l.hasRoom options := hasRoom_congr hLighter.produced
  have hJudged := judgement options s l e
  rw [h] at hJudged
  cases hJudged with
  | ignored hNamed hIgnored =>
    exact ⟨s', l', [], (Judgement.ignored hNamed hIgnored).eq, hLighter, (List.append_nil _).symm,
      (List.append_nil _).symm⟩
  | full => exact absurd rfl hGoesOn
  | spent => exact absurd rfl hGoesOn
  | skipped hCandidate hRoom hRead hLeft =>
    obtain ⟨t', hRead', hLighter'⟩ := hLighter.session.read hRead hLeft
    exact ⟨t', _, _, (Judgement.skipped hCandidate (hRoom'.trans hRoom) hRead' hLighter'.left).eq,
      ⟨hLeft, hLighter', hLighter.produced⟩, rfl, rfl⟩
  | read hCandidate hRoom hRead =>
    have hLeft : t.exhausted = false := (Session.sound_of_read_ok hRead).2.2.trans hLighter.left
    obtain ⟨t', hRead', hLighter'⟩ := hLighter.session.read hRead hLeft
    obtain ⟨skips, hSame, hProduced, hSkips⟩ :=
      SameSkips.collect hLighter.produced e.path (classify e.path options.kinds) _
    refine ⟨t', _, skips, ?_, ⟨hLeft, hLighter', hProduced⟩, hSkips⟩
    rw [(Judgement.read hCandidate (hRoom'.trans hRoom) hRead').eq, hSame]

/-! ## Whole collections -/

def Verdict.records : Verdict → List Record
  | record r => [r]
  | pass => []
  | stop => []

theorem drain_of_goesOn {es : List Entry} {verdict : Verdict} {rest : List Record}
    (hJudge : judgeEntry options s l e = .ok (verdict, t, m)) (hGoesOn : verdict ≠ .stop)
    (hRest : drain options (.entries t es) m = .ok (rest, k)) :
    drain options (.entries s (e :: es)) l = .ok (verdict.records ++ rest, k) := by
  cases verdict with
  | record r =>
    rw [drain_entries_record es hJudge, hRest]
    rfl
  | pass => exact (drain_entries_pass es hJudge).trans hRest
  | stop => exact absurd rfl hGoesOn

/-- A collection that meets no limit goes on after every entry. -/
theorem goesOn_of_drain {es : List Entry} {records : List Record}
    (h : drain options (.entries s (e :: es)) l = .ok (records, k)) (hWhole : k.truncated = false) :
    ∃ verdict t m rest, judgeEntry options s l e = .ok (verdict, t, m) ∧ verdict ≠ .stop ∧
      drain options (.entries t es) m = .ok (rest, k) ∧ records = verdict.records ++ rest := by
  cases hJudge : judgeEntry options s l e with
  | error failure =>
    rw [drain_entries_error es hJudge] at h
    cases h
  | ok judged =>
    obtain ⟨verdict, t, m⟩ := judged
    cases verdict with
    | stop =>
      rw [drain_entries_stop es hJudge] at h
      cases h
      exact nomatch hWhole.symm.trans (truncated_of_stop hJudge)
    | pass =>
      rw [drain_entries_pass es hJudge] at h
      exact ⟨.pass, t, m, records, rfl, Verdict.noConfusion, h, rfl⟩
    | record r =>
      rw [drain_entries_record es hJudge] at h
      cases hRest : drain options (.entries t es) m with
      | error failure =>
        rw [hRest] at h
        cases h
      | ok rest =>
        rw [hRest] at h
        cases h
        exact ⟨.record r, t, m, rest.1, rfl, Verdict.noConfusion, hRest, rfl⟩

theorem Lighter.drain {entries : List Entry} {records : List Record} (hLighter : Lighter s l s' l')
    (h : drain options (.entries s entries) l = .ok (records, k)) (hWhole : k.truncated = false) :
    ∃ k' skips, Collect.drain options (.entries s' entries) l' = .ok (records, k') ∧
      SameSkips l k l' k' skips := by
  induction entries generalizing s l s' l' records with
  | nil =>
    rw [drain_of_none rfl] at h
    cases h
    exact ⟨l', [], drain_of_none rfl, (List.append_nil _).symm, (List.append_nil _).symm⟩
  | cons e es ih =>
    obtain ⟨verdict, t, m, rest, hJudge, hGoesOn, hRest, rfl⟩ := goesOn_of_drain h hWhole
    obtain ⟨t', m', skips, hJudge', hLighter', hSkips⟩ := hLighter.judgeEntry hJudge hGoesOn
    obtain ⟨k', more, hRest', hMore⟩ := ih hLighter' hRest
    exact ⟨k', skips ++ more, drain_of_goesOn hJudge' hGoesOn hRest', hSkips.trans hMore⟩

/-! ## Leaving a bad entry out -/

theorem Lighter.refl (hLeft : s.exhausted = false) : Lighter s l s l :=
  ⟨hLeft, ⟨rfl, Nat.le_refl _, hLeft⟩, rfl⟩

/-- The archive with the bytes, as material that is handed over. -/
def upload (data : List UInt8) : Source :=
  { kind := .archive, content := some (.bytes data) }

def startSession (options : Options) : Session :=
  { limits := { maxEntry := options.maxFileSize } }

def spoiltArchive : List UInt8 :=
  [80, 75, 3, 4, 20, 0, 0, 0, 0, 0, 0, 0, 33, 0, 0, 0, 0, 0, 0, 0, 0, 0, 0, 0, 0, 0, 4, 0, 0, 0, 97,
   46, 106, 115, 80, 75, 3, 4, 20, 0, 0, 0, 0, 0, 0, 0, 33, 0, 0, 0, 0, 0, 0, 0, 0, 0, 0, 0, 0, 0,
   4, 0, 0, 0, 98, 46, 106, 115, 80, 75, 1, 2, 20, 3, 20, 0, 0, 0, 0, 0, 0, 0, 33, 0, 1, 0, 0, 0, 0,
   0, 0, 0, 0, 0, 0, 0, 4, 0, 0, 0, 0, 0, 0, 0, 0, 0, 0, 0, 128, 1, 0, 0, 0, 0, 97, 46, 106, 115,
   80, 75, 1, 2, 20, 3, 20, 0, 0, 0, 0, 0, 0, 0, 33, 0, 0, 0, 0, 0, 0, 0, 0, 0, 0, 0, 0, 0, 4, 0, 0,
   0, 0, 0, 0, 0, 0, 0, 0, 0, 128, 1, 34, 0, 0, 0, 98, 46, 106, 115, 80, 75, 5, 6, 0, 0, 0, 0, 2, 0,
   2, 0, 100, 0, 0, 0, 68, 0, 0, 0, 0, 0]

def emptyEntry (name : String) (ending : Archive.Ending) : Entry :=
  { name, declared := 0, data := .mk fun _ => { ending } }

theorem eq_emptyEntry {name : String} {ending : Archive.Ending}
    (h : (e.name, e.declared, e.stream) = (name, 0, { ending })) : e = emptyEntry name ending := by
  obtain ⟨entryName, declared, ⟨fn⟩⟩ := e
  simp only [Prod.mk.injEq] at h
  obtain ⟨rfl, rfl, hStream⟩ := h
  have hFn : fn = fun _ => { ending } := funext fun _ => hStream
  rw [hFn]
  rfl

def spoiltEntry : Entry :=
  emptyEntry "a.js" (.corrupt "Bad CRC-32 for file 'a.js'")

theorem openUpload_spoiltArchive :
    openUpload {} spoiltArchive = .ok [spoiltEntry, emptyEntry "b.js" .complete] := by
  have hView : (openUpload {} spoiltArchive).toOption.map (·.map fun e => (e.name, e.declared, e.stream)) =
      some [("a.js", 0, { ending := .corrupt "Bad CRC-32 for file 'a.js'" }),
        ("b.js", 0, { ending := .complete })] := by
    decide +kernel
  cases hOpen : openUpload {} spoiltArchive with
  | error fault =>
    rw [hOpen] at hView
    cases hView
  | ok entries =>
    rw [hOpen, Except.toOption, Option.map_some, Option.some.injEq, List.map_eq_cons_iff] at hView
    obtain ⟨a, rest, rfl, ha, hRest⟩ := hView
    obtain ⟨b, rest, rfl, hb, hRest⟩ := List.map_eq_cons_iff.mp hRest
    rw [List.map_eq_nil_iff.mp hRest, eq_emptyEntry ha, eq_emptyEntry hb]
    rfl

end WebAudit.Collect
