import WebAudit.Collect.Entries

/-!
# What can become of an entry

All that happens when an entry of an archive is judged, case by case. An entry that is a file of a supported
kind outside the folders that are passed over is a candidate for a record; only candidates are read.
-/

namespace WebAudit

def Archive.Entry.path (e : Archive.Entry) : String :=
  String.ofList (Path.normalName e.name)

namespace Collect

open Archive (Entry Session Failure EntryFault)

structure Candidate (options : Options) (e : Entry) : Prop where
  file : e.isDirectory = .ok false
  outside : insideDenied options.denied (Path.normalName e.name) = false
  supported : classify e.path options.kinds ≠ .unsupported

inductive Judgement (options : Options) (s : Session) (l : Ledger) (e : Entry) :
    Except Failure (Verdict × Session × Ledger) → Prop
  | nameless {failure : Failure} (hName : e.isDirectory = .error failure) :
    Judgement options s l e (.error failure)
  | ignored (hNamed : ∃ isFolder, e.isDirectory = .ok isFolder) (hIgnored : ¬ Candidate options e) :
    Judgement options s l e (.ok (.pass, s, l))
  | full (hCandidate : Candidate options e) (hRoom : l.hasRoom options = false) :
    Judgement options s l e (.ok (.stop, s, l.meetLimit))
  | aborted {failure : Failure} {s' : Session} (hCandidate : Candidate options e)
    (hRoom : l.hasRoom options = true) (hRead : s.read e = (.error (.failed failure), s')) :
    Judgement options s l e (.error failure)
  | spent {fault : EntryFault} {s' : Session} (hCandidate : Candidate options e)
    (hRoom : l.hasRoom options = true) (hRead : s.read e = (.error (.entry fault), s'))
    (hSpent : s'.exhausted = true) :
    Judgement options s l e (.ok (.stop, s', (l.skip e.path (.ofMessage fault.message)).cut))
  | skipped {fault : EntryFault} {s' : Session} (hCandidate : Candidate options e)
    (hRoom : l.hasRoom options = true) (hRead : s.read e = (.error (.entry fault), s'))
    (hLeft : s'.exhausted = false) :
    Judgement options s l e (.ok (.pass, s', l.skip e.path (.ofMessage fault.message)))
  | read {data : List UInt8} {s' : Session} (hCandidate : Candidate options e)
    (hRoom : l.hasRoom options = true) (hRead : s.read e = (.ok data, s')) :
    Judgement options s l e
      (.ok (.ofOption (l.collect e.path (classify e.path options.kinds) data).1, s',
        (l.collect e.path (classify e.path options.kinds) data).2))

theorem judgement (options : Options) (s : Session) (l : Ledger) (e : Entry) :
    Judgement options s l e (judgeEntry options s l e) := by
  unfold judgeEntry
  cases hFile : e.isDirectory with
  | error failure => exact .nameless hFile
  | ok isFolder =>
    dsimp only [bind, Except.bind]
    cases isFolder with
    | true => exact .ignored ⟨true, hFile⟩ fun h => nomatch hFile.symm.trans h.file
    | false =>
      rw [if_neg Bool.false_ne_true]
      split
      · rename_i hIgnored
        refine .ignored ⟨false, hFile⟩ fun h => ?_
        rcases Bool.or_eq_true_iff.mp hIgnored with hInside | hKind
        · exact nomatch h.outside.symm.trans hInside
        · exact h.supported (of_decide_eq_true hKind)
      · rename_i hLooked
        rw [Bool.not_eq_true, Bool.or_eq_false_iff, decide_eq_false_iff_not] at hLooked
        have hCandidate : Candidate options e := ⟨hFile, hLooked.1, hLooked.2⟩
        split
        · rename_i hRoom
          exact .full hCandidate (by simpa using hRoom)
        · rename_i hRoom
          have hRoom : l.hasRoom options = true := by simpa using hRoom
          split
          · rename_i hRead
            exact .aborted hCandidate hRoom hRead
          · rename_i hRead
            split
            · rename_i hSpent
              exact .spent hCandidate hRoom hRead hSpent
            · rename_i hLeft
              exact .skipped hCandidate hRoom hRead (by simpa using hLeft)
          · rename_i hRead
            exact .read hCandidate hRoom hRead

theorem Candidate.not_ignored {options : Options} {e : Entry} (h : Candidate options e) :
    ¬ (insideDenied options.denied (Path.normalName e.name) ||
      decide (classify (String.ofList (Path.normalName e.name)) options.kinds = .unsupported)) = true := by
  have hSupported : classify (String.ofList (Path.normalName e.name)) options.kinds ≠ .unsupported :=
    h.supported
  simp [h.outside, hSupported]

/-- The reasons settle the outcome. -/
theorem Judgement.eq {options : Options} {s : Session} {l : Ledger} {e : Entry}
    {outcome : Except Failure (Verdict × Session × Ledger)} (h : Judgement options s l e outcome) :
    judgeEntry options s l e = outcome := by
  unfold judgeEntry
  cases h with
  | nameless hName =>
    rw [hName]
    rfl
  | ignored hNamed hIgnored =>
    obtain ⟨isFolder, hFile⟩ := hNamed
    rw [hFile]
    dsimp only [bind, Except.bind]
    cases isFolder with
    | true => rfl
    | false =>
      rw [if_neg Bool.false_ne_true, if_pos]
      · rfl
      · rw [Bool.or_eq_true_iff, decide_eq_true_eq, Classical.or_iff_not_imp_left, Bool.not_eq_true]
        intro hOutside
        exact Classical.byContradiction fun hSupported => hIgnored ⟨hFile, hOutside, hSupported⟩
  | full hCandidate hRoom =>
    rw [hCandidate.file]
    dsimp only [bind, Except.bind]
    rw [if_neg Bool.false_ne_true, if_neg hCandidate.not_ignored, hRoom]
    rfl
  | aborted hCandidate hRoom hRead =>
    rw [hCandidate.file]
    dsimp only [bind, Except.bind]
    rw [if_neg Bool.false_ne_true, if_neg hCandidate.not_ignored, hRoom, hRead]
    rfl
  | spent hCandidate hRoom hRead hSpent =>
    rw [hCandidate.file]
    dsimp only [bind, Except.bind]
    rw [if_neg Bool.false_ne_true, if_neg hCandidate.not_ignored, hRoom, hRead]
    dsimp only
    rw [hSpent]
    rfl
  | skipped hCandidate hRoom hRead hLeft =>
    rw [hCandidate.file]
    dsimp only [bind, Except.bind]
    rw [if_neg Bool.false_ne_true, if_neg hCandidate.not_ignored, hRoom, hRead]
    dsimp only
    rw [hLeft]
    rfl
  | read hCandidate hRoom hRead =>
    rw [hCandidate.file]
    dsimp only [bind, Except.bind]
    rw [if_neg Bool.false_ne_true, if_neg hCandidate.not_ignored, hRoom, hRead]
    rfl

end Collect

end WebAudit
