import WebAudit.Collect.Collector
import WebAudit.Proofs.Related

/-!
# Collecting does not depend on what was noted

Accounts that agree on all but their events lead to the same records, and agree afterwards. All records
that are collected start at the first line of their file.
-/

namespace WebAudit

/-- No line of the record is reported in front of the first line. -/
def Record.Placed (r : Record) : Prop :=
  0 ≤ r.lineOffset

namespace Collect

structure Ledger.Agrees (l l' : Ledger) : Prop where
  skipped : l.skipped = l'.skipped
  truncated : l.truncated = l'.truncated
  produced : l.produced = l'.produced

namespace Ledger.Agrees

variable {l l' : Ledger}

theorem refl (l : Ledger) : l.Agrees l :=
  ⟨rfl, rfl, rfl⟩

theorem trans {l'' : Ledger} (h : l.Agrees l') (h' : l'.Agrees l'') : l.Agrees l'' :=
  ⟨h.skipped.trans h'.skipped, h.truncated.trans h'.truncated, h.produced.trans h'.produced⟩

theorem note_left (h : l.Agrees l') (event : Event) : (l.note event).Agrees l' :=
  ⟨h.skipped, h.truncated, h.produced⟩

theorem note_right (h : l.Agrees l') (event : Event) : l.Agrees (l'.note event) :=
  ⟨h.skipped, h.truncated, h.produced⟩

theorem skip (h : l.Agrees l') (path : String) (reason : SkipReason) :
    (l.skip path reason).Agrees (l'.skip path reason) :=
  ⟨congrArg (· ++ _) h.skipped, h.truncated, h.produced⟩

theorem cut (h : l.Agrees l') : l.cut.Agrees l'.cut :=
  ⟨h.skipped, rfl, h.produced⟩

theorem meetLimit (h : l.Agrees l') : l.meetLimit.Agrees l'.meetLimit := by
  unfold Ledger.meetLimit
  rw [h.truncated]
  split
  · exact h
  · exact h.cut

theorem count (h : l.Agrees l') : l.count.Agrees l'.count :=
  ⟨h.skipped, h.truncated, congrArg (· + 1) h.produced⟩

theorem hasRoom (h : l.Agrees l') (options : Options) : l.hasRoom options = l'.hasRoom options := by
  rw [Ledger.hasRoom, Ledger.hasRoom, h.produced]

end Ledger.Agrees

/-- A candidate is judged alike with both accounts, and a record that is made of it is placed. -/
structure SameVerdict (x y : Verdict × Ledger) : Prop where
  verdict : x.1 = y.1
  ledger : x.2.Agrees y.2
  placed : ∀ r, x.1 = .record r → r.Placed

theorem Ledger.Agrees.sameVerdict {l l' : Ledger} (h : l.Agrees l') {verdict : Verdict}
    (hVerdict : ∀ r, verdict ≠ .record r) : SameVerdict (verdict, l) (verdict, l') :=
  ⟨rfl, h, fun r hr => absurd hr (hVerdict r)⟩

theorem Ledger.Agrees.collect {l l' : Ledger} (h : l.Agrees l') (path : String) (kind : ContentKind)
    (data : List UInt8) :
    SameVerdict (.ofOption (l.collect path kind data).1, (l.collect path kind data).2)
      (.ofOption (l'.collect path kind data).1, (l'.collect path kind data).2) := by
  unfold Ledger.collect
  split
  · exact (h.skip path _).sameVerdict (by simp [Verdict.ofOption])
  · refine ⟨rfl, (h.count.note_left _).note_right _, ?_⟩
    rintro r ⟨⟩
    exact Int.le_refl 0

structure SameRecord (x y : Option Record × Ledger) : Prop where
  record : x.1 = y.1
  ledger : x.2.Agrees y.2
  placed : ∀ r, x.1 = some r → r.Placed

theorem Ledger.Agrees.sameRecord {l l' : Ledger} (h : l.Agrees l') :
    SameRecord (none, l) (none, l') :=
  ⟨rfl, h, by simp⟩

theorem SameVerdict.sameRecord {l l' : Ledger} {r : Record}
    (h : SameVerdict (.record r, l) (.record r, l')) : SameRecord (some r, l) (some r, l') := by
  refine ⟨rfl, h.ledger, ?_⟩
  rintro _ ⟨⟩
  exact h.placed r rfl

structure SameNext {σ : Type} (x y : Option Record × σ × Ledger) : Prop where
  next : SameRecord (x.1, x.2.2) (y.1, y.2.2)
  rest : x.2.1 = y.2.1

/-! ## Folders -/

theorem judgeFile_agrees {l l' : Ledger} (h : l.Agrees l') (options : Options) (f : Disk.File) :
    SameVerdict (judgeFile options l f) (judgeFile options l' f) := by
  unfold judgeFile
  dsimp only
  rw [h.hasRoom]
  split
  · exact h.sameVerdict (by simp)
  · split
    · exact h.meetLimit.sameVerdict (by simp)
    · split
      · exact (h.skip _ _).sameVerdict (by simp)
      · exact (h.skip _ _).sameVerdict (by simp)
      · split
        · exact (h.skip _ _).sameVerdict (by simp)
        · exact h.collect _ _ _

theorem nextFile_agrees {l l' : Ledger} (h : l.Agrees l') (options : Options)
    (files : List Disk.File) :
    SameNext (nextFile options files l) (nextFile options files l') := by
  induction files generalizing l l' with
  | nil => exact ⟨h.sameRecord, rfl⟩
  | cons f fs ih =>
    have hJudge := judgeFile_agrees h options f
    rw [nextFile, nextFile]
    generalize judgeFile options l f = x at hJudge
    generalize judgeFile options l' f = y at hJudge
    obtain ⟨verdict, m⟩ := x
    obtain ⟨verdict', m'⟩ := y
    cases hJudge.verdict
    cases verdict with
    | record r => exact ⟨hJudge.sameRecord, rfl⟩
    | pass => exact ih hJudge.ledger
    | stop => exact ⟨hJudge.ledger.sameRecord, rfl⟩

/-! ## Archives -/

theorem judgeEntry_agrees {l l' : Ledger} (h : l.Agrees l') (options : Options)
    (s : Archive.Session) (e : Archive.Entry) :
    Related (fun x y => SameVerdict (x.1, x.2.2) (y.1, y.2.2) ∧ x.2.1 = y.2.1)
      (judgeEntry options s l e) (judgeEntry options s l' e) := by
  unfold judgeEntry
  refine Related.bind (Related.refl (R := Eq) fun _ _ => rfl) ?_
  rintro isFolder _ rfl
  dsimp only
  rw [h.hasRoom]
  split
  · exact .ok ⟨h.sameVerdict (by simp), rfl⟩
  · split
    · exact .ok ⟨h.sameVerdict (by simp), rfl⟩
    · split
      · exact .ok ⟨h.meetLimit.sameVerdict (by simp), rfl⟩
      · split
        · exact .error _
        · split
          · exact .ok ⟨(h.skip _ _).cut.sameVerdict (by simp), rfl⟩
          · exact .ok ⟨(h.skip _ _).sameVerdict (by simp), rfl⟩
        · exact .ok ⟨h.collect _ _ _, rfl⟩

theorem nextEntry_agrees {l l' : Ledger} (h : l.Agrees l') (options : Options)
    (entries : List Archive.Entry) (s : Archive.Session) :
    Related (fun x y => SameNext (x.1, (x.2.1, x.2.2.1), x.2.2.2) (y.1, (y.2.1, y.2.2.1), y.2.2.2))
      (nextEntry options entries s l) (nextEntry options entries s l') := by
  induction entries generalizing s l l' with
  | nil => exact .ok ⟨h.sameRecord, rfl⟩
  | cons e es ih =>
    have hJudge := judgeEntry_agrees h options s e
    rw [nextEntry, nextEntry]
    generalize judgeEntry options s l e = x at hJudge
    generalize judgeEntry options s l' e = y at hJudge
    cases hJudge with
    | error failure => exact .error failure
    | @ok a b hSame =>
      obtain ⟨verdict, t, m⟩ := a
      obtain ⟨verdict', t', m'⟩ := b
      obtain ⟨hVerdict, hSession⟩ := hSame
      cases hVerdict.verdict
      cases hSession
      cases verdict with
      | record r => exact .ok ⟨hVerdict.sameRecord, rfl⟩
      | pass => exact ih hVerdict.ledger t
      | stop => exact .ok ⟨hVerdict.ledger.sameRecord, rfl⟩

/-! ## All sources -/

def Supply.Placed : Supply → Prop
  | .page rest => ∀ r ∈ rest, r.Placed
  | _ => True

theorem Supply.next_agrees {l l' : Ledger} (h : l.Agrees l') (options : Options) {supply : Supply}
    (hPlaced : supply.Placed) :
    Related (fun x y => SameNext x y ∧ x.2.1.Placed) (supply.next options l)
      (supply.next options l') := by
  cases supply with
  | files rest =>
    have hNext := nextFile_agrees h options rest
    exact .ok ⟨⟨hNext.next, congrArg Supply.files hNext.rest⟩, trivial⟩
  | entries session rest =>
    have hNext := nextEntry_agrees h options rest session
    rw [Supply.next, Supply.next]
    generalize nextEntry options rest session l = x at hNext
    generalize nextEntry options rest session l' = y at hNext
    cases hNext with
    | error failure => exact .error failure
    | ok hSame =>
      obtain ⟨hRest, hSession⟩ := Prod.mk.inj hSame.rest
      refine .ok ⟨⟨hSame.next, ?_⟩, trivial⟩
      rw [hSession, hRest]
  | page rest =>
    cases rest with
    | nil => exact .ok ⟨⟨h.sameRecord, rfl⟩, hPlaced⟩
    | cons r rest =>
      obtain ⟨hHead, hTail⟩ := List.forall_mem_cons.mp hPlaced
      refine .ok ⟨⟨⟨rfl, h, ?_⟩, rfl⟩, hTail⟩
      rintro _ ⟨⟩
      exact hHead

theorem takeAsset_agrees {l l' : Ledger} (h : l.Agrees l') (options : Options) (url : String)
    (kind : ContentKind) (origin : String) (data : List UInt8) :
    SameRecord (takeAsset options url kind origin data l)
      (takeAsset options url kind origin data l') := by
  unfold takeAsset
  split
  · exact (h.skip _ _).sameRecord
  · split
    · exact (h.skip _ _).sameRecord
    · refine ⟨rfl, h.count, ?_⟩
      rintro _ ⟨⟩
      exact Int.le_refl 0

theorem fetchAsset_agrees {l l' : Ledger} (h : l.Agrees l') (web : Web) (options : Options)
    (url : String) (kind : ContentKind) (origin : String) :
    Related SameRecord (fetchAsset web options url kind origin l)
      (fetchAsset web options url kind origin l') := by
  unfold fetchAsset
  rw [h.hasRoom]
  split
  · exact .error _
  · exact .ok h.sameRecord
  · split
    · exact .ok h.meetLimit.sameRecord
    · split
      · exact .error _
      · exact .error _
      · exact .ok (h.skip _ _).sameRecord
      · exact .ok (takeAsset_agrees h options url kind origin _)

end Collect

end WebAudit
