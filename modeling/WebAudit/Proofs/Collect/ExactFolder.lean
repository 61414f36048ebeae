import WebAudit.Proofs.Collect.Whole
import WebAudit.Proofs.Disk.WalkOrder

/-!
# What a folder is collected to

The files of supported kinds are looked at in the order of the walk, up to the one with which the allowed
number of records is reached. Of those each becomes a record or is left out for a reason of its own.
-/

namespace WebAudit.Collect

open Disk (File Located)

variable {options : Options}

/-! ## One file -/

/-- What a file of a supported kind becomes: a record, or nothing for a reason. -/
def fate (options : Options) (f : File) : Except SkipReason Record :=
  match f.contents with
  | .lost => .error .unreadable
  | .locked size => .error (if options.maxFileSize < (size : Int) then .tooLarge else .unreadable)
  | .bytes data =>
    if options.maxFileSize < (data.length : Int) then .error .tooLarge
    else
      match Text.Utf8.decode data with
      | .error _ => .error .undecodable
      | .ok content =>
        .ok { path := f.path, content, kind := classify f.path options.kinds, sizeBytes := data.length }

def record? (options : Options) (f : File) : Option Record :=
  (fate options f).toOption

def isSupported (options : Options) (f : File) : Bool :=
  classify f.path options.kinds ≠ .unsupported

inductive FileJudgement (options : Options) (l : Ledger) (f : File) : Verdict × Ledger → Prop
  | ignored (hKind : isSupported options f = false) : FileJudgement options l f (.pass, l)
  | full (hKind : isSupported options f = true) (hRoom : l.hasRoom options = false) :
    FileJudgement options l f (.stop, l.meetLimit)
  | skipped {reason : SkipReason} (hKind : isSupported options f = true) (hRoom : l.hasRoom options = true)
    (hFate : fate options f = .error reason) : FileJudgement options l f (.pass, l.skip f.path reason)
  | record {r : Record} {event : Event} (hKind : isSupported options f = true)
    (hRoom : l.hasRoom options = true) (hFate : fate options f = .ok r) :
    FileJudgement options l f (.record r, l.count.note event)

theorem fileJudgement (options : Options) (l : Ledger) (f : File) :
    FileJudgement options l f (judgeFile options l f) := by
  unfold judgeFile
  dsimp only
  split
  · rename_i hKind
    exact .ignored (by simpa [isSupported] using hKind)
  · rename_i hKind
    have hKind : isSupported options f = true := by simpa [isSupported] using hKind
    split
    · rename_i hRoom
      exact .full hKind (by simpa using hRoom)
    · rename_i hRoom
      have hRoom : l.hasRoom options = true := by simpa using hRoom
      split
      · rename_i hData
        exact .skipped hKind hRoom (by rw [fate, hData])
      · rename_i hData
        exact .skipped hKind hRoom (by rw [fate, hData])
      · rename_i data hData
        split
        · rename_i hLarge
          exact .skipped hKind hRoom (by rw [fate, hData]; exact if_pos hLarge)
        · rename_i hLarge
          unfold Ledger.collect
          cases hText : Text.Utf8.decode data with
          | error fault =>
            refine .skipped hKind hRoom ?_
            unfold fate
            rw [hData]
            dsimp only
            rw [if_neg hLarge, hText]
          | ok content =>
            refine .record hKind hRoom ?_
            unfold fate
            rw [hData]
            dsimp only
            rw [if_neg hLarge, hText]

/-! ## Many files -/

/-- The files up to the `k`-th are looked at, if so many records were made already: before each of them there
was room for a record, and behind them there is none, or no file. -/
structure StopsAt (options : Options) (made : Nat) (files : List File) (k : Nat) : Prop where
  le : k ≤ files.length
  before : ∀ j < k, ((made + ((files.take j).filterMap (record? options)).length : Nat) : Int) < options.maxFiles
  reached : k < files.length →
    ((made + ((files.take k).filterMap (record? options)).length : Nat) : Int) = options.maxFiles

namespace StopsAt

variable {made k : Nat} {f : File} {files : List File}

theorem nil : StopsAt options made [] 0 :=
  ⟨Nat.le_refl 0, by simp, by simp⟩

theorem full (h : (made : Int) = options.maxFiles) : StopsAt options made files 0 :=
  ⟨Nat.zero_le _, by simp, fun _ => by simpa using h⟩

theorem cons (hRoom : (made : Int) < options.maxFiles)
    (h : StopsAt options (made + (record? options f).toList.length) files k) :
    StopsAt options made (f :: files) (k + 1) := by
  have hCount : ∀ j, made + (((f :: files).take (j + 1)).filterMap (record? options)).length =
      made + (record? options f).toList.length + ((files.take j).filterMap (record? options)).length := by
    intro j
    rw [List.take_succ_cons, List.filterMap_cons]
    cases record? options f with
    | none => rfl
    | some r =>
      simp only [List.length_cons, Option.toList_some, List.length_nil]
      omega
  refine ⟨Nat.succ_le_succ h.le, ?_, ?_⟩
  · intro j hj
    cases j with
    | zero => simpa using hRoom
    | succ j =>
      rw [hCount]
      exact h.before j (Nat.lt_of_succ_lt_succ hj)
  · intro hk
    rw [hCount]
    exact h.reached (Nat.lt_of_succ_lt_succ hk)

end StopsAt

end WebAudit.Collect
