import WebAudit.Collect.Ledger
import WebAudit.Disk.Walk

/-!
# Collecting the files of a folder
-/

namespace WebAudit.Collect

open Disk (File)

/-- Judges a file. Files of no supported kind are ignored before the limit is looked at. -/
@[irreducible] def judgeFile (options : Options) (l : Ledger) (f : File) : Verdict × Ledger :=
  let kind := classify f.path options.kinds
  if kind = .unsupported then (.pass, l)
  else if !l.hasRoom options then (.stop, l.meetLimit)
  else
    match f.contents with
    | .lost => (.pass, l.skip f.path .unreadable)
    | .locked size =>
      (.pass, l.skip f.path (if options.maxFileSize < (size : Int) then .tooLarge else .unreadable))
    | .bytes data =>
      if options.maxFileSize < (data.length : Int) then (.pass, l.skip f.path .tooLarge)
      else
        let (record, l) := l.collect f.path kind data
        (.ofOption record, l)

def nextFile (options : Options) : List File → Ledger → Option Record × List File × Ledger
  | [], l => (none, [], l)
  | f :: fs, l =>
    match judgeFile options l f with
    | (.record r, l) => (some r, fs, l)
    | (.pass, l) => nextFile options fs l
    | (.stop, l) => (none, [], l)

/-- Fewer files are left behind a record. -/
theorem nextFile_length (options : Options) (fs : List File) (l : Ledger) :
    (nextFile options fs l).2.1.length ≤ fs.length ∧
    ((nextFile options fs l).1.isSome → (nextFile options fs l).2.1.length < fs.length) := by
  induction fs generalizing l with
  | nil => simp [nextFile]
  | cons f fs ih =>
    rw [nextFile]
    split
    · simp
    · rename_i l' _
      have := ih l'
      simp only [List.length_cons]
      omega
    · simp

end WebAudit.Collect
