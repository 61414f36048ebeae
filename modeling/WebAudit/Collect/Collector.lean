import WebAudit.Collect.Entries
import WebAudit.Collect.Folder
import WebAudit.Collect.Page

/-!
# Collectors

A collector is opened for a source and then gives one record after the other. Whether the source can
be read at all shows when it is opened.
-/

namespace WebAudit.Collect

/-- Why a source cannot be collected. -/
inductive SourceFault where
  | folderMissing (locator : String)
  | notAFolder (locator : String)
  | folderUnreadable (locator : String)
  /-- The system refuses to look for the folder. -/
  | lookup (locator : String) (fault : Disk.LookupFault)
  | archiveMissing (locator : String)
  /-- The system refuses to look for the archive, or to read it. -/
  | archiveUnreadable (locator : String) (fault : Disk.LookupFault)
  | badArchive (label : String)
  /-- An archive was handed over as text. -/
  | archiveText
  /-- Neither a place nor material is given. -/
  | archiveUnnamed
  | archive (failure : Archive.Failure)
  | page (locator : String) (fault : PageFault)
deriving DecidableEq, Repr, Inhabited

namespace SourceFault

def message : SourceFault → String
  | folderMissing locator => "Directory not found: " ++ locator
  | notAFolder locator => "Not a directory: " ++ locator
  | folderUnreadable locator =>
    "Cannot read directory " ++ locator ++ ": " ++ Disk.LookupFault.forbidden.message (tidyText locator)
  | lookup locator fault => fault.message (tidyText locator)
  | archiveMissing locator => "Archive not found: " ++ tidyText locator
  | archiveUnreadable locator fault =>
    "Cannot read archive " ++ locator ++ ": " ++ fault.message (tidyText locator)
  | badArchive label => "Invalid or corrupted zip file: " ++ label
  | archiveText => "Archive content must be bytes"
  | archiveUnnamed => "Archive source needs a locator or content"
  | archive failure => failure.message
  | page locator fault => fault.message locator

end SourceFault

inductive Supply where
  | files (rest : List Disk.File)
  | entries (session : Archive.Session) (rest : List Archive.Entry)
  | page (rest : List Record)

namespace Supply

def size : Supply → Nat
  | files rest => rest.length
  | entries _ rest => rest.length
  | page rest => rest.length

def next (options : Options) (supply : Supply) (l : Ledger) :
    Except Archive.Failure (Option Record × Supply × Ledger) :=
  match supply with
  | files rest =>
    let (record, rest, l) := nextFile options rest l
    .ok (record, files rest, l)
  | entries session rest =>
    match nextEntry options rest session l with
    | .error failure => .error failure
    | .ok (record, rest, session, l) => .ok (record, entries session rest, l)
  | page [] => .ok (none, page [], l)
  | page (r :: rest) => .ok (some r, page rest, l)

/-- A record is only given when less is left behind it. -/
theorem next_size {options : Options} {supply supply' : Supply} {l l' : Ledger} {r : Option Record}
    (h : supply.next options l = .ok (r, supply', l')) :
    supply'.size ≤ supply.size ∧ (r.isSome → supply'.size < supply.size) := by
  unfold next at h
  split at h
  · simp only [Except.ok.injEq, Prod.mk.injEq] at h
    obtain ⟨rfl, rfl, rfl⟩ := h
    exact nextFile_length options _ l
  · split at h
    · contradiction
    · rename_i hEntry
      simp only [Except.ok.injEq, Prod.mk.injEq] at h
      obtain ⟨rfl, rfl, rfl⟩ := h
      exact nextEntry_length hEntry
  · simp only [Except.ok.injEq, Prod.mk.injEq] at h
    obtain ⟨rfl, rfl, rfl⟩ := h
    simp
  · simp only [Except.ok.injEq, Prod.mk.injEq] at h
    obtain ⟨rfl, rfl, rfl⟩ := h
    simp [size]

end Supply

/-! ## Opening -/

def openFolder (world : World) (options : Options) (locator : String) :
    Except SourceFault (List Disk.File) :=
  match world.disk.place locator with
  | .error .absent => .error (.folderMissing locator)
  | .error fault => .error (.lookup locator fault)
  | .ok location =>
    match world.disk.tree.at? location with
    | some (.folder _) => .ok (Disk.filesBelow world.disk.tree options.denied location)
    | some .closed => .error (.folderUnreadable locator)
    | _ => .error (.notAFolder locator)

def uploadLabel : String := "<upload>"

def openEntries (codecs : Archive.Codecs) (data : List UInt8) (carrier : Archive.Carrier) (label : String) :
    Except SourceFault (List Archive.Entry) :=
  match Archive.entries codecs data carrier with
  | .ok entries => .ok entries
  | .error .malformed => .error (.badArchive label)
  | .error (.failed failure) => .error (.archive failure)

def openArchiveFile (world : World) (locator : String) :
    Except SourceFault (List Archive.Entry) :=
  match world.disk.find locator with
  | .ok (.file data) => openEntries world.codecs data .file locator
  | .ok (.locked _) => .error (.archiveUnreadable locator .forbidden)
  | .ok _ | .error .absent => .error (.archiveMissing locator)
  | .error fault => .error (.archiveUnreadable locator fault)

def openUpload (codecs : Archive.Codecs) (data : List UInt8) : Except SourceFault (List Archive.Entry) :=
  openEntries codecs data .memory uploadLabel

def openArchive (world : World) (source : Source) : Except SourceFault (List Archive.Entry) :=
  match source.content with
  | some (.text _) => .error .archiveText
  | some (.bytes data) => openUpload world.codecs data
  | none =>
    if source.locator.isEmpty then .error .archiveUnnamed
    else openArchiveFile world source.locator

/-- Opens a source; the account of a page counts it already. -/
def openSource (world : World) (options : Options) (source : Source) :
    Except SourceFault (Supply × Ledger) :=
  match source.kind with
  | .directory => (openFolder world options source.locator).map fun files => (.files files, {})
  | .archive =>
    (openArchive world source).map fun entries =>
      (.entries { limits := { maxEntry := options.maxFileSize } } entries, {})
  | .page =>
    match page world options source with
    | .ok record => .ok (.page [record], ({} : Ledger).count)
    | .error fault => .error (.page source.locator fault)

/-! ## Whole collections -/

def drain (options : Options) (supply : Supply) (l : Ledger) :
    Except Archive.Failure (List Record × Ledger) :=
  match h : supply.next options l with
  | .error failure => .error failure
  | .ok (none, _, l) => .ok ([], l)
  | .ok (some r, supply', l) =>
    have : supply'.size < supply.size := (Supply.next_size h).2 rfl
    match drain options supply' l with
    | .error failure => .error failure
    | .ok (records, l) => .ok (r :: records, l)
termination_by supply.size

def collect (world : World) (options : Options) (source : Source) :
    Except SourceFault (List Record × Ledger) := do
  let (supply, l) ← openSource world options source
  (drain options supply l).mapError .archive

end WebAudit.Collect
