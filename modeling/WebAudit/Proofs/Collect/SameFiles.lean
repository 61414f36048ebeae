import WebAudit.Proofs.Collect.Reasons
import WebAudit.Proofs.Collect.Whole
import WebAudit.Proofs.Disk.Walk

/-!
# Folders and archives of the same files

An archive that holds the files of a folder in the order of a walk is collected like the folder. Both
judge one file after the other, and judge it alike: folders are passed over by their name in a walk, and by
the components of a path in an archive; what is too large is seen on the disk by its size, and in an
archive by the size that is declared, with a message that gives the reason away.
-/

namespace WebAudit

namespace Archive

/-! ## Entries as they should be -/

structure Entry.Gives (e : Entry) (name : String) (data : List UInt8) : Prop where
  name : e.name = name
  declared : e.declared = data.length
  bytes : e.stream.bytes = data
  ending : e.stream.ending = .complete

namespace Session

variable {s : Session}

theorem takeChunks_complete {name : String} {size : Nat} {chunks : List (List UInt8)}
    (hEntry : ((size + chunks.flatten.length : Nat) : Int) ≤ s.limits.maxEntry)
    (hTotal : ((s.totalRead + chunks.flatten.length : Nat) : Int) ≤ s.limits.maxTotal) :
    s.takeChunks name .complete size chunks =
      (.ok (), { s with totalRead := s.totalRead + chunks.flatten.length }) := by
  induction chunks generalizing s size with
  | nil => rfl
  | cons chunk rest ih =>
    rw [List.flatten_cons, List.length_append] at hEntry hTotal ⊢
    rw [takeChunks]
    dsimp only
    rw [if_neg (by omega), if_neg (by omega), ih (by dsimp only; omega) (by dsimp only; omega)]
    simp [Nat.add_assoc]

variable {e : Entry} {name : String} {data : List UInt8}

theorem read_tooLarge (h : e.Gives name data) (hInside : Path.escapes name = false)
    (hName : name.length ≤ maxNameLength) (hLarge : s.limits.maxEntry < (data.length : Int)) :
    s.read e = (.error (.entry (.tooLarge data.length s.limits.maxEntry)), s) := by
  have hCheck : e.check s.limits = .error (.tooLarge data.length s.limits.maxEntry) := by
    unfold Entry.check
    rw [h.name, h.declared, hInside, if_neg Bool.false_ne_true, if_neg (by omega), if_pos hLarge]
  unfold read
  rw [hCheck]

theorem read_within (h : e.Gives name data) (hInside : Path.escapes name = false)
    (hName : name.length ≤ maxNameLength) (hSize : (data.length : Int) ≤ s.limits.maxEntry)
    (hTotal : ((s.totalRead + data.length : Nat) : Int) ≤ s.limits.maxTotal) :
    s.read e = (.ok data, { s with totalRead := s.totalRead + data.length }) := by
  have hCheck : e.check s.limits = .ok () := by
    unfold Entry.check
    rw [h.name, h.declared, hInside, if_neg Bool.false_ne_true, if_neg (by omega), if_neg (by omega)]
  have hBytes : e.stream.chunks.flatten = data := h.bytes
  have hChunks : s.takeChunks e.name .complete 0 e.stream.chunks = _ :=
    takeChunks_complete (by rw [hBytes]; omega) (by rw [hBytes]; omega)
  unfold read
  rw [hCheck, h.ending]
  dsimp only
  rw [hChunks, h.bytes, hBytes]
  rfl

end Session

variable {e : Entry} {name : String} {data : List UInt8}

theorem Entry.Gives.isDirectory {r : Path.Route} (h : e.Gives name data)
    (hRoute : name.toList = r.chars) : e.isDirectory = .ok false := by
  have hNe : e.name.isEmpty = false := by
    rw [h.name, Bool.eq_false_iff, ne_eq, String.isEmpty_iff]
    rintro rfl
    exact r.chars_ne_nil hRoute.symm
  have hEnd : Text.endsWith e.name "/" = false := by
    rw [h.name, Text.endsWith, hRoute, Bool.eq_false_iff]
    intro hSuffix
    exact r.not_suffix_slash (List.isSuffixOf_iff_suffix.mp hSuffix)
  unfold Entry.isDirectory
  rw [hNe, if_neg Bool.false_ne_true, hEnd]

end Archive

def Disk.Contents.data : Contents → List UInt8
  | bytes data => data
  | locked _ | lost => []

namespace Collect

open Archive (Entry Session)

/-! ## Files and entries side by side -/

def readSize (options : Options) (f : Disk.File) : Nat :=
  let size := f.contents.data.length
  if classify f.path options.kinds = .unsupported || options.maxFileSize < (size : Int) then 0 else size

structure Ready (options : Options) (bytes : Nat) (s : Session) : Prop where
  limits : s.limits = { maxEntry := options.maxFileSize }
  exhausted : s.exhausted = false
  room : ((s.totalRead + bytes : Nat) : Int) ≤ s.limits.maxTotal

theorem Ready.of_le {options : Options} {bytes bytes' : Nat} {s : Session} (h : Ready options bytes s)
    (hLe : bytes' ≤ bytes) : Ready options bytes' s :=
  ⟨h.limits, h.exhausted, by have := h.room; omega⟩

theorem ready_start (options : Options) {bytes : Nat}
    (h : (bytes : Int) ≤ ({} : Archive.Limits).maxTotal) :
    Ready options bytes { limits := { maxEntry := options.maxFileSize } } :=
  ⟨rfl, rfl, by rwa [Nat.zero_add]⟩

/-- An entry is judged like the file that it holds. -/
theorem judgeEntry_eq_judgeFile {options : Options} {s : Session} {l l' : Ledger} {e : Entry}
    {f : Disk.File} {data : List UInt8} {r : Path.Route} {bytes : Nat} (hData : f.contents = .bytes data)
    (hGives : e.Gives f.path data) (hRoute : f.path.toList = r.chars)
    (hLength : f.path.length ≤ Archive.maxNameLength)
    (hOutside : insideDenied options.denied f.path.toList = false) (hAgrees : l.Agrees l')
    (hReady : Ready options (readSize options f + bytes) s) :
    ∃ s' m, judgeEntry options s l' e = .ok ((judgeFile options l f).1, s', m) ∧
      (judgeFile options l f).2.Agrees m ∧ Ready options bytes s' := by
  have hPath : Path.normalName e.name = f.path.toList := by
    rw [hGives.name, Path.Route.normalName_eq hRoute, hRoute]
  have hInside := Path.Route.escapes_eq_false hRoute
  have hMaxEntry : s.limits.maxEntry = options.maxFileSize := by rw [hReady.limits]
  unfold judgeEntry
  rw [hGives.isDirectory hRoute]
  dsimp only [bind, Except.bind]
  rw [if_neg Bool.false_ne_true, hPath, String.ofList_toList, hOutside, Bool.false_or]
  unfold judgeFile
  dsimp only
  by_cases hKind : classify f.path options.kinds = .unsupported
  · rw [if_pos (decide_eq_true hKind), if_pos hKind]
    exact ⟨s, l', rfl, hAgrees, hReady.of_le (Nat.le_add_left ..)⟩
  rw [if_neg (by simpa using hKind), if_neg hKind, hAgrees.hasRoom options]
  cases l'.hasRoom options with
  | false => exact ⟨s, l'.meetLimit, rfl, hAgrees.meetLimit, hReady.of_le (Nat.le_add_left ..)⟩
  | true =>
    rw [Bool.not_true, if_neg Bool.false_ne_true, if_neg Bool.false_ne_true, hData]
    dsimp only
    by_cases hLarge : options.maxFileSize < (data.length : Int)
    · rw [if_pos hLarge, Session.read_tooLarge hGives hInside hLength (by rwa [hMaxEntry])]
      dsimp only
      rw [SkipReason.ofMessage_tooLarge, hReady.exhausted, if_neg Bool.false_ne_true]
      exact ⟨s, _, rfl, hAgrees.skip f.path .tooLarge, hReady.of_le (Nat.le_add_left ..)⟩
    · have hSize : readSize options f = data.length := by
        simp [readSize, hData, Disk.Contents.data, hKind, hLarge]
      have hRoom := hReady.room
      rw [hSize] at hRoom
      rw [if_neg hLarge, Session.read_within hGives hInside hLength (by omega) (by omega)]
      have hSame := hAgrees.collect f.path (classify f.path options.kinds) data
      refine ⟨_, _, congrArg (fun verdict => Except.ok (verdict, _, _)) hSame.verdict.symm, hSame.ledger,
        hReady.limits, hReady.exhausted, ?_⟩
      dsimp only
      omega

theorem judgeEntry_folder {e : Entry} (h : e.isDirectory = .ok true) (options : Options) (s : Session)
    (l : Ledger) : judgeEntry options s l e = .ok (.pass, s, l) := by
  unfold judgeEntry
  rw [h]
  rfl

theorem judgeEntry_inside {options : Options} {e : Entry} {name : String} {data : List UInt8}
    {r : Path.Route} (hGives : e.Gives name data) (hRoute : name.toList = r.chars)
    (hInside : insideDenied options.denied name.toList = true) (s : Session) (l : Ledger) :
    judgeEntry options s l e = .ok (.pass, s, l) := by
  unfold judgeEntry
  rw [hGives.isDirectory hRoute, hGives.name, Path.Route.normalName_eq hRoute, ← hRoute]
  dsimp only [bind, Except.bind]
  rw [hInside]
  rfl

/-- The entries hold the files in their order and no others. Entries that stand for folders may be
between them. -/
inductive Holds : List Entry → List Disk.File → Prop
  | nil : Holds [] []
  | folder {e : Entry} {es : List Entry} {fs : List Disk.File} (hFolder : e.isDirectory = .ok true)
    (hRest : Holds es fs) : Holds (e :: es) fs
  | file {e : Entry} {f : Disk.File} {es : List Entry} {fs : List Disk.File} {data : List UInt8}
    (hData : f.contents = .bytes data) (hGives : e.Gives f.path data) (hRest : Holds es fs) :
    Holds (e :: es) (f :: fs)

def outside (options : Options) (files : List Disk.File) : List Disk.File :=
  files.filter fun f => !insideDenied options.denied f.path.toList

/-- Entries are collected like the files that they hold. -/
theorem Holds.drain_agrees {options : Options} {entries : List Entry} {files : List Disk.File}
    (h : Holds entries files) (hRouted : ∀ f ∈ files, f.Routed [])
    (hLengths : ∀ f ∈ files, f.path.length ≤ Archive.maxNameLength) {s : Session} {l l' : Ledger}
    (hAgrees : l.Agrees l')
    (hReady : Ready options ((outside options files).map (readSize options)).sum s) :
    ∃ records m m', drain options (.files (outside options files)) l = .ok (records, m) ∧
      drain options (.entries s entries) l' = .ok (records, m') ∧ m.Agrees m' := by
  induction h generalizing s l l' with
  | nil =>
    exact ⟨[], l, l', drain_of_none rfl, drain_of_none rfl, hAgrees⟩
  | folder hFolder _ ih =>
    rw [drain_entries_pass _ (judgeEntry_folder hFolder options s l')]
    exact ih hRouted hLengths hAgrees hReady
  | @file e f es fs data hData hGives _ ih =>
    obtain ⟨⟨r, hRoute, -⟩, hRouted⟩ := List.forall_mem_cons.mp hRouted
    obtain ⟨hLength, hLengths⟩ := List.forall_mem_cons.mp hLengths
    cases hOutside : insideDenied options.denied f.path.toList with
    | true =>
      have hFiles : outside options (f :: fs) = outside options fs :=
        List.filter_cons_of_neg (by simp [hOutside])
      rw [hFiles] at hReady ⊢
      rw [drain_entries_pass _ (judgeEntry_inside hGives hRoute hOutside s l')]
      exact ih hRouted hLengths hAgrees hReady
    | false =>
      have hFiles : outside options (f :: fs) = f :: outside options fs :=
        List.filter_cons_of_pos (by simp [hOutside])
      rw [hFiles, List.map_cons, List.sum_cons] at hReady
      rw [hFiles]
      obtain ⟨s', m', hEntry, hLedger, hReady'⟩ :=
        judgeEntry_eq_judgeFile hData hGives hRoute hLength hOutside hAgrees hReady
      cases hFile : judgeFile options l f with
      | mk verdict m =>
        rw [hFile] at hEntry hLedger
        cases verdict with
        | record record =>
          obtain ⟨records, k, k', hRest, hRest', hAgrees'⟩ := ih hRouted hLengths hLedger hReady'
          refine ⟨record :: records, k, k', ?_, ?_, hAgrees'⟩
          · rw [drain_files_record _ hFile, hRest]
            rfl
          · rw [drain_entries_record _ hEntry, hRest']
            rfl
        | pass =>
          rw [drain_files_pass _ hFile, drain_entries_pass _ hEntry]
          exact ih hRouted hLengths hLedger hReady'
        | stop =>
          exact ⟨[], m, m', drain_files_stop _ hFile, drain_entries_stop _ hEntry, hLedger⟩

/-- A folder without links and an archive that holds its files in the order of a walk are collected to
the same records, and the same material is left out for the same reasons. -/
theorem collect_folder_eq_collect_archive (world world' : World) (options : Options)
    {folder archive : Source} {location : Disk.Location} {children : List (String × Disk.Tree)}
    {entries : List Entry} (hFolder : folder.kind = .directory) (hArchive : archive.kind = .archive)
    (hPlace : world.disk.place folder.locator = .ok location)
    (hTree : world.disk.tree.at? location = some (.folder children))
    (hPlain : Disk.PlainItems children)
    (hLengths : ∀ f ∈ Disk.filesBelow world.disk.tree [] location,
      f.path.length ≤ Archive.maxNameLength)
    (hOpen : openArchive world' archive = .ok entries)
    (hHolds : Holds entries (Disk.filesBelow world.disk.tree [] location))
    (hTotal : ((((Disk.filesBelow world.disk.tree options.denied location).map
      (readSize options)).sum : Nat) : Int) ≤ ({} : Archive.Limits).maxTotal) :
    ∃ records l l', collect world options folder = .ok (records, l) ∧
      collect world' options archive = .ok (records, l') ∧
      l.skipped = l'.skipped ∧ l.truncated = l'.truncated := by
  have hFiles : Disk.filesBelow world.disk.tree options.denied location =
      outside options (Disk.filesBelow world.disk.tree [] location) :=
    Disk.filesBelow_denied hTree hPlain options.denied
  rw [hFiles] at hTotal
  have hReady := ready_start options hTotal
  obtain ⟨records, l, l', hDrain, hDrain', hAgrees⟩ := hHolds.drain_agrees
    (Disk.routed_filesBelow hTree hPlain []) hLengths (Ledger.Agrees.refl {}) hReady
  refine ⟨records, l, l', ?_, ?_, hAgrees.skipped, hAgrees.truncated⟩
  · rw [collect_folder options hFolder hPlace hTree, hFiles, hDrain]
    rfl
  · unfold collect openSource
    rw [hArchive, hOpen]
    dsimp only [Except.map, bind, Except.bind]
    rw [hDrain']
    rfl

/-! A folder with a file that is too large and a folder that is passed over, and an archive of it. -/

def smallFolder : List (String × Disk.Tree) :=
  [("tmp", .folder [("c.js", .file [99])]), ("b.js", .file [98, 98]), ("a.js", .file [97])]

def smallWorld : World :=
  { disk := { name := "top", tree := .folder smallFolder } }

def smallFiles : List Disk.File :=
  [⟨"a.js", .bytes [97]⟩, ⟨"b.js", .bytes [98, 98]⟩, ⟨"tmp/c.js", .bytes [99]⟩]

def smallArchive : List UInt8 :=
  [80, 75, 3, 4, 20, 0, 0, 0, 0, 0, 0, 0, 33, 0, 67, 190, 183, 232, 1, 0, 0, 0, 1, 0, 0, 0, 4,
   0, 0, 0, 97, 46, 106, 115, 97, 80, 75, 3, 4, 20, 0, 0, 0, 0, 0, 0, 0, 33, 0, 174, 27, 174,
   181, 2, 0, 0, 0, 2, 0, 0, 0, 4, 0, 0, 0, 98, 46, 106, 115, 98, 98, 80, 75, 3, 4, 20, 0, 0,
   0, 0, 0, 0, 0, 33, 0, 111, 223, 185, 6, 1, 0, 0, 0, 1, 0, 0, 0, 8, 0, 0, 0, 116, 109, 112,
   47, 99, 46, 106, 115, 99, 80, 75, 1, 2, 20, 0, 20, 0, 0, 0, 0, 0, 0, 0, 33, 0, 67, 190,
   183, 232, 1, 0, 0, 0, 1, 0, 0, 0, 4, 0, 0, 0, 0, 0, 0, 0, 0, 0, 0, 0, 128, 1, 0, 0, 0, 0,
   97, 46, 106, 115, 80, 75, 1, 2, 20, 0, 20, 0, 0, 0, 0, 0, 0, 0, 33, 0, 174, 27, 174, 181,
   2, 0, 0, 0, 2, 0, 0, 0, 4, 0, 0, 0, 0, 0, 0, 0, 0, 0, 0, 0, 128, 1, 35, 0, 0, 0, 98, 46,
   106, 115, 80, 75, 1, 2, 20, 0, 20, 0, 0, 0, 0, 0, 0, 0, 33, 0, 111, 223, 185, 6, 1, 0, 0,
   0, 1, 0, 0, 0, 8, 0, 0, 0, 0, 0, 0, 0, 0, 0, 0, 0, 128, 1, 71, 0, 0, 0, 116, 109, 112, 47,
   99, 46, 106, 115, 80, 75, 5, 6, 0, 0, 0, 0, 3, 0, 3, 0, 154, 0, 0, 0, 110, 0, 0, 0, 0, 0]

def entryView (e : Entry) : String × Nat × Archive.Stream :=
  (e.name, e.declared, e.stream)

/-- What is to be known of an entry that holds the file and is read in one chunk. -/
def fileView (f : Disk.File) : String × Nat × Archive.Stream :=
  let data := f.contents.data
  (f.path, data.length, ⟨[data], .complete⟩)

theorem holds_of_views {entries : List Entry} {files : List Disk.File}
    (hData : ∀ f ∈ files, ∃ data, f.contents = .bytes data) (h : entries.map entryView = files.map fileView) :
    Holds entries files := by
  induction files generalizing entries with
  | nil =>
    rw [List.map_nil, List.map_eq_nil_iff] at h
    exact h ▸ .nil
  | cons f files ih =>
    obtain ⟨hHead, hTail⟩ := List.forall_mem_cons.mp hData
    obtain ⟨data, hSome⟩ := hHead
    obtain ⟨e, rest, rfl, hView, hRest⟩ := List.map_eq_cons_iff.mp h
    simp only [entryView, fileView, hSome, Disk.Contents.data, Prod.mk.injEq] at hView
    obtain ⟨hName, hDeclared, hStream⟩ := hView
    refine .file hSome ⟨hName, hDeclared, ?_, ?_⟩ (ih hTail hRest)
    · simp [hStream, Archive.Stream.bytes]
    · rw [hStream]

theorem smallArchive_holds : ∃ entries, Archive.entries {} smallArchive .memory = .ok entries ∧
    Holds entries smallFiles := by
  have hViews : (Archive.entries {} smallArchive .memory).toOption.map (List.map entryView) =
      some (smallFiles.map fileView) := by
    decide +kernel
  cases hEntries : Archive.entries {} smallArchive .memory with
  | error fault =>
    rw [hEntries] at hViews
    cases hViews
  | ok entries =>
    rw [hEntries] at hViews
    have hData : ∀ f ∈ smallFiles, ∃ data, f.contents = .bytes data := by simp [smallFiles]
    exact ⟨entries, rfl, holds_of_views hData (Option.some.inj hViews)⟩

theorem smallFolder_eq_smallArchive :
    let folder : Source := { kind := .directory, locator := "top" }
    let archive : Source := { kind := .archive, content := some (.bytes smallArchive) }
    let options : Options := { maxFileSize := 1 }
    Disk.PlainItems smallFolder ∧ Disk.filesBelow smallWorld.disk.tree [] [] = smallFiles ∧
    (∃ entries, openArchive smallWorld archive = .ok entries ∧ Holds entries smallFiles) ∧
    ∃ records l l', collect smallWorld options folder = .ok (records, l) ∧
      collect smallWorld options archive = .ok (records, l') ∧
      l.skipped = l'.skipped ∧ l.truncated = l'.truncated := by
  intro folder archive options
  have hPlace : smallWorld.disk.place folder.locator = .ok [] := Disk.place_top _
  have hTree : smallWorld.disk.tree.at? [] = some (.folder smallFolder) := rfl
  have hPlain : Disk.PlainItems smallFolder :=
    .folder (by decide) (.file (by decide) .nil) (.file (by decide) (.file (by decide) .nil))
  have hFiles : Disk.filesBelow smallWorld.disk.tree [] [] = smallFiles := by
    change Disk.inOrder (Disk.branches _ [] [] "" smallFolder) = smallFiles
    rw [smallFolder, Disk.branches_folder_nil, Disk.branches_file, Disk.branches_file, Disk.branches_file,
      Disk.branches_nil, Disk.branches_nil, Disk.inOrder_singleton]
    exact Disk.inOrder_eq_of_perm [⟨"a.js", false, [⟨"a.js", .bytes [97]⟩]⟩,
      ⟨"b.js", false, [⟨"b.js", .bytes [98, 98]⟩]⟩, ⟨"tmp", true, [⟨"tmp/c.js", .bytes [99]⟩]⟩]
      (by decide) (by decide) (by decide)
  have hLengths : ∀ f ∈ smallFiles, f.path.length ≤ Archive.maxNameLength := by decide
  have hTotal : ((((Disk.filesBelow smallWorld.disk.tree options.denied []).map
      (readSize options)).sum : Nat) : Int) ≤ ({} : Archive.Limits).maxTotal := by
    rw [Disk.filesBelow_denied hTree hPlain, hFiles]
    decide +kernel
  obtain ⟨entries, hEntries, hHolds⟩ := smallArchive_holds
  have hOpen : openArchive smallWorld archive = .ok entries := by
    change openEntries {} smallArchive .memory uploadLabel = .ok entries
    unfold openEntries
    rw [hEntries]
  refine ⟨hPlain, hFiles, ⟨entries, hOpen, hHolds⟩, ?_⟩
  rw [← hFiles] at hLengths hHolds
  exact collect_folder_eq_collect_archive smallWorld smallWorld options rfl rfl hPlace hTree hPlain
    hLengths hOpen hHolds hTotal

end Collect

end WebAudit
