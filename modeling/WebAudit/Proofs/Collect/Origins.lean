import Mathlib.Data.List.TakeWhile
import WebAudit.Proofs.Collect.Contained
import WebAudit.Proofs.Collect.ExactFolder
import WebAudit.Proofs.Text.Utf8

/-!
# What collected records are made of

A record holds the text of some bytes and counts all of them, so it counts three more than its text has if
there was a byte order mark in front. In a folder or an archive its path decides on its kind. There the folders
on the way to a file do not matter, unless the name of one has a character at which an address is cut off:
then that folder alone decides, and the file below it is forgotten.
-/

namespace WebAudit

/-! ## Extensions -/

namespace Text

theorem afterLast_append (sep : Char) (front back : List Char) :
    afterLast sep (front ++ sep :: back) = afterLast sep back := by
  unfold afterLast
  rw [List.reverse_append, List.reverse_cons, List.append_assoc, List.takeWhile_append]
  split
  · rename_i hWhole
    have hSelf := (List.takeWhile_sublist (l := back.reverse) (· != sep)).eq_of_length hWhole
    simp [hSelf]
  · rfl

/-- Neither the query nor the fragment of an address starts in the text. -/
def Uncut (s : String) : Prop :=
  '?' ∉ s.toList ∧ '#' ∉ s.toList

instance (s : String) : Decidable (Uncut s) :=
  inferInstanceAs (Decidable ('?' ∉ s.toList ∧ '#' ∉ s.toList))

def isPathChar (c : Char) : Bool :=
  c != '?' && c != '#'

theorem uncut_iff {s : String} : Uncut s ↔ ∀ c ∈ s.toList, isPathChar c = true := by
  simp only [isPathChar, Bool.and_eq_true, bne_iff_ne]
  constructor
  · rintro ⟨hQuery, hFragment⟩ c hc
    exact ⟨fun h => hQuery (h ▸ hc), fun h => hFragment (h ▸ hc)⟩
  · intro h
    exact ⟨fun hc => (h _ hc).1 rfl, fun hc => (h _ hc).2 rfl⟩

theorem plainPath_eq (path : List Char) :
    plainPath path = (path.takeWhile isPathChar).map fun c => if c == '\\' then '/' else c := by
  unfold plainPath
  rw [List.takeWhile_takeWhile]
  congr 2
  funext c
  simp [isPathChar, Bool.and_comm, bne, beq_eq_decide]

variable {dir : String}

theorem toList_below (dir name : String) : (dir ++ "/" ++ name).toList = dir.toList ++ '/' :: name.toList := by
  simp

theorem extension_below (h : Uncut dir) (name : String) : extension (dir ++ "/" ++ name) = extension name := by
  have hPath : plainPath (dir ++ "/" ++ name).toList = plainPath dir.toList ++ '/' :: plainPath name.toList := by
    rw [toList_below, plainPath_eq, List.takeWhile_append_of_pos (uncut_iff.mp h), plainPath_eq, plainPath_eq,
      List.takeWhile_eq_self_iff.mpr (uncut_iff.mp h)]
    simp [isPathChar]
  rw [extension, extension, hPath, baseNameChars, baseNameChars, afterLast_append]

theorem extension_of_cut (h : ¬ Uncut dir) (name : String) : extension (dir ++ "/" ++ name) = extension dir := by
  have hPath : plainPath (dir ++ "/" ++ name).toList = plainPath dir.toList := by
    rw [toList_below, plainPath_eq, plainPath_eq, List.takeWhile_append, if_neg]
    intro hLength
    apply h
    rw [uncut_iff, ← List.takeWhile_eq_self_iff]
    exact (List.takeWhile_sublist _).eq_of_length hLength
  rw [extension, extension, hPath]

end Text

theorem classify_congr {path path' : String} (h : Text.extension path = Text.extension path')
    (kinds : KindTable) : classify path kinds = classify path' kinds := by
  unfold classify
  rw [h]

theorem classify_below_iff (dir : String) :
    (∀ name kinds, classify (dir ++ "/" ++ name) kinds = classify name kinds) ↔ Text.Uncut dir := by
  constructor
  · intro hSame
    by_contra hCut
    -- all files below would have one kind
    have hOne : ∀ name kinds, classify name kinds = classify dir kinds := by
      intro name kinds
      rw [← hSame name kinds]
      exact classify_congr (Text.extension_of_cut hCut name) kinds
    have hScript := (hOne "a.js" defaultKinds).trans (hOne "a.css" defaultKinds).symm
    revert hScript
    decide
  · intro hUncut name kinds
    exact classify_congr (Text.extension_below hUncut name) kinds

/-- The record holds the text of some bytes, and counts all of them. -/
def Record.Decoded (r : Record) : Prop :=
  ∃ data, Text.Utf8.decode data = .ok r.content ∧ r.sizeBytes = data.length

theorem Record.Decoded.sizeBytes {r : Record} (h : r.Decoded) :
    r.sizeBytes = (Text.Utf8.encode r.content).length ∨
      r.sizeBytes = (Text.Utf8.encode r.content).length + 3 := by
  obtain ⟨data, hText, hSize⟩ := h
  rw [hSize]
  rcases Text.Utf8.encode_of_decode hText with rfl | rfl
  · exact .inl rfl
  · rw [List.length_append]
    exact .inr (Nat.add_comm _ _)

namespace Collect

open Archive (Entry Session)

/-! ## Records of files -/

/-- The record is made of the bytes of a file, and has the kind that its path calls for. -/
structure FromFile (options : Options) (r : Record) : Prop where
  decoded : r.Decoded
  kind : r.kind = classify r.path options.kinds

section Files

variable {options : Options} {l l' : Ledger} {r : Record}

theorem fromFile_of_fate {f : Disk.File} (h : fate options f = .ok r) : FromFile options r := by
  unfold fate at h
  split at h
  · cases h
  · cases h
  · rename_i data _
    split at h
    · cases h
    · split at h
      · cases h
      · rename_i hText
        cases h
        exact ⟨⟨data, hText, rfl⟩, by dsimp only⟩

theorem fromFile_of_collect {path : String} {data : List UInt8}
    (h : Verdict.ofOption (l.collect path (classify path options.kinds) data).1 = .record r) :
    FromFile options r := by
  unfold Ledger.collect at h
  split at h
  · cases h
  · rename_i hText
    cases h
    exact ⟨⟨data, hText, rfl⟩, by dsimp only⟩

theorem fromFile_nextFile {files : List Disk.File} (h : (nextFile options files l).1 = some r) :
    FromFile options r := by
  induction files generalizing l with
  | nil => cases h
  | cons f files ih =>
    rw [nextFile] at h
    have hJudged := fileJudgement options l f
    split at h
    · rename_i hVerdict
      cases h
      rw [hVerdict] at hJudged
      cases hJudged with
      | record _ _ hFate => exact fromFile_of_fate hFate
    · exact ih h
    · cases h

theorem fromFile_nextEntry {entries rest : List Entry} {s s' : Session}
    (h : nextEntry options entries s l = .ok (some r, rest, s', l')) : FromFile options r := by
  induction entries generalizing s l with
  | nil => cases h
  | cons e entries ih =>
    rw [nextEntry] at h
    have hJudged := judgement options s l e
    split at h
    · cases h
    · rename_i hVerdict
      cases h
      rw [hVerdict] at hJudged
      generalize hRecord : Verdict.record r = verdict at hJudged
      cases hJudged with
      | ignored => cases hRecord
      | full => cases hRecord
      | spent => cases hRecord
      | skipped => cases hRecord
      | read => exact fromFile_of_collect hRecord.symm
    · exact ih h
    · cases h

end Files

namespace Supply

variable {options : Options} {supply supply' : Supply} {l l' : Ledger} {r : Record}

theorem fromFile_next (hFiles : ¬ supply.IsPage)
    (h : supply.next options l = .ok (some r, supply', l')) : FromFile options r ∧ ¬ supply'.IsPage := by
  cases supply with
  | files rest =>
    simp only [next, Except.ok.injEq, Prod.mk.injEq] at h
    obtain ⟨hRecord, rfl, -⟩ := h
    exact ⟨fromFile_nextFile hRecord, not_false⟩
  | entries s rest =>
    obtain ⟨s', rest', rfl, hNext⟩ := next_entries h
    exact ⟨fromFile_nextEntry hNext, not_false⟩
  | page rest => exact absurd trivial hFiles

theorem Gives.fromFile (h : supply.Gives options l r) (hFiles : ¬ supply.IsPage) : FromFile options r := by
  induction h with
  | next hNext => exact (fromFile_next hFiles hNext).1
  | later hNext _ ih => exact ih (fromFile_next hFiles hNext).2

theorem Gives.mem_page (h : supply.Gives options l r) {rest : List Record} (hPage : supply = .page rest) :
    r ∈ rest := by
  induction h generalizing rest with
  | next hNext =>
    subst hPage
    cases rest with
    | nil => cases hNext
    | cons first rest =>
      cases hNext
      exact List.mem_cons_self
  | later hNext _ ih =>
    subst hPage
    cases rest with
    | nil => cases hNext
    | cons first rest =>
      cases hNext
      exact List.mem_cons_of_mem _ (ih rfl)

end Supply

/-! ## Sources and assets -/

section Sources

variable {world : World} {options : Options} {source : Source} {supply : Supply} {l : Ledger} {r : Record}

theorem decoded_page (h : page world options source = .ok r) : r.Decoded := by
  unfold page at h
  obtain ⟨raw, -, h⟩ := bind_eq_ok.mp h
  dsimp only at h
  split at h
  · cases h
  · cases hText : Text.Utf8.decode raw.data with
    | error fault =>
      rw [hText] at h
      cases h
    | ok content =>
      rw [hText] at h
      cases h
      exact ⟨raw.data, hText, rfl⟩

theorem openSource_cases (h : openSource world options source = .ok (supply, l)) :
    (source.kind ≠ .page ∧ ¬ supply.IsPage) ∨
      (source.kind = .page ∧ ∃ r, page world options source = .ok r ∧ supply = .page [r]) := by
  unfold openSource at h
  split at h
  · rename_i hKind
    cases hOpen : openFolder world options source.locator with
    | error fault =>
      rw [hOpen] at h
      cases h
    | ok files =>
      rw [hOpen] at h
      cases h
      exact .inl ⟨by simp [hKind], not_false⟩
  · rename_i hKind
    cases hOpen : openArchive world source with
    | error fault =>
      rw [hOpen] at h
      cases h
    | ok entries =>
      rw [hOpen] at h
      cases h
      exact .inl ⟨by simp [hKind], not_false⟩
  · rename_i hKind
    split at h
    · rename_i r hPage
      cases h
      exact .inr ⟨hKind, r, hPage, rfl⟩
    · cases h

theorem decoded_of_gives (hOpen : openSource world options source = .ok (supply, l))
    (hGives : supply.Gives options l r) : r.Decoded := by
  rcases openSource_cases hOpen with ⟨-, hFiles⟩ | ⟨-, record, hPage, hSupply⟩
  · exact (hGives.fromFile hFiles).decoded
  · rw [List.mem_singleton.mp (hGives.mem_page hSupply)]
    exact decoded_page hPage

theorem decoded_fetchAsset {web : Web} {url origin : String} {kind : ContentKind} {l l' : Ledger}
    (h : fetchAsset web options url kind origin l = .ok (some r, l')) : r.Decoded := by
  unfold fetchAsset at h
  split at h
  · cases h
  · cases h
  · split at h
    · cases h
    · split at h
      · cases h
      · cases h
      · cases h
      · rename_i response _
        unfold takeAsset at h
        split at h
        · cases h
        · split at h
          · cases h
          · rename_i hText
            cases h
            exact ⟨response.body, hText, rfl⟩

end Sources

/-! A script with a byte order mark, in a folder that is called like a stylesheet. -/

def markedScript : List UInt8 := [0xEF, 0xBB, 0xBF, 97]

def styledWorld : World where
  disk := { name := "top", tree := .folder [("v1.css", .folder [("a.js", .file markedScript)])] }
  web := { replies := [("http://a/a.js", .response { body := markedScript })] }

def styledSource : Source := { kind := .directory, locator := "top" }

def styledRecord : Record where
  path := "v1.css/a.js"
  content := "a"
  kind := .script
  sizeBytes := 4

theorem openSource_styledWorld :
    openSource styledWorld {} styledSource = .ok (.files [⟨"v1.css/a.js", .bytes markedScript⟩], {}) := by
  have hPlace : styledWorld.disk.place styledSource.locator = .ok [] := Disk.place_top _
  have hFiles : Disk.filesBelow styledWorld.disk.tree defaultDenied [] =
      [⟨"v1.css/a.js", .bytes markedScript⟩] :=
    Disk.filesBelow_single (by decide) "a.js" markedScript
  unfold openSource openFolder
  rw [show styledSource.kind = .directory from rfl, hPlace]
  exact congrArg (fun files => Except.ok (Supply.files files, ({} : Ledger))) hFiles

theorem gives_styledRecord :
    Supply.Gives {} (.files [⟨"v1.css/a.js", .bytes markedScript⟩]) {} styledRecord := by
  have hFirst : (nextFile {} [⟨"v1.css/a.js", .bytes markedScript⟩] {}).1 = some styledRecord := by
    decide +kernel
  have hNext : (Supply.files [⟨"v1.css/a.js", .bytes markedScript⟩]).next {} {} =
      .ok ((nextFile {} [⟨"v1.css/a.js", .bytes markedScript⟩] {}).1,
        .files (nextFile {} [⟨"v1.css/a.js", .bytes markedScript⟩] {}).2.1,
        (nextFile {} [⟨"v1.css/a.js", .bytes markedScript⟩] {}).2.2) := rfl
  rw [hFirst] at hNext
  exact .next hNext

/-- Whatever is written is read back, less a mark in front; whatever is read was written in that way, but for a
mark in front; and nothing else can be read. So a record counts the bytes of its text, or three more. -/
theorem decoding_inverts_encoding :
    (∀ s, Text.Utf8.decode (Text.Utf8.encode s) = .ok (Text.Utf8.unmarked s)) ∧
    (∀ bs s, Text.Utf8.decode bs = .ok s →
      bs = Text.Utf8.encode s ∨ bs = Text.Utf8.byteOrderMark ++ Text.Utf8.encode s) ∧
    (∀ bs, (∃ s, Text.Utf8.decode bs = .ok s) ↔ ∃ s, bs = Text.Utf8.encode s) ∧
    (∀ world options source supply l r, openSource world options source = .ok (supply, l) →
      supply.Gives options l r → r.sizeBytes = (Text.Utf8.encode r.content).length ∨
        r.sizeBytes = (Text.Utf8.encode r.content).length + 3) ∧
    ∀ web options url kind origin l l' r, fetchAsset web options url kind origin l = .ok (some r, l') →
      r.sizeBytes = (Text.Utf8.encode r.content).length ∨
        r.sizeBytes = (Text.Utf8.encode r.content).length + 3 := by
  refine ⟨Text.Utf8.decode_encode, fun _ _ => Text.Utf8.encode_of_decode, fun _ => Text.Utf8.decodes_iff, ?_, ?_⟩
  · intro world options source supply l r hOpen hGives
    exact (decoded_of_gives hOpen hGives).sizeBytes
  · intro web options url kind origin l l' r hFetch
    exact (decoded_fetchAsset hFetch).sizeBytes

def markedAsset : Record where
  path := "http://a/a.js"
  content := "a"
  kind := .script
  sizeBytes := 4
  synthetic := true
  origin := some "p.html"
  metadata := [externalMark]

theorem markedScript_decoding_inverts :
    Text.Utf8.decode markedScript = .ok "a" ∧
    (markedScript = Text.Utf8.encode "a" ∨ markedScript = Text.Utf8.byteOrderMark ++ Text.Utf8.encode "a") ∧
    (∃ supply l, openSource styledWorld {} styledSource = .ok (supply, l) ∧ supply.Gives {} l styledRecord) ∧
    (styledRecord.sizeBytes = (Text.Utf8.encode "a").length ∨
      styledRecord.sizeBytes = (Text.Utf8.encode "a").length + 3) ∧
    (∃ l, fetchAsset styledWorld.web {} "http://a/a.js" .script "p.html" {} = .ok (some markedAsset, l)) ∧
    (markedAsset.sizeBytes = (Text.Utf8.encode "a").length ∨
      markedAsset.sizeBytes = (Text.Utf8.encode "a").length + 3) := by
  obtain ⟨-, hBack, -, hRecords, hAssets⟩ := decoding_inverts_encoding
  have hDecode : Text.Utf8.decode markedScript = .ok "a" := by decide +kernel
  have hView : ((fetchAsset styledWorld.web {} "http://a/a.js" .script "p.html" {}).toOption.map (·.1)) =
      some (some markedAsset) := by
    decide +kernel
  cases hFetch : fetchAsset styledWorld.web {} "http://a/a.js" .script "p.html" {} with
  | error fault =>
    rw [hFetch] at hView
    cases hView
  | ok outcome =>
    obtain ⟨record, l⟩ := outcome
    rw [hFetch] at hView
    obtain rfl : record = some markedAsset := Option.some.inj hView
    exact ⟨hDecode, hBack _ _ hDecode, ⟨_, _, openSource_styledWorld, gives_styledRecord⟩,
      hRecords _ _ _ _ _ _ openSource_styledWorld gives_styledRecord, ⟨l, rfl⟩,
      hAssets _ _ _ _ _ _ _ _ hFetch⟩

/-! ## Files that are passed over -/

section Overlooked

variable {options : Options} {l : Ledger}

theorem Ledger.skip_ne (l : Ledger) (path : String) (reason : SkipReason) : l.skip path reason ≠ l := by
  intro h
  have hLength := congrArg (fun m : Ledger => m.skipped.length) h
  simp [Ledger.skip] at hLength

theorem judgeFile_overlooks_iff {f : Disk.File} :
    judgeFile options l f = (.pass, l) ↔ classify f.path options.kinds = .unsupported := by
  have hSupported : isSupported options f = false ↔ classify f.path options.kinds = .unsupported := by
    simp [isSupported]
  rw [← hSupported]
  have hJudged := fileJudgement options l f
  generalize judgeFile options l f = outcome at hJudged ⊢
  cases hJudged with
  | ignored hKind => exact iff_of_true rfl hKind
  | full hKind => exact iff_of_false (by simp) (by simp [hKind])
  | skipped hKind => exact iff_of_false (by simp [Ledger.skip_ne]) (by simp [hKind])
  | record hKind => exact iff_of_false (by simp) (by simp [hKind])

theorem judgeEntry_overlooks_iff {s : Session} {e : Entry} (hFile : e.isDirectory = .ok false)
    (hOutside : insideDenied options.denied (Path.normalName e.name) = false) :
    judgeEntry options s l e = .ok (.pass, s, l) ↔ classify e.path options.kinds = .unsupported := by
  have hJudged := judgement options s l e
  generalize judgeEntry options s l e = outcome at hJudged ⊢
  cases hJudged with
  | nameless hName =>
    rw [hName] at hFile
    cases hFile
  | ignored _ hIgnored =>
    refine iff_of_true rfl ?_
    by_contra hKind
    exact hIgnored ⟨hFile, hOutside, hKind⟩
  | full hCandidate => exact iff_of_false (by simp) hCandidate.supported
  | aborted hCandidate => exact iff_of_false (by simp) hCandidate.supported
  | spent hCandidate => exact iff_of_false (by simp) hCandidate.supported
  | skipped hCandidate => exact iff_of_false (by simp [Ledger.skip_ne]) hCandidate.supported
  | @read data _ hCandidate =>
    refine iff_of_false ?_ hCandidate.supported
    unfold Ledger.collect
    cases Text.Utf8.decode data with
    | error fault => simp [Ledger.skip_ne]
    | ok content => simp [Verdict.ofOption]

end Overlooked

/-- Where no folder on the way to a file has a character at which an address is cut off, only the name of the
file decides whether it is passed over and which kind its record has. Otherwise the name does not matter. -/
theorem kind_of_name_iff (dir : String) :
    ((∀ name kinds, classify (dir ++ "/" ++ name) kinds = classify name kinds) ↔ Text.Uncut dir) ∧
    (¬ Text.Uncut dir → ∀ name kinds, classify (dir ++ "/" ++ name) kinds = classify dir kinds) ∧
    (Text.Uncut dir → ∀ (options : Options) (name : String),
      (∀ (l : Ledger) (f : Disk.File), f.path = dir ++ "/" ++ name →
        (judgeFile options l f = (.pass, l) ↔ classify name options.kinds = .unsupported)) ∧
      (∀ (s : Session) (l : Ledger) (e : Entry), e.path = dir ++ "/" ++ name → e.isDirectory = .ok false →
        insideDenied options.denied (Path.normalName e.name) = false →
        (judgeEntry options s l e = .ok (.pass, s, l) ↔ classify name options.kinds = .unsupported)) ∧
      ∀ world source supply l r, source.kind ≠ .page → openSource world options source = .ok (supply, l) →
        supply.Gives options l r → r.path = dir ++ "/" ++ name → r.kind = classify name options.kinds) := by
  refine ⟨classify_below_iff dir, ?_, ?_⟩
  · intro hCut name kinds
    exact classify_congr (Text.extension_of_cut hCut name) kinds
  · intro hUncut options name
    have hKind := (classify_below_iff dir).mpr hUncut name options.kinds
    refine ⟨?_, ?_, ?_⟩
    · intro l f hPath
      rw [judgeFile_overlooks_iff, hPath, hKind]
    · intro s l e hPath hFile hOutside
      rw [judgeEntry_overlooks_iff hFile hOutside, hPath, hKind]
    · intro world source supply l r hNoPage hOpen hGives hPath
      rcases openSource_cases hOpen with ⟨-, hFiles⟩ | ⟨hPage, -⟩
      · rw [(hGives.fromFile hFiles).kind, hPath, hKind]
      · exact absurd hPage hNoPage

def styledEntry : Entry :=
  { name := "v1.css/b.png", declared := 0, data := .mk fun _ => { ending := .complete } }

theorem styledWorld_kind_of_name :
    Text.Uncut "v1.css" ∧
    classify "v1.css/a.js" [(".js", .prose), (".css", .script)] = .prose ∧
    (¬ Text.Uncut "C#" ∧ classify "C#/app.js" = classify "C#") ∧
    judgeFile {} {} ⟨"v1.css/b.png", .lost⟩ = (.pass, {}) ∧
    judgeEntry {} { limits := {} } {} styledEntry = .ok (.pass, { limits := {} }, {}) ∧
    ∃ supply l, openSource styledWorld {} styledSource = .ok (supply, l) ∧
      supply.Gives {} l styledRecord ∧ styledRecord.kind = classify "a.js" := by
  have hUncut : Text.Uncut "v1.css" := by decide
  have hCut : ¬ Text.Uncut "C#" := by decide
  obtain ⟨hKind, -, hCollect⟩ := kind_of_name_iff "v1.css"
  have hTable := hKind.mpr hUncut "a.js" [(".js", .prose), (".css", .script)]
  have hSharp := (kind_of_name_iff "C#").2.1 hCut "app.js" defaultKinds
  obtain ⟨hFile, hEntry, -⟩ := hCollect hUncut {} "b.png"
  have hImage : classify "b.png" = .unsupported := by decide
  obtain ⟨-, -, hRecord⟩ := hCollect hUncut {} "a.js"
  refine ⟨hUncut, hTable.trans (by decide), ⟨hCut, hSharp⟩, (hFile {} _ rfl).mpr hImage, ?_, _, _,
    openSource_styledWorld, gives_styledRecord, ?_⟩
  · have hFolder : styledEntry.isDirectory = .ok false := by
      rw [Entry.isDirectory, if_neg (by decide +kernel)]
      exact congrArg Except.ok (by decide +kernel)
    exact (hEntry _ {} styledEntry (by decide +kernel) hFolder (by decide +kernel)).mpr hImage
  · exact hRecord _ _ _ _ _ (by decide) openSource_styledWorld gives_styledRecord rfl

/-! A script in a folder whose name looks like the start of a fragment. -/

def sharpWorld : World where
  disk := { name := "top", tree := .folder [("C#", .folder [("app.js", .file [97])])] }

theorem sharpWorld_drops_script :
    classify "C#/app.js" = .unsupported ∧ classify "app.js" = .script ∧
    collect sharpWorld {} { kind := .directory, locator := "top" } = .ok ([], {}) := by
  have hKind : classify "C#/app.js" = .unsupported := by decide
  refine ⟨hKind, by decide, ?_⟩
  have hPlace : sharpWorld.disk.place "top" = .ok [] := Disk.place_top _
  have hFiles : Disk.filesBelow sharpWorld.disk.tree defaultDenied [] = [⟨"C#/app.js", .bytes [97]⟩] :=
    Disk.filesBelow_single (by decide) "app.js" [97]
  have hIgnored : judgeFile {} {} ⟨"C#/app.js", .bytes [97]⟩ = (.pass, {}) := judgeFile_overlooks_iff.mpr hKind
  rw [collect_folder {} rfl hPlace rfl, hFiles, drain_files_pass [] hIgnored, drain_of_none rfl]
  rfl

end Collect

end WebAudit
