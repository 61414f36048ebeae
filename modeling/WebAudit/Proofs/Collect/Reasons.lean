import Mathlib.Data.List.Infix
import WebAudit.Proofs.Archive.Ceilings
import WebAudit.Proofs.Collect.Isolation
import WebAudit.Proofs.Text.Words

/-!
# Reasons for entries that are left out

Why an entry of an archive is left out is told by words in the message about it. The message about a name or a
size tells its own reason and no other. The message about damaged data repeats the name of the entry and says
what is wrong with the data, and a word in either can be taken for another reason. So the reason that is kept
states the cause, except for damaged entries with such a word in their message.
-/

namespace WebAudit

/-! ## Messages -/

def Archive.sizesText (declared : Nat) (limit : Int) : String :=
  toString declared ++ " > " ++ toString limit

theorem Archive.message_tooLarge (declared : Nat) (limit : Int) :
    (EntryFault.tooLarge declared limit).message = "Entry too large: " ++ sizesText declared limit := by
  -- the equations of `message` would make the elaborator evaluate the texts of all faults
  change "Entry too large: " ++ toString declared ++ " > " ++ toString limit = _
  simp only [sizesText, String.append_assoc]

theorem Archive.toNat_sizesText (declared : Nat) (limit : Int) :
    ∀ c ∈ (sizesText declared limit).toList, c.toNat < 65 := by
  intro c hc
  rw [sizesText, String.toList_append, String.toList_append, List.mem_append, List.mem_append] at hc
  rcases hc with (hc | hc) | hc
  · exact Nat.lt_of_le_of_lt (toNat_le_of_isDigit (isDigit_of_mem_toString hc)) (by decide)
  · have hAll : (" > ".toList.all fun c => decide (c.toNat < 65)) = true := by decide
    exact of_decide_eq_true (List.all_eq_true.mp hAll c hc)
  · exact Nat.lt_of_le_of_lt (toNat_le_of_mem_toString_int hc) (by decide)

namespace SkipReason

def words : List String :=
  ["traversal", "too large", "exceeded", "too long"]

theorem ascii_of_mem_words : ∀ word ∈ words, word.toList.all (·.toNat < 128) = true := by
  decide

def Discreet (text : String) : Prop :=
  ∀ word ∈ words, Text.contains word (Text.lower text) = false

instance (text : String) : Decidable (Discreet text) :=
  List.decidableBAll _ _

theorem ofMessage_eq_corrupt_iff (message : String) : ofMessage message = .corrupt ↔ Discreet message := by
  unfold ofMessage Discreet words
  generalize Text.lower message = text
  simp only [List.forall_mem_cons, List.not_mem_nil, false_imp_iff, implies_true, and_true]
  cases Text.contains "traversal" text <;> cases Text.contains "too large" text <;>
    cases Text.contains "exceeded" text <;> cases Text.contains "too long" text <;> decide

/-- The message about damaged data tells a reason just if the name or the detail does. -/
theorem discreet_quoting {front : String} (lead : List Char) (name detail : String)
    (hFront : Text.lowerEach front.toList = lead ++ ['y', ' '])
    (hLead : ∀ word ∈ words, ¬ word.toList <:+: lead) :
    Discreet (front ++ name ++ ": " ++ detail) ↔ Discreet name ∧ Discreet detail := by
  have hText : Text.lowerEach (front ++ name ++ ": " ++ detail).toList =
      lead ++ 'y' :: ' ' :: (Text.lowerEach name.toList ++ ':' :: ' ' :: Text.lowerEach detail.toList) := by
    have hMark : Text.lowerEach ": ".toList = [':', ' '] := by decide
    simp only [String.toList_append, Text.lowerEach_append, hFront, hMark, List.append_assoc,
      List.cons_append, List.nil_append]
  have hWord : ∀ word ∈ words, (Text.contains word (Text.lower (front ++ name ++ ": " ++ detail)) = false ↔
      Text.contains word (Text.lower name) = false ∧ Text.contains word (Text.lower detail) = false) := by
    intro word hMem
    have hLacks : 'y' ∉ word.toList ∧ ':' ∉ word.toList ∧ word.toList ≠ [] ∧ word.toList.head? ≠ some ' ' := by
      have hAll : ∀ word ∈ words, 'y' ∉ word.toList ∧ ':' ∉ word.toList ∧ word.toList ≠ [] ∧
          word.toList.head? ≠ some ' ' := by decide
      exact hAll word hMem
    obtain ⟨hY, hColon, hNe, hHead⟩ := hLacks
    have hAscii := ascii_of_mem_words word hMem
    simp only [← Bool.not_eq_true, Text.contains_lower_iff hAscii, hText]
    rw [Text.infix_append_cons_iff hY, Text.infix_cons_iff_of_head_ne hNe hHead,
      Text.infix_append_cons_iff hColon, Text.infix_cons_iff_of_head_ne hNe hHead,
      or_iff_right (hLead word hMem), not_or]
  unfold Discreet
  rw [← forall₂_and]
  exact forall₂_congr hWord

open Archive (EntryFault)

theorem ofMessage_corrupt_iff (name detail : String) :
    ofMessage (EntryFault.corrupt name detail).message = .corrupt ↔ Discreet name ∧ Discreet detail := by
  rw [ofMessage_eq_corrupt_iff]
  exact discreet_quoting "corrupt entr".toList name detail (by decide) (by decide)

theorem ofMessage_unsupported_iff (name detail : String) :
    ofMessage (EntryFault.unsupported name detail).message = .corrupt ↔ Discreet name ∧ Discreet detail := by
  rw [ofMessage_eq_corrupt_iff]
  exact discreet_quoting "unsupported entr".toList name detail (by decide) (by decide)

theorem ofMessage_escapes (name : String) :
    ofMessage (EntryFault.escapes name).message = .pathTraversal := by
  have hTold : Text.contains "traversal" (Text.lower (EntryFault.escapes name).message) = true := by
    rw [Text.contains_lower_iff (by decide)]
    change _ <:+: Text.lowerEach ("Path traversal detected: " ++ name).toList
    rw [String.toList_append, Text.lowerEach_append]
    exact List.IsInfix.trans (by decide) (List.prefix_append _ _).isInfix
  unfold ofMessage
  dsimp only
  rw [hTold, if_pos rfl]

/-- Sizes at the end of a message do not change what it tells. -/
theorem ofMessage_sizes (front : String) (declared : Nat) (limit : Int) :
    ofMessage (front ++ Archive.sizesText declared limit) = ofMessage front := by
  have hSizes := Archive.toNat_sizesText declared limit
  have hWord : ∀ word ∈ words, ∀ last : Char, word.toList.getLast? = some last → 65 ≤ last.toNat →
      Text.contains word (Text.lower (front ++ Archive.sizesText declared limit)) =
        Text.contains word (Text.lower front) := by
    intro word hMem last hLast hLetter
    have hAscii := ascii_of_mem_words word hMem
    have hLacks : last ∉ (Archive.sizesText declared limit).toList := by
      intro hMem
      have hDigit := hSizes last hMem
      omega
    rw [Bool.eq_iff_iff, Text.contains_lower_iff hAscii, Text.contains_lower_iff hAscii, String.toList_append,
      Text.lowerEach_append, Text.lowerEach_eq_self hSizes, Text.infix_append_iff hLast hLacks]
  unfold ofMessage
  dsimp only
  rw [hWord "traversal" (by decide) 'l' (by decide) (by decide),
    hWord "too large" (by decide) 'e' (by decide) (by decide),
    hWord "exceeded" (by decide) 'd' (by decide) (by decide),
    hWord "too long" (by decide) 'g' (by decide) (by decide)]

theorem ofMessage_tooLarge (declared : Nat) (limit : Int) :
    ofMessage (EntryFault.tooLarge declared limit).message = .tooLarge := by
  rw [Archive.message_tooLarge, ofMessage_sizes]
  decide +kernel

theorem ofMessage_nameTooLong (length : Nat) :
    ofMessage (EntryFault.nameTooLong length).message = .pathTooLong := by
  have hMessage : (EntryFault.nameTooLong length).message =
      "Path too long: " ++ Archive.sizesText length Archive.maxNameLength := by
    change "Path too long: " ++ toString length ++ " > " ++ toString Archive.maxNameLength = _
    simp only [Archive.sizesText, String.append_assoc]
    rfl
  rw [hMessage, ofMessage_sizes]
  decide +kernel

theorem ofMessage_spent : ofMessage EntryFault.spent.message = .tooLarge := by
  decide +kernel

end SkipReason

namespace Archive

def Ending.detail : Ending → String
  | complete => ""
  | corrupt detail => detail
  | unsupported detail => detail
  | failed _ => ""

namespace Session

variable {s t : Session} {e : Entry} {fault : EntryFault} {reason : SkipReason}

def Oversized (s : Session) (e : Entry) : Prop :=
  s.limits.maxEntry < (e.declared : Int) ∨ s.limits.maxEntry < (e.stream.bytes.length : Int) ∨
    (e.stream.chunks ≠ [] ∧ s.limits.maxTotal < ((s.totalRead + e.stream.bytes.length : Nat) : Int))

instance (s : Session) (e : Entry) : Decidable (s.Oversized e) :=
  inferInstanceAs (Decidable (_ ∨ _ ∨ _ ∧ _))

/-- Neither the name nor the size of the entry is a reason to leave it out. -/
structure Tolerates (s : Session) (e : Entry) : Prop where
  inside : Path.escapes e.name = false
  short : e.name.length ≤ maxNameLength
  fits : ¬ s.Oversized e

inductive Refusal (s : Session) (e : Entry) : EntryFault → Prop
  | escapes (hEscapes : Path.escapes e.name = true) : Refusal s e (.escapes e.name)
  | long (hInside : Path.escapes e.name = false) (hLong : maxNameLength < e.name.length) :
    Refusal s e (.nameTooLong e.name.length)
  | declared (hInside : Path.escapes e.name = false) (hShort : e.name.length ≤ maxNameLength)
    (hLarge : s.Oversized e) : Refusal s e (.tooLarge e.declared s.limits.maxEntry)
  | spent (hInside : Path.escapes e.name = false) (hShort : e.name.length ≤ maxNameLength)
    (hLarge : s.Oversized e) : Refusal s e .spent
  | corrupt (hTolerated : s.Tolerates e) : Refusal s e (.corrupt e.name e.stream.ending.detail)
  | unsupported (hTolerated : s.Tolerates e) : Refusal s e (.unsupported e.name e.stream.ending.detail)

theorem refusal_of_check (h : e.check s.limits = .error fault) : Refusal s e fault := by
  unfold Entry.check at h
  split at h
  · rename_i hEscapes
    cases h
    exact .escapes hEscapes
  · rename_i hInside
    rw [Bool.not_eq_true] at hInside
    split at h
    · rename_i hLong
      cases h
      exact .long hInside hLong
    · rename_i hShort
      split at h
      · rename_i hLarge
        cases h
        exact .declared hInside (Nat.le_of_not_lt hShort) (.inl hLarge)
      · cases h

theorem of_check_ok (h : e.check s.limits = .ok ()) :
    Path.escapes e.name = false ∧ e.name.length ≤ maxNameLength ∧
      (e.declared : Int) ≤ s.limits.maxEntry := by
  unfold Entry.check at h
  split at h
  · cases h
  · rename_i hInside
    split at h
    · cases h
    · rename_i hShort
      split at h
      · cases h
      · rename_i hFits
        exact ⟨by simpa using hInside, by omega, by omega⟩

theorem refusal_of_endFault (hTolerated : s.Tolerates e)
    (h : endFault e.name e.stream.ending = .error (.entry fault)) : Refusal s e fault := by
  have hCorrupt : Refusal s e (.corrupt e.name e.stream.ending.detail) := .corrupt hTolerated
  have hUnsupported : Refusal s e (.unsupported e.name e.stream.ending.detail) := .unsupported hTolerated
  cases hEnding : e.stream.ending with
  | complete =>
    rw [hEnding] at h
    cases h
  | corrupt detail =>
    rw [hEnding] at h hCorrupt
    cases h
    exact hCorrupt
  | unsupported detail =>
    rw [hEnding] at h hUnsupported
    cases h
    exact hUnsupported
  | failed failure =>
    rw [hEnding] at h
    cases h

theorem refusal (hBounded : e.Bounded) (h : s.read e = (.error (.entry fault), t)) : Refusal s e fault := by
  unfold read at h
  cases hCheck : e.check s.limits with
  | error cause =>
    rw [hCheck] at h
    cases h
    exact refusal_of_check hCheck
  | ok =>
    obtain ⟨hInside, hShort, hDeclared⟩ := of_check_ok hCheck
    have hEntry : (e.stream.bytes.length : Int) ≤ s.limits.maxEntry := by
      unfold Entry.Bounded at hBounded
      omega
    have hFits : ((0 + e.stream.chunks.flatten.length : Nat) : Int) ≤ s.limits.maxEntry := by
      rwa [Nat.zero_add]
    rw [hCheck] at h
    dsimp only at h
    rcases takeChunks_cases e.name e.stream.ending hFits with ⟨hTaken, hSum⟩ | ⟨count, hTaken, hPassed, hCount⟩
    · have hWithin : ¬ s.Oversized e := by
        rintro (hLarge | hLarge | ⟨hSome, hLarge⟩)
        · omega
        · omega
        · rcases hSum with hNone | hSum
          · exact hSome hNone
          · unfold Stream.bytes at hLarge
            omega
      refine refusal_of_endFault ⟨hInside, hShort, hWithin⟩ ?_
      rw [hTaken] at h
      obtain ⟨hResult, -⟩ := Prod.mk.inj h
      cases hEnd : endFault e.name e.stream.ending with
      | ok =>
        rw [hEnd] at hResult
        cases hResult
      | error cause =>
        rw [hEnd] at hResult
        cases hResult
        rfl
    · rw [hTaken] at h
      cases h
      refine .spent hInside hShort (.inr (.inr ⟨?_, ?_⟩))
      · intro hNone
        rw [hNone, takeChunks] at hTaken
        cases hEnding : e.stream.ending <;> rw [hEnding] at hTaken <;> cases hTaken
      · unfold Stream.bytes
        omega

/-- The reason states why the entry cannot be read. -/
structure States (s : Session) (e : Entry) (reason : SkipReason) : Prop where
  traversal : reason = .pathTraversal ↔ Path.escapes e.name = true
  long : reason = .pathTooLong ↔ Path.escapes e.name = false ∧ maxNameLength < e.name.length
  large : reason = .tooLarge ↔
    Path.escapes e.name = false ∧ e.name.length ≤ maxNameLength ∧ s.Oversized e
  corrupt : reason = .corrupt ↔
    Path.escapes e.name = false ∧ e.name.length ≤ maxNameLength ∧ ¬ s.Oversized e

theorem states_pathTraversal (hEscapes : Path.escapes e.name = true) : States s e .pathTraversal := by
  constructor <;> simp [hEscapes]

theorem states_pathTooLong (hInside : Path.escapes e.name = false) (hLong : maxNameLength < e.name.length) :
    States s e .pathTooLong := by
  constructor <;> simp [hInside, hLong, Nat.not_le_of_lt hLong]

theorem states_tooLarge (hInside : Path.escapes e.name = false) (hShort : e.name.length ≤ maxNameLength)
    (hLarge : s.Oversized e) : States s e .tooLarge := by
  constructor <;> simp [hInside, hShort, hLarge]

theorem Tolerates.states_iff (h : s.Tolerates e) : States s e reason ↔ reason = .corrupt := by
  constructor
  · exact fun hStates => hStates.corrupt.mpr ⟨h.inside, h.short, h.fits⟩
  · rintro rfl
    constructor <;> simp [h.inside, h.short, h.fits]

/-- What the message tells is the cause, unless the data is damaged and the message repeats a telling word. -/
theorem Refusal.states_iff (h : Refusal s e fault) :
    States s e (.ofMessage fault.message) ↔
      (s.Tolerates e → SkipReason.Discreet e.name ∧ SkipReason.Discreet e.stream.ending.detail) := by
  cases h with
  | escapes hEscapes =>
    rw [SkipReason.ofMessage_escapes]
    refine iff_of_true (states_pathTraversal hEscapes) fun hTolerated => ?_
    exact absurd (hTolerated.inside.symm.trans hEscapes) Bool.false_ne_true
  | long hInside hLong =>
    rw [SkipReason.ofMessage_nameTooLong]
    refine iff_of_true (states_pathTooLong hInside hLong) fun hTolerated => ?_
    exact absurd hTolerated.short (Nat.not_le_of_lt hLong)
  | declared hInside hShort hLarge =>
    rw [SkipReason.ofMessage_tooLarge]
    exact iff_of_true (states_tooLarge hInside hShort hLarge) fun hTolerated => absurd hLarge hTolerated.fits
  | spent hInside hShort hLarge =>
    rw [SkipReason.ofMessage_spent]
    exact iff_of_true (states_tooLarge hInside hShort hLarge) fun hTolerated => absurd hLarge hTolerated.fits
  | corrupt hTolerated =>
    rw [hTolerated.states_iff, SkipReason.ofMessage_corrupt_iff]
    exact ⟨fun hDiscreet _ => hDiscreet, fun hDiscreet => hDiscreet hTolerated⟩
  | unsupported hTolerated =>
    rw [hTolerated.states_iff, SkipReason.ofMessage_unsupported_iff]
    exact ⟨fun hDiscreet _ => hDiscreet, fun hDiscreet => hDiscreet hTolerated⟩

end Session

end Archive

namespace Collect

open Archive (Entry Session EntryFault)

variable {options : Options} {s t : Session} {l : Ledger} {e : Entry} {fault : EntryFault}

theorem skip_of_read_fault (hCandidate : Candidate options e) (hRoom : l.hasRoom options = true)
    (hRead : s.read e = (.error (.entry fault), t)) :
    ∃ verdict m, judgeEntry options s l e = .ok (verdict, t, m) ∧
      m.skipped = l.skipped ++ [⟨e.path, .ofMessage fault.message⟩] := by
  cases hExhausted : t.exhausted with
  | true => exact ⟨_, _, (Judgement.spent hCandidate hRoom hRead hExhausted).eq, rfl⟩
  | false => exact ⟨_, _, (Judgement.skipped hCandidate hRoom hRead hExhausted).eq, rfl⟩

/-- An entry of an archive that cannot be read gets one mark. The reason in it states the cause, except where
the data is damaged and the name of the entry, or what is said about the data, has a telling word in it. -/
theorem skip_reason_states_cause_iff {codecs : Archive.Codecs} {bytes : List UInt8} {carrier : Archive.Carrier}
    {entries : List Entry} (hOpen : Archive.entries codecs bytes carrier = .ok entries) (hEntry : e ∈ entries)
    (hCandidate : Candidate options e) (hRoom : l.hasRoom options = true)
    (hRead : s.read e = (.error (.entry fault), t)) :
    ∃ verdict m reason, judgeEntry options s l e = .ok (verdict, t, m) ∧
      m.skipped = l.skipped ++ [⟨e.path, reason⟩] ∧
      (s.States e reason ↔
        (s.Tolerates e → SkipReason.Discreet e.name ∧ SkipReason.Discreet e.stream.ending.detail)) := by
  obtain ⟨verdict, m, hJudge, hSkipped⟩ := skip_of_read_fault hCandidate hRoom hRead
  have hRefusal := Session.refusal (Archive.bounded_of_mem_entries hOpen e hEntry) hRead
  exact ⟨verdict, m, _, hJudge, hSkipped, hRefusal.states_iff⟩

theorem entries_of_openUpload {codecs : Archive.Codecs} {data : List UInt8} {entries : List Entry}
    (h : openUpload codecs data = .ok entries) : Archive.entries codecs data .memory = .ok entries := by
  unfold openUpload openEntries at h
  split at h
  · rename_i hEntries
    cases h
    exact hEntries
  · cases h
  · cases h

theorem spoiltArchive_reason_states_cause :
    ∃ fault t verdict m, Candidate {} spoiltEntry ∧
      (startSession {}).read spoiltEntry = (.error (.entry fault), t) ∧
      judgeEntry {} (startSession {}) {} spoiltEntry = .ok (verdict, t, m) ∧
      m.skipped = [⟨"a.js", .corrupt⟩] ∧ (startSession {}).States spoiltEntry .corrupt := by
  have hFile : spoiltEntry.isDirectory = .ok false := by
    rw [Entry.isDirectory, if_neg (by decide +kernel)]
    exact congrArg Except.ok (by decide +kernel)
  have hCandidate : Candidate {} spoiltEntry := ⟨hFile, by decide +kernel, by decide +kernel⟩
  have hRead : (startSession {}).read spoiltEntry =
      (.error (.entry (.corrupt "a.js" "Bad CRC-32 for file 'a.js'")), startSession {}) := by
    decide +kernel
  obtain ⟨verdict, m, reason, hJudge, hSkipped, hStates⟩ :=
    skip_reason_states_cause_iff (entries_of_openUpload openUpload_spoiltArchive) List.mem_cons_self
      hCandidate (l := {}) (by decide) hRead
  have hTolerated : (startSession {}).Tolerates spoiltEntry :=
    ⟨by decide +kernel, by decide +kernel, by decide +kernel⟩
  have hStated := hStates.mpr fun _ => ⟨by decide +kernel, by decide +kernel⟩
  obtain rfl := hTolerated.states_iff.mp hStated
  exact ⟨_, _, verdict, m, hCandidate, hRead, hJudge, hSkipped, hStated⟩

/-! An entry with a telling name and a wrong checksum. -/

def tellingArchive : List UInt8 :=
  [80, 75, 3, 4, 20, 0, 0, 0, 0, 0, 0, 0, 33, 0, 0, 0, 0, 0, 0, 0, 0, 0, 0, 0, 0, 0, 12, 0, 0, 0, 116, 114,
   97, 118, 101, 114, 115, 97, 108, 46, 106, 115, 80, 75, 1, 2, 20, 3, 20, 0, 0, 0, 0, 0, 0, 0, 33, 0, 1, 0,
   0, 0, 0, 0, 0, 0, 0, 0, 0, 0, 12, 0, 0, 0, 0, 0, 0, 0, 0, 0, 0, 0, 128, 1, 0, 0, 0, 0, 116, 114, 97, 118,
   101, 114, 115, 97, 108, 46, 106, 115, 80, 75, 5, 6, 0, 0, 0, 0, 1, 0, 1, 0, 58, 0, 0, 0, 42, 0, 0, 0, 0,
   0]

theorem tellingArchive_reason_misleads :
    let world : World := { disk := { name := "top", tree := .folder [] } }
    (collect world {} (upload tellingArchive)).toOption.map (fun result => (result.1, result.2.skipped)) =
        some ([], [⟨"traversal.js", .pathTraversal⟩]) ∧
      Path.escapes "traversal.js" = false := by
  decide +kernel

end Collect

end WebAudit
