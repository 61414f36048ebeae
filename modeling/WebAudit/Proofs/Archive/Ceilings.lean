import Mathlib.Algebra.GroupWithZero.Nat
import WebAudit.Proofs.Archive.Declared

/-!
# Ceilings of a session

Whatever is read in whatever order, a session returns nothing larger than an entry may be, and not more in
total than it may. Readings that fail count as far as they got. The session is exhausted as soon as more was
read than it may, and from then on it returns only what has no bytes.
-/

namespace WebAudit.Archive.Session

variable {s t : Session} {e : Entry} {result : Except ReadFault (List UInt8)} {data : List UInt8}

/-! ## One reading -/

/-- Chunks that fit an entry are taken to their end, or up to the one that passes the limit on the total. -/
theorem takeChunks_cases (name : String) (ending : Ending) {size : Nat} {chunks : List (List UInt8)}
    (hFits : ((size + chunks.flatten.length : Nat) : Int) ≤ s.limits.maxEntry) :
    (s.takeChunks name ending size chunks =
        (endFault name ending, { s with totalRead := s.totalRead + chunks.flatten.length }) ∧
      (chunks = [] ∨ ((s.totalRead + chunks.flatten.length : Nat) : Int) ≤ s.limits.maxTotal)) ∨
    ∃ count, s.takeChunks name ending size chunks =
        (.error (.entry .spent), { s with totalRead := s.totalRead + count, exhausted := true }) ∧
      s.limits.maxTotal < ((s.totalRead + count : Nat) : Int) ∧ count ≤ chunks.flatten.length := by
  induction chunks generalizing s size with
  | nil => exact .inl ⟨rfl, .inl rfl⟩
  | cons chunk rest ih =>
    rw [List.flatten_cons, List.length_append] at hFits ⊢
    have hEntry : ¬ s.limits.maxEntry < ((size + chunk.length : Nat) : Int) := by omega
    rw [takeChunks]
    dsimp only
    rw [if_neg hEntry]
    split
    · rename_i hTotal
      exact .inr ⟨chunk.length, rfl, hTotal, Nat.le_add_right _ _⟩
    · rename_i hTotal
      have hRest : ((size + chunk.length + rest.flatten.length : Nat) : Int) ≤ s.limits.maxEntry := by omega
      rcases ih (s := { s with totalRead := s.totalRead + chunk.length }) hRest with
        ⟨hTaken, hSum⟩ | ⟨count, hTaken, hPassed, hCount⟩
      · refine .inl ⟨?_, .inr ?_⟩
        · rw [hTaken]
          simp only [Nat.add_assoc]
        · rcases hSum with rfl | hSum
          · simpa using hTotal
          · simpa only [Nat.add_assoc] using hSum
      · refine .inr ⟨chunk.length + count, ?_, ?_, Nat.add_le_add_left hCount _⟩
        · rw [hTaken]
          simp only [Nat.add_assoc]
        · simpa only [Nat.add_assoc] using hPassed

inductive Reading (s : Session) (e : Entry) : Except ReadFault (List UInt8) → Session → Prop
  | refused {fault : EntryFault} : Reading s e (.error (.entry fault)) s
  | broken {fault : ReadFault}
    (hTotal : e.stream.bytes = [] ∨ ((s.totalRead + e.stream.bytes.length : Nat) : Int) ≤ s.limits.maxTotal) :
    Reading s e (.error fault) { s with totalRead := s.totalRead + e.stream.bytes.length }
  | whole (hEntry : (e.stream.bytes.length : Int) ≤ s.limits.maxEntry)
    (hTotal : e.stream.bytes = [] ∨ ((s.totalRead + e.stream.bytes.length : Nat) : Int) ≤ s.limits.maxTotal) :
    Reading s e (.ok e.stream.bytes) { s with totalRead := s.totalRead + e.stream.bytes.length }
  | spent {count : Nat} (hPassed : s.limits.maxTotal < ((s.totalRead + count : Nat) : Int)) :
    Reading s e (.error (.entry .spent)) { s with totalRead := s.totalRead + count, exhausted := true }

theorem reading (hBounded : e.Bounded) (s : Session) : Reading s e (s.read e).1 (s.read e).2 := by
  unfold read
  cases hCheck : e.check s.limits with
  | error fault => exact .refused
  | ok =>
    have hDeclared : (e.declared : Int) ≤ s.limits.maxEntry := by
      unfold Entry.check at hCheck
      split at hCheck
      · cases hCheck
      · split at hCheck
        · cases hCheck
        · split at hCheck
          · cases hCheck
          · omega
    have hEntry : (e.stream.bytes.length : Int) ≤ s.limits.maxEntry := by
      unfold Entry.Bounded at hBounded
      omega
    have hFits : ((0 + e.stream.chunks.flatten.length : Nat) : Int) ≤ s.limits.maxEntry := by
      rwa [Nat.zero_add]
    dsimp only
    rcases takeChunks_cases e.name e.stream.ending hFits with
      ⟨hTaken, hSum⟩ | ⟨count, hTaken, hPassed, -⟩
    · have hTotal : e.stream.bytes = [] ∨
          ((s.totalRead + e.stream.bytes.length : Nat) : Int) ≤ s.limits.maxTotal :=
        hSum.imp_left fun hNone => by rw [Stream.bytes, hNone, List.flatten_nil]
      rw [hTaken]
      cases e.stream.ending with
      | complete => exact .whole hEntry hTotal
      | corrupt => exact .broken hTotal
      | unsupported => exact .broken hTotal
      | failed => exact .broken hTotal
    · rw [hTaken]
      exact .spent hPassed

/-- The session says that it is exhausted just if more was read than it may. -/
def Flagged (s : Session) : Prop :=
  s.exhausted = true ↔ s.limits.maxTotal < (s.totalRead : Int)

theorem Flagged.advance (h : s.Flagged)
    (hTotal : data = [] ∨ ((s.totalRead + data.length : Nat) : Int) ≤ s.limits.maxTotal) :
    { s with totalRead := s.totalRead + data.length }.Flagged := by
  rcases hTotal with rfl | hTotal
  · exact h
  · unfold Flagged at *
    dsimp only
    rw [h]
    constructor <;> intro <;> omega

namespace Reading

theorem limits_eq (h : Reading s e result t) : t.limits = s.limits := by
  cases h <;> rfl

theorem totalRead_le (h : Reading s e result t) : s.totalRead ≤ t.totalRead := by
  cases h with
  | refused => exact Nat.le_refl _
  | broken => exact Nat.le_add_right _ _
  | whole => exact Nat.le_add_right _ _
  | spent => exact Nat.le_add_right _ _

theorem flagged (h : Reading s e result t) (hFlagged : s.Flagged) : t.Flagged := by
  cases h with
  | refused => exact hFlagged
  | broken hTotal => exact hFlagged.advance hTotal
  | whole _ hTotal => exact hFlagged.advance hTotal
  | spent hPassed => exact iff_of_true rfl hPassed

/-- What is returned was read, and fits both limits. -/
theorem returned (h : Reading s e (.ok data) t) :
    (data.length : Int) ≤ s.limits.maxEntry ∧ t.totalRead = s.totalRead + data.length ∧
      (data = [] ∨ (t.totalRead : Int) ≤ s.limits.maxTotal) := by
  cases h with
  | whole hEntry hTotal => exact ⟨hEntry, rfl, hTotal⟩

theorem fails (h : Reading s e result t) (hPassed : s.limits.maxTotal < (s.totalRead : Int))
    (hBytes : e.stream.bytes ≠ []) : ∃ fault, result = .error fault := by
  cases h with
  | refused => exact ⟨_, rfl⟩
  | broken => exact ⟨_, rfl⟩
  | whole _ hTotal =>
    rcases hTotal with hNone | hTotal
    · exact absurd hNone hBytes
    · omega
  | spent => exact ⟨_, rfl⟩

end Reading

/-! ## Many readings -/

def after (s : Session) : List Entry → Session
  | [] => s
  | e :: es => (s.read e).2.after es

def returned (s : Session) : List Entry → List (List UInt8)
  | [] => []
  | e :: es => (s.read e).1.toOption.toList ++ (s.read e).2.returned es

theorem after_append (s : Session) (es later : List Entry) :
    s.after (es ++ later) = (s.after es).after later := by
  induction es generalizing s with
  | nil => rfl
  | cons e es ih => exact ih (s.read e).2

section Run

variable {es : List Entry} (hBounded : ∀ e ∈ es, e.Bounded)

include hBounded

theorem limits_after (s : Session) : (s.after es).limits = s.limits := by
  induction es generalizing s with
  | nil => rfl
  | cons e es ih =>
    obtain ⟨hHead, hTail⟩ := List.forall_mem_cons.mp hBounded
    exact (ih hTail (s.read e).2).trans (reading hHead s).limits_eq

theorem totalRead_le_after (s : Session) : s.totalRead ≤ (s.after es).totalRead := by
  induction es generalizing s with
  | nil => exact Nat.le_refl _
  | cons e es ih =>
    obtain ⟨hHead, hTail⟩ := List.forall_mem_cons.mp hBounded
    exact Nat.le_trans (reading hHead s).totalRead_le (ih hTail (s.read e).2)

theorem Flagged.after (h : s.Flagged) : (s.after es).Flagged := by
  induction es generalizing s with
  | nil => exact h
  | cons e es ih =>
    obtain ⟨hHead, hTail⟩ := List.forall_mem_cons.mp hBounded
    exact ih hTail ((reading hHead s).flagged h)

theorem length_le_of_mem_returned (s : Session) :
    ∀ data ∈ s.returned es, (data.length : Int) ≤ s.limits.maxEntry := by
  induction es generalizing s with
  | nil => simp [Session.returned]
  | cons e es ih =>
    obtain ⟨hHead, hTail⟩ := List.forall_mem_cons.mp hBounded
    have hReading := reading hHead s
    intro data hData
    rcases List.mem_append.mp hData with hData | hData
    · cases hResult : (s.read e).1 with
      | error fault =>
        rw [hResult] at hData
        cases hData
      | ok bytes =>
        rw [hResult] at hData hReading
        rw [List.mem_singleton.mp hData]
        exact hReading.returned.1
    · rw [← hReading.limits_eq]
      exact ih hTail (s.read e).2 data hData

/-- What was returned before and what is returned now was read, and is not more in total than allowed. -/
theorem sum_returned_le {before : Nat} (hRead : before ≤ s.totalRead)
    (hTotal : (before : Int) ≤ s.limits.maxTotal) :
    ((before + ((s.returned es).map List.length).sum : Nat) : Int) ≤ s.limits.maxTotal := by
  induction es generalizing s before with
  | nil => simpa [Session.returned] using hTotal
  | cons e es ih =>
    obtain ⟨hHead, hTail⟩ := List.forall_mem_cons.mp hBounded
    have hReading := reading hHead s
    rw [Session.returned, List.map_append, List.sum_append, ← Nat.add_assoc, ← hReading.limits_eq]
    cases hResult : (s.read e).1 with
    | error fault =>
      refine ih hTail (Nat.le_trans hRead hReading.totalRead_le) ?_
      rwa [hReading.limits_eq]
    | ok data =>
      rw [hResult] at hReading
      obtain ⟨-, hCharged, hFits⟩ := hReading.returned
      have hSum : ((Except.ok data : Except ReadFault (List UInt8)).toOption.toList.map List.length).sum =
          data.length := by
        simp [Except.toOption]
      rw [hSum]
      refine ih hTail (by omega) ?_
      rw [hReading.limits_eq]
      rcases hFits with rfl | hFits
      · simpa using hTotal
      · omega

end Run

/-- Whatever entries of an archive are read, again or in vain, nothing that is returned passes a limit, the
total only grows, the session is exhausted just if it passed the limit, and then nothing with a byte in it
is returned any more. -/
theorem ceilings_hold {codecs : Codecs} {bytes : List UInt8} {carrier : Carrier} {entries : List Entry}
    (hOpen : Archive.entries codecs bytes carrier = .ok entries) (limits : Limits) (hLimit : 0 ≤ limits.maxTotal)
    (reads : List Entry) (hReads : ∀ e ∈ reads, e ∈ entries) :
    let fresh : Session := { limits }
    (∀ data ∈ fresh.returned reads, (data.length : Int) ≤ limits.maxEntry) ∧
    ((((fresh.returned reads).map List.length).sum : Nat) : Int) ≤ limits.maxTotal ∧
    ((fresh.after reads).exhausted = true ↔ limits.maxTotal < ((fresh.after reads).totalRead : Int)) ∧
    ∀ later, (∀ e ∈ later, e ∈ entries) →
      (fresh.after reads).totalRead ≤ (fresh.after (reads ++ later)).totalRead ∧
      ((fresh.after reads).exhausted = true → ∀ e ∈ entries, e.stream.bytes ≠ [] →
        ∃ fault, ((fresh.after (reads ++ later)).read e).1 = .error fault) := by
  intro fresh
  have hBounded := bounded_of_mem_entries hOpen
  have hNow : ∀ e ∈ reads, e.Bounded := fun e he => hBounded e (hReads e he)
  have hFresh : fresh.Flagged := iff_of_false Bool.false_ne_true (Int.not_lt.mpr hLimit)
  have hFlagged := hFresh.after hNow
  have hLimits : (fresh.after reads).limits = limits := limits_after hNow fresh
  refine ⟨length_le_of_mem_returned hNow fresh, ?_, ?_, ?_⟩
  · have hSum := sum_returned_le hNow (s := fresh) (Nat.zero_le _) hLimit
    rwa [Nat.zero_add] at hSum
  · rwa [Flagged, hLimits] at hFlagged
  · intro later hLater
    have hThen : ∀ e ∈ later, e.Bounded := fun e he => hBounded e (hLater e he)
    have hGrows := totalRead_le_after hThen (fresh.after reads)
    rw [after_append]
    refine ⟨hGrows, ?_⟩
    intro hExhausted e he hBytes
    refine (reading (hBounded e he) _).fails ?_ hBytes
    have hPassed := hFlagged.mp hExhausted
    rw [limits_after hThen]
    omega

/-- An entry of two bytes with a wrong checksum, and one of three bytes. -/
def cappedArchive : List UInt8 :=
  [80, 75, 3, 4, 20, 0, 0, 0, 0, 0, 0, 0, 33, 0, 174, 27, 174, 181, 2, 0, 0, 0, 2, 0, 0, 0, 4, 0,
   0, 0, 98, 46, 106, 115, 99, 98, 80, 75, 3, 4, 20, 0, 0, 0, 0, 0, 0, 0, 33, 0, 45, 115, 7, 240,
   3, 0, 0, 0, 3, 0, 0, 0, 4, 0, 0, 0, 97, 46, 106, 115, 97, 97, 97, 80, 75, 1, 2, 20, 3, 20, 0, 0,
   0, 0, 0, 0, 0, 33, 0, 174, 27, 174, 181, 2, 0, 0, 0, 2, 0, 0, 0, 4, 0, 0, 0, 0, 0, 0, 0, 0, 0,
   0, 0, 128, 1, 0, 0, 0, 0, 98, 46, 106, 115, 80, 75, 1, 2, 20, 3, 20, 0, 0, 0, 0, 0, 0, 0, 33, 0,
   45, 115, 7, 240, 3, 0, 0, 0, 3, 0, 0, 0, 4, 0, 0, 0, 0, 0, 0, 0, 0, 0, 0, 0, 128, 1, 36, 0, 0,
   0, 97, 46, 106, 115, 80, 75, 5, 6, 0, 0, 0, 0, 2, 0, 2, 0, 100, 0, 0, 0, 73, 0, 0, 0, 0, 0]

/-- The second entry is read twice; the first time it is returned, the second time it passes the limit. -/
theorem cappedArchive_ceilings_hold :
    let fresh : Session := { limits := { maxEntry := 3, maxTotal := 4 } }
    ∃ entries, Archive.entries {} cappedArchive .memory = .ok entries ∧
      fresh.returned (entries ++ entries.drop 1) = [[97, 97, 97]] ∧
      (fresh.after (entries ++ entries.drop 1)).exhausted = true ∧
      (4 : Int) < (fresh.after (entries ++ entries.drop 1)).totalRead ∧
      ∀ e ∈ entries, e.stream.bytes ≠ [] →
        ∃ fault, ((fresh.after (entries ++ entries.drop 1)).read e).1 = .error fault := by
  intro fresh
  have hView : (Archive.entries {} cappedArchive .memory).toOption.map (fun entries =>
      (fresh.returned (entries ++ entries.drop 1), (fresh.after (entries ++ entries.drop 1)).exhausted)) =
        some ([[97, 97, 97]], true) := by
    decide +kernel
  cases hOpen : Archive.entries {} cappedArchive .memory with
  | error fault =>
    rw [hOpen] at hView
    cases hView
  | ok entries =>
    rw [hOpen] at hView
    obtain ⟨hReturned, hExhausted⟩ := Prod.mk.inj (Option.some.inj hView)
    have hReads : ∀ e ∈ entries ++ entries.drop 1, e ∈ entries := by
      intro e he
      rcases List.mem_append.mp he with he | he
      · exact he
      · exact List.mem_of_mem_drop he
    obtain ⟨-, -, hFlag, hLater⟩ :=
      ceilings_hold hOpen { maxEntry := 3, maxTotal := 4 } (by decide) (entries ++ entries.drop 1) hReads
    have hFails := (hLater [] (by simp)).2 hExhausted
    rw [List.append_nil] at hFails
    exact ⟨entries, rfl, hReturned, hExhausted, hFlag.mp hExhausted, hFails⟩

end WebAudit.Archive.Session
