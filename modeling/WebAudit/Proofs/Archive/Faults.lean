import WebAudit.Archive.Session

/-!
# How the reading of an archive fails

The directory of an archive is refused, or it cannot be read because of a name or of a version. An entry that
is read gives an error of its own, except where its data ends with a failure: its place is none, its name is no text,
or its data cannot be unpacked. Apart from the limit on the total, what is read of an entry does not depend on what
was read before.
-/

namespace WebAudit.Archive

/-! ## Opening -/

variable {failure : Failure}

theorem nameNotText_of_decodeName {flags : Nat} {bytes : List UInt8}
    (h : decodeName flags bytes = .error failure) : ∃ fault, failure = .nameNotText fault := by
  unfold decodeName at h
  split at h
  · cases hText : (Text.Utf8.decodeFrom 0 [] bytes).map String.ofList with
    | error fault =>
      rw [hText] at h
      cases h
      exact ⟨fault, rfl⟩
    | ok name =>
      rw [hText] at h
      cases h
  · cases h

/-- What can be wrong with an entry beyond what an error of its own tells. -/
inductive Failure.OfEntry : Failure → Prop
  | garbled : OfEntry .garbled
  | damaged (detail : String) : OfEntry (.damaged detail)
  | beforeStart {offset : Int} (hBefore : offset < 0) : OfEntry (.beforeStart offset)
  | outOfReach (carrier : Carrier) : OfEntry (.outOfReach carrier)
  | nameNotText (fault : Text.Utf8.Fault) : OfEntry (.nameNotText fault)
  | nameless : OfEntry .nameless

def Ending.Known (ending : Ending) : Prop :=
  ∀ failure, ending = .failed failure → failure.OfEntry

theorem Ending.known_corrupt (detail : String) : (corrupt detail).Known := nofun

theorem Ending.known_unsupported (detail : String) : (unsupported detail).Known := nofun

theorem Ending.known_failed (h : failure.OfEntry) : (failed failure).Known := by
  rintro _ ⟨⟩
  exact h

def Method.Known (method : Method) : Prop :=
  ∀ decompress, method = .foreign decompress → ∀ pieces ending, decompress pieces = .error ending → ending.Known

namespace Packed

variable {p : Packed} {wanted : Nat} {c : Cursor} {ending : Ending}

end Packed

variable {codecs : Codecs}

/-- The data of a header is refused in a known way, or found, as the header declares it. -/
theorem packedAt_cases (codecs : Codecs) (h : Header) (bytes : Array UInt8) (place : Nat) (limit : Int) :
    (∃ ending, h.packedAt codecs bytes place limit = .error ending ∧ ending.Known) ∨
    ∃ packed, h.packedAt codecs bytes place limit = .ok packed ∧
      codecs.method h.method = .ok packed.method ∧ packed.declared = h.declared := by
  unfold Header.packedAt
  dsimp only
  split
  · exact .inl ⟨_, rfl, Ending.known_corrupt _⟩
  split
  · exact .inl ⟨_, rfl, Ending.known_corrupt _⟩
  split
  · exact .inl ⟨_, rfl, Ending.known_unsupported _⟩
  split
  · exact .inl ⟨_, rfl, Ending.known_unsupported _⟩
  cases hName : decodeName (word bytes (place + 6) 2)
      (slice bytes (place + localSize) (word bytes (place + 26) 2)) with
  | error cause =>
    obtain ⟨fault, rfl⟩ := nameNotText_of_decodeName hName
    exact .inl ⟨_, rfl, Ending.known_failed (.nameNotText fault)⟩
  | ok name =>
    dsimp only [Except.mapError, bind, Except.bind]
    split
    · exact .inl ⟨_, rfl, Ending.known_corrupt _⟩
    split
    · exact .inl ⟨_, rfl, Ending.known_corrupt _⟩
    split
    · exact .inl ⟨_, rfl, Ending.known_unsupported _⟩
    split
    · exact .inl ⟨_, rfl, Ending.known_unsupported _⟩
    · rename_i hMethod
      exact .inr ⟨_, rfl, hMethod, rfl⟩

namespace Session

variable {s t : Session} {name : String} {ending : Ending} {size : Nat} {chunks : List (List UInt8)}

theorem ending_of_takeChunks_ok (h : s.takeChunks name ending size chunks = (.ok (), t)) :
    ending = .complete ∧ t.exhausted = s.exhausted := by
  induction chunks generalizing s size with
  | nil =>
    rw [takeChunks] at h
    cases ending with
    | complete =>
      cases h
      exact ⟨rfl, rfl⟩
    | _ => cases h
  | cons chunk rest ih =>
    rw [takeChunks] at h
    split at h
    · cases h
    · split at h
      · cases h
      · obtain ⟨hEnding, hExhausted⟩ := ih h
        exact ⟨hEnding, hExhausted⟩

/-- The second session has the limits of the first, has read no more, and is not exhausted. -/
structure Lighter (s s' : Session) : Prop where
  limits : s'.limits = s.limits
  total : s'.totalRead ≤ s.totalRead
  left : s'.exhausted = false

theorem Lighter.takeChunks {s' : Session} {result : Except ReadFault Unit} (hLighter : Lighter s s')
    (h : s.takeChunks name ending size chunks = (result, t)) (hLeft : t.exhausted = false) :
    ∃ t', s'.takeChunks name ending size chunks = (result, t') ∧ Lighter t t' := by
  induction chunks generalizing s s' size with
  | nil =>
    rw [Session.takeChunks] at h
    cases h
    exact ⟨s', rfl, hLighter⟩
  | cons chunk rest ih =>
    have hNext : Lighter { s with totalRead := s.totalRead + chunk.length }
        { s' with totalRead := s'.totalRead + chunk.length } :=
      ⟨hLighter.limits, Nat.add_le_add_right hLighter.total _, hLighter.left⟩
    have hLimits := hLighter.limits
    have hTotal := hNext.total
    rw [Session.takeChunks] at h ⊢
    dsimp only at h hTotal ⊢
    split at h
    · rename_i hEntry
      cases h
      rw [if_pos (by rwa [hLimits])]
      exact ⟨_, rfl, hNext⟩
    · rename_i hEntry
      rw [if_neg (by rwa [hLimits])]
      split at h
      · cases h
        cases hLeft
      · rename_i hSum
        rw [if_neg (by rw [hLimits]; omega)]
        exact ih hNext h

variable {e : Entry} {data : List UInt8}

theorem sound_of_read_ok (h : s.read e = (.ok data, t)) :
    e.check s.limits = .ok () ∧ e.stream.ending = .complete ∧ t.exhausted = s.exhausted := by
  unfold read at h
  split at h
  · cases h
  · rename_i hCheck
    obtain ⟨hResult, hSession⟩ := Prod.mk.inj h
    cases hTaken : s.takeChunks e.name e.stream.ending 0 e.stream.chunks with
    | mk result t' =>
      rw [hTaken] at hResult hSession
      cases result with
      | error fault => cases hResult
      | ok =>
        obtain ⟨hEnding, hExhausted⟩ := ending_of_takeChunks_ok hTaken
        exact ⟨hCheck, hEnding, hSession ▸ hExhausted⟩

theorem Lighter.read {s' : Session} {result : Except ReadFault (List UInt8)} (hLighter : Lighter s s')
    (h : s.read e = (result, t)) (hLeft : t.exhausted = false) :
    ∃ t', s'.read e = (result, t') ∧ Lighter t t' := by
  unfold Session.read at h ⊢
  rw [hLighter.limits]
  split at h
  · cases h
    exact ⟨s', rfl, hLighter⟩
  · cases hTaken : s.takeChunks e.name e.stream.ending 0 e.stream.chunks with
    | mk taken u =>
      rw [hTaken] at h
      cases h
      obtain ⟨u', hTaken', hLighter'⟩ := hLighter.takeChunks hTaken hLeft
      rw [hTaken']
      exact ⟨u', rfl, hLighter'⟩

end Session

end WebAudit.Archive
