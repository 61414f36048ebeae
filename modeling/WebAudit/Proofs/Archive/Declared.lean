import WebAudit.Proofs.Archive.Faults

/-!
# Streams and declared sizes

What comes out of an entry never exceeds the size that its archive declares. While an entry is unpacked, the
bytes that are handed out, those kept ahead and those still to come add up to that size.
-/

namespace WebAudit.Archive

namespace Packed

variable {p : Packed} {wanted : Nat} {bytes chunk : List UInt8} {c next : Cursor}

def Cursor.remaining (c : Cursor) : Nat :=
  c.ahead.length + c.left

structure Cursor.Untouched (c next : Cursor) : Prop where
  left : next.left = c.left
  ahead : next.ahead = c.ahead

theorem untouched_takeIn (h : p.takeIn wanted c = .ok next) : c.Untouched next := by
  simp only [takeIn] at h
  split at h
  · cases h
    exact ⟨rfl, rfl⟩
  · split at h
    · cases h
    · cases h
      exact ⟨rfl, rfl⟩

theorem untouched_copyOut (h : p.copyOut wanted c = .ok (bytes, next)) : c.Untouched next := by
  unfold copyOut at h
  cases hTaken : p.takeIn wanted c with
  | error ending =>
    rw [hTaken] at h
    cases h
  | ok taken =>
    rw [hTaken] at h
    cases h
    exact ⟨(untouched_takeIn hTaken).left, (untouched_takeIn hTaken).ahead⟩

theorem untouched_unpack (h : p.unpack wanted c = .ok (bytes, next)) : c.Untouched next := by
  unfold unpack at h
  dsimp only at h
  split at h
  · cases hTaken : p.takeIn (wanted - c.tail) c with
    | error ending =>
      rw [hTaken] at h
      cases h
    | ok taken =>
      have hMid := untouched_takeIn hTaken
      rw [hTaken] at h
      dsimp only [bind, Except.bind] at h
      split at h
      · cases h
      · cases h
        exact ⟨hMid.left, hMid.ahead⟩
  · dsimp only [bind, Except.bind] at h
    split at h
    · cases h
    · cases h
      exact ⟨rfl, rfl⟩

theorem untouched_handOver {decompress : Decompressor Ending}
    (h : p.handOver decompress wanted c = .ok (bytes, next)) : c.Untouched next := by
  unfold handOver at h
  cases hTaken : p.takeIn wanted c with
  | error ending =>
    rw [hTaken] at h
    cases h
  | ok taken =>
    rw [hTaken] at h
    dsimp only [bind, Except.bind] at h
    split at h
    · cases h
    · cases h
      exact ⟨(untouched_takeIn hTaken).left, (untouched_takeIn hTaken).ahead⟩

theorem length_settle (h : p.settle bytes c = .ok (chunk, next)) :
    chunk.length + next.left = c.left ∧ next.ahead = c.ahead := by
  simp only [settle] at h
  split at h
  · cases h
  · cases h
    constructor
    · simp only [List.length_take]
      omega
    · rfl

theorem length_next (h : p.next wanted c = .ok (chunk, next)) :
    chunk.length + next.left = c.left ∧ next.ahead = c.ahead := by
  unfold Packed.next at h
  have hSettled : ∀ found : Except Ending (List UInt8 × Cursor),
      (∀ bytes mid, found = .ok (bytes, mid) → c.Untouched mid) →
      (found >>= fun x => p.settle x.1 x.2) = .ok (chunk, next) →
      chunk.length + next.left = c.left ∧ next.ahead = c.ahead := by
    intro found hFound hOk
    cases found with
    | error ending => cases hOk
    | ok x =>
      have hMid := hFound x.1 x.2 rfl
      obtain ⟨hLength, hAhead⟩ := length_settle (show p.settle x.1 x.2 = _ from hOk)
      exact ⟨hLength.trans hMid.left, hAhead.trans hMid.ahead⟩
  cases hMethod : p.method with
  | stored =>
    rw [hMethod] at h
    exact hSettled _ (fun _ _ => untouched_copyOut) h
  | deflated =>
    rw [hMethod] at h
    exact hSettled _ (fun _ _ => untouched_unpack) h
  | foreign decompress =>
    rw [hMethod] at h
    exact hSettled _ (fun _ _ => untouched_handOver) h

theorem length_fill {fuel : Nat} {start : List UInt8} (hAhead : c.ahead = [])
    (h : p.fill fuel wanted start c = .ok (chunk, next)) :
    chunk.length + next.remaining = start.length + c.left := by
  induction fuel generalizing wanted start c with
  | zero =>
    cases h
    simp [Cursor.remaining, hAhead]
  | succ fuel ih =>
    rw [fill] at h
    split at h
    · cases h
      simp [Cursor.remaining, hAhead]
    · cases hNext : p.next wanted c with
      | error ending =>
        rw [hNext] at h
        cases h
      | ok x =>
        obtain ⟨bytes, mid⟩ := x
        rw [hNext] at h
        obtain ⟨hLength, hMid⟩ := length_next hNext
        dsimp only [bind, Except.bind] at h
        split at h
        · rename_i hExcess
          cases h
          simp only [Cursor.remaining, List.length_append, List.length_take, List.length_drop]
          omega
        · have hRest := ih (hMid.trans hAhead) h
          rw [List.length_append] at hRest
          omega

theorem length_chunk (h : p.chunk c = .ok (chunk, next)) :
    chunk.length + next.remaining = c.remaining := by
  unfold Packed.chunk at h
  split at h
  · cases h
    simp only [Cursor.remaining, List.length_take, List.length_drop]
    omega
  · exact length_fill (c := { c with ahead := [] }) rfl h

theorem length_chunks_le (fuel : Nat) (c : Cursor) :
    (p.chunks fuel c).bytes.length ≤ c.remaining := by
  induction fuel generalizing c with
  | zero => exact Nat.zero_le _
  | succ fuel ih =>
    rw [chunks]
    split
    · exact Nat.zero_le _
    · exact Nat.zero_le _
    · rename_i chunk next _ hChunk
      have hStep := length_chunk hChunk
      have hRest := ih next
      simp only [Stream.bytes, List.flatten_cons, List.length_append] at hRest ⊢
      omega

theorem length_stream_le (p : Packed) : p.stream.bytes.length ≤ p.declared := by
  have hStart : p.start.remaining = p.declared := Nat.zero_add p.declared
  rw [← hStart]
  exact length_chunks_le (p.declared + 1) p.start

end Packed

/-! ## Entries -/

variable {codecs : Codecs}

theorem length_header_stream_le (h : Header) (bytes : Array UInt8) (carrier : Carrier) (limit : Int) :
    (h.stream codecs bytes carrier limit).bytes.length ≤ h.declared := by
  unfold Header.stream
  split
  · exact Nat.zero_le _
  · split
    · cases carrier <;> exact Nat.zero_le _
    · obtain ⟨ending, hRefused, -⟩ | ⟨packed, hFound, -, hDeclared⟩ :=
        packedAt_cases codecs h bytes h.offset.toNat limit
      · rw [hRefused]
        exact Nat.zero_le _
      · rw [hFound, ← hDeclared]
        exact packed.length_stream_le

def Entry.Bounded (e : Entry) : Prop :=
  e.stream.bytes.length ≤ e.declared

theorem bounded_entriesFrom (d : Directory) (bytes : Array UInt8) (carrier : Carrier)
    (earlier headers : List Header) : ∀ e ∈ d.entriesFrom codecs bytes carrier earlier headers, e.Bounded := by
  induction headers generalizing earlier with
  | nil =>
    intro e he
    cases he
  | cons h headers ih =>
    rw [Directory.entriesFrom]
    refine List.forall_mem_cons.mpr ⟨?_, ih (h :: earlier)⟩
    exact length_header_stream_le h bytes carrier (d.limit earlier h)

/-- The entries of an archive give no more bytes than they declare. -/
theorem bounded_of_mem_entries {bytes : List UInt8} {carrier : Carrier} {found : List Entry}
    (h : entries codecs bytes carrier = .ok found) : ∀ e ∈ found, e.Bounded := by
  unfold entries at h
  dsimp only at h
  cases hDirectory : directory bytes.toArray carrier with
  | error fault =>
    rw [hDirectory] at h
    cases h
  | ok d =>
    rw [hDirectory] at h
    cases h
    exact bounded_entriesFrom d bytes.toArray carrier [] d.headers

end WebAudit.Archive
