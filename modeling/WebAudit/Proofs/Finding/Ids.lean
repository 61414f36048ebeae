import Mathlib.Data.List.Nodup
import WebAudit.Finding.Order
import WebAudit.Proofs.Analysis.Rules
import WebAudit.Proofs.Text.Words

/-!
# Ids of findings

The key of an id joins path, rule and line, and the salt of a later carrier, by a separator. Neither a
line nor a salt contains it, and no line reads like a salt. So whatever path and rule are, the key tells
whether there is a salt, which rank it gives, and what the key without it is. As long as different keys of
a run have different digests, no two findings end under the same id.
-/

namespace WebAudit

/-- A text that is cut where a separator stands last is cut in one way only. -/
theorem append_cons_inj_of_notMem_right {α : Type} {sep : α} {front back front' back' : List α}
    (hBack : sep ∉ back) (hBack' : sep ∉ back')
    (h : front ++ sep :: back = front' ++ sep :: back') : front = front' ∧ back = back' := by
  rcases List.append_eq_append_iff.mp h with ⟨middle, rfl, hMiddle⟩ | ⟨middle, rfl, hMiddle⟩
  · cases middle with
    | nil => exact ⟨(List.append_nil front).symm, (List.cons.inj hMiddle).2⟩
    | cons x xs => exact absurd ((List.cons.inj hMiddle).2 ▸ by simp) hBack
  · cases middle with
    | nil => exact ⟨List.append_nil front', (List.cons.inj hMiddle).2.symm⟩
    | cons x xs => exact absurd ((List.cons.inj hMiddle).2 ▸ by simp) hBack'

namespace Finding

/-! ## Keys -/

def keyFront (path ruleId : String) : List Char :=
  path.toList ++ '\x00' :: ruleId.toList

theorem toList_key (path ruleId : String) (line : Int) :
    (key path ruleId line "").toList = keyFront path ruleId ++ '\x00' :: (toString line).toList := by
  simp [key, keyFront]

theorem toList_key_salted (path ruleId : String) (line : Int) {salt : String} (h : salt ≠ "") :
    (key path ruleId line salt).toList =
      (key path ruleId line "").toList ++ '\x00' :: salt.toList := by
  simp [key, h]

theorem separator_notMem_line (line : Int) : '\x00' ∉ (toString line).toList := fun h =>
  absurd (isDigit_of_mem_toString_int h (by decide)) (by decide)

def columnText (f : Finding) : String :=
  (f.column.map toString).getD ""

theorem toList_salt (f : Finding) (rank : Nat) :
    (f.salt rank).toList = f.columnText.toList ++ ':' :: (toString rank).toList := by
  simp [salt, columnText]

theorem salt_ne_empty (f : Finding) (rank : Nat) : f.salt rank ≠ "" := by
  intro h
  have hChars := congrArg String.toList h
  rw [toList_salt] at hChars
  simp at hChars

theorem separator_notMem_salt (f : Finding) (rank : Nat) : '\x00' ∉ (f.salt rank).toList := by
  rw [toList_salt, List.mem_append, List.mem_cons]
  rintro (h | h | h)
  · unfold columnText at h
    cases hColumn : f.column with
    | none => simp [hColumn] at h
    | some column =>
      rw [hColumn] at h
      exact separator_notMem_line column h
  · exact absurd h (by decide)
  · exact absurd (isDigit_of_mem_toString h) (by decide)

/-- The rank can be read off a salt. -/
theorem rank_eq_of_salt_eq {f g : Finding} {rank rank' : Nat} (h : f.salt rank = g.salt rank') :
    rank = rank' := by
  have hColon (n : Nat) : ':' ∉ (toString n).toList := fun h =>
    absurd (isDigit_of_mem_toString h) (by decide)
  have hChars := congrArg String.toList h
  rw [toList_salt, toList_salt] at hChars
  obtain ⟨-, hRank⟩ := append_cons_inj_of_notMem_right (hColon rank) (hColon rank') hChars
  rw [Nat.toString_eq_ofList_toDigits, Nat.toString_eq_ofList_toDigits, String.toList_ofList,
    String.toList_ofList] at hRank
  calc
    rank = Nat.ofDigitChars 10 (Nat.toDigits 10 rank) 0 := Nat.ofDigitChars_ten_toDigits.symm
    _ = Nat.ofDigitChars 10 (Nat.toDigits 10 rank') 0 := by rw [hRank]
    _ = rank' := Nat.ofDigitChars_ten_toDigits

/-- No line reads like a salt. -/
theorem toString_line_ne_salt (line : Int) (f : Finding) (rank : Nat) :
    toString line ≠ f.salt rank := by
  intro h
  have hColon : ':' ∈ (toString line).toList := by
    rw [h, toList_salt]
    simp
  exact absurd (isDigit_of_mem_toString_int hColon (by decide)) (by decide)

/-- The key behind the id of a finding with the given rank among the carriers of its first id. -/
def keyAt (f : Finding) (rank : Nat) : String :=
  key f.path f.ruleId f.line (if rank ≤ 1 then "" else f.salt rank)

theorem keyAt_first (f : Finding) {rank : Nat} (h : rank ≤ 1) :
    f.keyAt rank = key f.path f.ruleId f.line "" := by
  rw [keyAt, if_pos h]

theorem toList_keyAt (f : Finding) {rank : Nat} (h : 1 < rank) :
    (f.keyAt rank).toList = (f.keyAt 1).toList ++ '\x00' :: (f.salt rank).toList := by
  rw [keyAt, if_neg (by omega), toList_key_salted _ _ _ (f.salt_ne_empty rank),
    f.keyAt_first (Nat.le_refl 1)]

/-- A key without a salt is none with one. -/
theorem keyAt_ne_keyAt {f g : Finding} {rank rank' : Nat} (h : rank ≤ 1) (h' : 1 < rank') :
    f.keyAt rank ≠ g.keyAt rank' := by
  intro hKey
  have hChars := congrArg String.toList hKey
  rw [f.keyAt_first h, toList_key, g.toList_keyAt h'] at hChars
  obtain ⟨-, hLine⟩ := append_cons_inj_of_notMem_right (separator_notMem_line f.line)
    (g.separator_notMem_salt rank') hChars
  exact toString_line_ne_salt f.line g rank' (String.toList_inj.mp hLine)

/-- The key at a rank determines the rank and the key without salt. -/
theorem keyAt_inj {f g : Finding} {rank rank' : Nat} (hPos : 0 < rank) (hPos' : 0 < rank')
    (h : f.keyAt rank = g.keyAt rank') : f.keyAt 1 = g.keyAt 1 ∧ rank = rank' := by
  rcases Nat.lt_or_ge 1 rank with hLater | hFirst
  · rcases Nat.lt_or_ge 1 rank' with hLater' | hFirst'
    · have hChars := congrArg String.toList h
      rw [f.toList_keyAt hLater, g.toList_keyAt hLater'] at hChars
      obtain ⟨hKey, hSalt⟩ := append_cons_inj_of_notMem_right (f.separator_notMem_salt rank)
        (g.separator_notMem_salt rank') hChars
      exact ⟨String.toList_inj.mp hKey, rank_eq_of_salt_eq (String.toList_inj.mp hSalt)⟩
    · exact absurd h.symm (keyAt_ne_keyAt hFirst' hLater)
  · rcases Nat.lt_or_ge 1 rank' with hLater' | hFirst'
    · exact absurd h (keyAt_ne_keyAt hFirst hLater')
    · have hOne : rank = 1 := by omega
      have hOne' : rank' = 1 := by omega
      subst hOne hOne'
      exact ⟨h, rfl⟩

/-- The finding has the id that its path, rule and line make. -/
def HasFirstId (f : Finding) : Prop :=
  f.id = makeId f.path f.ruleId f.line

theorem HasFirstId.id_withRank {f : Finding} (h : f.HasFirstId) (rank : Nat) :
    (f.withRank rank).id = f.ruleId ++ "-" ++ digest (f.keyAt rank) := by
  unfold withRank keyAt
  split
  · exact h
  · rfl

end Finding

/-! ## Ranks -/

/-- Findings with their ranks among the carriers of their ids; `seen` are the ids before. -/
def rankedFrom (seen : List String) : List Finding → List (Finding × Nat)
  | [] => []
  | f :: fs => (f, seen.count f.id + 1) :: rankedFrom (f.id :: seen) fs

def ranked (findings : List Finding) : List (Finding × Nat) :=
  rankedFrom [] (findings.mergeSort Finding.le)

theorem separateFrom_eq (seen : List String) (findings : List Finding) :
    separateFrom seen findings = (rankedFrom seen findings).map fun x => x.1.withRank x.2 := by
  induction findings generalizing seen with
  | nil => rfl
  | cons f fs ih => rw [separateFrom, rankedFrom, List.map_cons, ih]

theorem finalize_eq (findings : List Finding) :
    finalize findings = (ranked findings).map fun x => x.1.withRank x.2 :=
  separateFrom_eq [] _

theorem map_fst_rankedFrom (seen : List String) (findings : List Finding) :
    (rankedFrom seen findings).map (·.1) = findings := by
  induction findings generalizing seen with
  | nil => rfl
  | cons f fs ih => rw [rankedFrom, List.map_cons, ih]

theorem mem_of_mem_ranked {findings : List Finding} {x : Finding × Nat}
    (h : x ∈ ranked findings) : x.1 ∈ findings := by
  have hMem := List.mem_map_of_mem (f := (·.1)) h
  rw [ranked, map_fst_rankedFrom] at hMem
  exact List.mem_mergeSort.mp hMem

/-- Ranks go on behind the carriers that were seen. -/
theorem count_lt_rank {seen : List String} {findings : List Finding} {x : Finding × Nat}
    (h : x ∈ rankedFrom seen findings) : seen.count x.1.id < x.2 := by
  induction findings generalizing seen with
  | nil => cases h
  | cons f fs ih =>
    rcases List.mem_cons.mp h with rfl | h
    · exact Nat.lt_succ_self _
    · exact Nat.lt_of_le_of_lt (List.count_le_count_cons) (ih h)

/-- No two carriers of an id have the same rank. -/
theorem nodup_rankedFrom (seen : List String) (findings : List Finding) :
    ((rankedFrom seen findings).map fun x => (x.1.id, x.2)).Nodup := by
  induction findings generalizing seen with
  | nil => exact List.nodup_nil
  | cons f fs ih =>
    rw [rankedFrom, List.map_cons]
    refine List.nodup_cons.mpr ⟨?_, ih (f.id :: seen)⟩
    intro hMem
    obtain ⟨⟨g, rank⟩, hg, hEq⟩ := List.mem_map.mp hMem
    obtain ⟨hId, rfl⟩ := Prod.mk.inj hEq
    have hLess := count_lt_rank hg
    dsimp only at hId hLess
    rw [hId, List.count_cons_self] at hLess
    exact Nat.lt_irrefl _ hLess

/-! ## Unique ids -/

/-- The keys whose digests go into ids: every finding is made with its first id, and later carriers get
another one. -/
def hashedKeys (findings : List Finding) : List String :=
  (ranked findings).flatMap fun x => [x.1.keyAt 1, x.1.keyAt x.2]

def Finding.DigestsDiffer (keys : List String) : Prop :=
  ∀ k ∈ keys, ∀ k' ∈ keys, digest k = digest k' → k = k'

/-- The ids of a run are unique, whatever paths and rules contain and however many findings share a
line. -/
theorem finalize_ids_nodup (findings : List Finding) (hIds : ∀ f ∈ findings, f.HasFirstId)
    (hDigests : Finding.DigestsDiffer (hashedKeys findings)) :
    ((finalize findings).map (·.id)).Nodup := by
  rw [finalize_eq, List.map_map]
  have hRanks := nodup_rankedFrom [] (findings.mergeSort Finding.le)
  refine List.Nodup.map_on ?_ hRanks.of_map
  rintro ⟨f, rank⟩ hx ⟨g, rank'⟩ hy hId
  have hf := hIds f (mem_of_mem_ranked hx)
  have hg := hIds g (mem_of_mem_ranked hy)
  dsimp only [Function.comp] at hId
  rw [hf.id_withRank, hg.id_withRank] at hId
  obtain ⟨hRule, hDigest⟩ := Finding.append_digest_inj hId
  have hKey : f.keyAt rank = g.keyAt rank' :=
    hDigests _ (List.mem_flatMap.mpr ⟨_, hx, by simp⟩) _ (List.mem_flatMap.mpr ⟨_, hy, by simp⟩)
      hDigest
  obtain ⟨hFirst, rfl⟩ := Finding.keyAt_inj (Nat.zero_lt_of_lt (count_lt_rank hx))
    (Nat.zero_lt_of_lt (count_lt_rank hy)) hKey
  -- both carry the same id and have the same rank, so they are one entry of the list
  have hSame : f.id = g.id := by
    have hf' := hf.id_withRank 1
    have hg' := hg.id_withRank 1
    rw [hFirst, hRule] at hf'
    exact hf'.trans hg'.symm
  exact List.inj_on_of_nodup_map hRanks hx hy (Prod.ext hSame rfl)

/-- Three findings of one rule on one line, two of them in the same column. -/
def crowdedLine : List Finding :=
  [none, some 4, some 4].map fun column =>
    { id := Finding.makeId "a.js" "eval" 3, ruleId := "eval", title := "", description := "",
      severity := .low, concern := .security, path := "a.js", line := 3, column }

def crowdedKeys : List String :=
  ["a.js\x00eval\x003", "a.js\x00eval\x003\x004:2", "a.js\x00eval\x003\x004:3"]

theorem digest_crowdedLine : Finding.digest "a.js\x00eval\x003" = "3346da6c7512520f" := by
  decide +kernel

theorem nodup_digests_crowdedKeys : (crowdedKeys.map Finding.digest).Nodup := by
  have hSecond : Finding.digest "a.js\x00eval\x003\x004:2" = "672a4b9b864da179" := by decide +kernel
  have hThird : Finding.digest "a.js\x00eval\x003\x004:3" = "f21c514e06922a64" := by decide +kernel
  simp only [crowdedKeys, List.map_cons, List.map_nil, digest_crowdedLine, hSecond, hThird]
  decide

theorem hashedKeys_crowdedLine : hashedKeys crowdedLine ⊆ crowdedKeys := by
  have hSorted : crowdedLine.mergeSort Finding.le = crowdedLine :=
    List.mergeSort_of_pairwise (by decide)
  rw [hashedKeys, ranked, hSorted]
  -- the ranks follow from equal ids, without a look at their digests
  simp only [crowdedLine, List.map_cons, List.map_nil, rankedFrom, List.count_cons_self,
    List.count_nil]
  decide +kernel

theorem crowdedLine_ids_nodup :
    (∀ f ∈ crowdedLine, f.HasFirstId) ∧ Finding.DigestsDiffer (hashedKeys crowdedLine) ∧
      ((finalize crowdedLine).map (·.id)).Nodup := by
  have hIds : ∀ f ∈ crowdedLine, f.HasFirstId := by
    intro f hf
    obtain ⟨_, -, rfl⟩ := List.mem_map.mp hf
    rfl
  have hDigests : Finding.DigestsDiffer (hashedKeys crowdedLine) := fun k hk k' hk' =>
    List.inj_on_of_nodup_map nodup_digests_crowdedKeys (hashedKeys_crowdedLine hk) (hashedKeys_crowdedLine hk')
  exact ⟨hIds, hDigests, finalize_ids_nodup crowdedLine hIds hDigests⟩

end WebAudit
