import Mathlib.Algebra.Order.Group.Nat
import Mathlib.Data.List.Nodup
import Mathlib.Data.Prod.Lex
import Mathlib.Data.String.Basic
import WebAudit.Proofs.Finding.Outline
import WebAudit.Proofs.Text.Words

/-!
# What a report keeps of its findings

The findings of a report are those that were found, in the stable order of their keys. Texts are compared
by code points in these keys, numbers by value. Nothing but ids is changed, and an id only where a finding
before has it; which new one is given follows from the number of these. The findings of some files, rules
and lines are reported alike whatever else was found, since no id of theirs is that of another place.
-/

namespace WebAudit

/-! ## Stable sorts -/

/-- The elements of the input in ascending order of their keys; those with the same key stand as they
stood in the input. -/
structure StableSort {α κ : Type} [LinearOrder κ] (key : α → κ) (input output : List α) : Prop where
  ascending : output.Pairwise fun a b => key a ≤ key b
  ties : ∀ k, output.filter (fun a => key a = k) = input.filter (fun a => key a = k)

namespace StableSort

variable {α κ : Type} [LinearOrder κ] {key : α → κ} {input output output' : List α}

theorem mem_iff (h : StableSort key input output) {a : α} : a ∈ output ↔ a ∈ input := by
  have hTies := h.ties (key a)
  constructor
  · intro ha
    have hKey : a ∈ output.filter (fun b => key b = key a) := List.mem_filter.mpr ⟨ha, by simp⟩
    rw [hTies] at hKey
    exact (List.mem_filter.mp hKey).1
  · intro ha
    have hKey : a ∈ input.filter (fun b => key b = key a) := List.mem_filter.mpr ⟨ha, by simp⟩
    rw [← hTies] at hKey
    exact (List.mem_filter.mp hKey).1

theorem head_le {a b : α} (h : StableSort key input (a :: output)) (hb : b ∈ input) :
    key a ≤ key b := by
  rcases List.mem_cons.mp (h.mem_iff.mpr hb) with rfl | hb
  · exact le_rfl
  · exact (List.pairwise_cons.mp h.ascending).1 b hb

/-- A list has one stable sort at most. -/
theorem unique (h : StableSort key input output) (h' : StableSort key input output') :
    output = output' := by
  induction output generalizing input output' with
  | nil =>
    cases output' with
    | nil => rfl
    | cons b bs => exact absurd (h.mem_iff.mpr (h'.mem_iff.mp List.mem_cons_self)) List.not_mem_nil
  | cons a as ih =>
    cases output' with
    | nil => exact absurd (h'.mem_iff.mpr (h.mem_iff.mp List.mem_cons_self)) List.not_mem_nil
    | cons b bs =>
      -- both heads have the least key, and then they are the first element with that key
      have hKey : key b = key a :=
        le_antisymm (h'.head_le (h.mem_iff.mp List.mem_cons_self))
          (h.head_le (h'.mem_iff.mp List.mem_cons_self))
      have hTies (k : κ) : (a :: as).filter (fun x => key x = k) = (b :: bs).filter (fun x => key x = k) :=
        (h.ties k).trans (h'.ties k).symm
      have hHeads := hTies (key a)
      rw [List.filter_cons_of_pos (by simp), List.filter_cons_of_pos (by simp [hKey])] at hHeads
      obtain ⟨rfl, -⟩ := List.cons.inj hHeads
      have hRest : StableSort key bs as := by
        refine ⟨(List.pairwise_cons.mp h.ascending).2, ?_⟩
        intro k
        have hk := hTies k
        by_cases ha : key a = k
        · rw [List.filter_cons_of_pos (by simp [ha]), List.filter_cons_of_pos (by simp [ha])] at hk
          exact (List.cons.inj hk).2
        · rwa [List.filter_cons_of_neg (by simp [ha]), List.filter_cons_of_neg (by simp [ha])] at hk
      rw [ih hRest ⟨(List.pairwise_cons.mp h'.ascending).2, fun _ => rfl⟩]

end StableSort

/-- A merge sort by a key is a stable sort. -/
theorem stableSort_mergeSort {α κ : Type} [LinearOrder κ] {key : α → κ} {le : α → α → Bool}
    (hLe : ∀ a b, le a b = true ↔ key a ≤ key b) (l : List α) : StableSort key l (l.mergeSort le) := by
  refine ⟨pairwise_mergeSort_of_key hLe l, ?_⟩
  intro k
  rw [filter_mergeSort (trans_of_key hLe) (total_of_key hLe)]
  apply List.mergeSort_of_pairwise
  apply List.pairwise_of_forall_mem_list
  intro a ha b hb
  have hKey : key a = key b := by
    have hak := (List.mem_filter.mp ha).2
    have hbk := (List.mem_filter.mp hb).2
    rw [decide_eq_true_eq] at hak hbk
    exact hak.trans hbk.symm
  exact (hLe a b).mpr hKey.le

/-! ## Keys by code points -/

def codePoints (s : String) : List Nat :=
  s.toList.map Char.toNat

theorem strictMono_codePoints : StrictMono codePoints := by
  intro s t h
  rw [String.lt_iff_toList_lt] at h
  exact List.map_lt (fun c d hLess => UInt32.lt_iff_toNat_lt.mp (Char.lt_def.mp hLess)) h

namespace Finding

/-- Path, line, column, rule and description; without a column as if in the column before the first. -/
def codePointKey (f : Finding) : List Nat ×ₗ Int ×ₗ Int ×ₗ List Nat ×ₗ List Nat :=
  toLex (codePoints f.path, toLex (f.line, toLex (f.column.getD (-1),
    toLex (codePoints f.ruleId, codePoints f.description))))

theorem le_iff_codePointKey (f g : Finding) : f.le g = true ↔ f.codePointKey ≤ g.codePointKey := by
  rw [le_iff]
  simp only [orderKey, codePointKey, columnKey, Prod.Lex.toLex_le_toLex, strictMono_codePoints.lt_iff_lt,
    strictMono_codePoints.le_iff_le, strictMono_codePoints.injective.eq_iff]

theorem codePointKey_withRank (f : Finding) (rank : Nat) :
    (f.withRank rank).codePointKey = f.codePointKey := by
  unfold withRank
  split <;> rfl

end Finding

/-! ## Ranks by position -/

/-- The finding at a place gets the rank that the ids in front of it give. -/
theorem getElem?_separateFrom (seen : List String) (front back : List Finding) (f : Finding) :
    (separateFrom seen (front ++ f :: back))[front.length]? =
      some (f.withRank (seen.count f.id + (front.map (·.id)).count f.id + 1)) := by
  induction front generalizing seen with
  | nil => simp [separateFrom]
  | cons g gs ih =>
    have hRank : (g.id :: seen).count f.id + (gs.map (·.id)).count f.id =
        seen.count f.id + ((g :: gs).map (·.id)).count f.id := by
      rw [List.map_cons, List.count_cons, List.count_cons]
      omega
    rw [List.cons_append, separateFrom, List.length_cons, List.getElem?_cons_succ, ih, hRank]

theorem pairwise_finalize (findings : List Finding) :
    (finalize findings).Pairwise fun f g => f.codePointKey ≤ g.codePointKey := by
  have hSorted := (stableSort_mergeSort Finding.le_iff_codePointKey findings).ascending
  rw [← map_fst_rankedFrom [] (findings.mergeSort Finding.le), List.pairwise_map] at hSorted
  rw [finalize_eq, List.pairwise_map]
  refine hSorted.imp ?_
  intro x y hLe
  rwa [Finding.codePointKey_withRank, Finding.codePointKey_withRank]

/-- A report is in order. It is the stable sort of what was found, each finding in its place and as it was,
except that one with the id of a finding before it gets another, made of its column and its rank. -/
theorem finalize_sorts_and_renames (findings : List Finding) :
    (finalize findings).Pairwise (fun f g => f.codePointKey ≤ g.codePointKey) ∧
    ∃ sorted, (∀ output, StableSort Finding.codePointKey findings output ↔ output = sorted) ∧
      (finalize findings).length = sorted.length ∧
      ∀ front f back, sorted = front ++ f :: back →
        (f.id ∉ front.map (·.id) → (finalize findings)[front.length]? = some f) ∧
        (f.id ∈ front.map (·.id) → (finalize findings)[front.length]? =
          some { f with
            id := Finding.makeId f.path f.ruleId f.line
              (f.columnText ++ ":" ++ toString ((front.map (·.id)).count f.id + 1)) }) := by
  have hSort := stableSort_mergeSort Finding.le_iff_codePointKey findings
  refine ⟨pairwise_finalize findings, findings.mergeSort Finding.le, ?_, ?_, ?_⟩
  · intro output
    constructor
    · intro h
      exact h.unique hSort
    · rintro rfl
      exact hSort
  · rw [length_finalize, List.length_mergeSort]
  · intro front f back hPlace
    have hAt : (finalize findings)[front.length]? =
        some (f.withRank ((front.map (·.id)).count f.id + 1)) := by
      rw [finalize, hPlace, getElem?_separateFrom, List.count_nil, Nat.zero_add]
    rw [hAt, Finding.withRank]
    constructor
    · intro hFirst
      rw [List.count_eq_zero.mpr hFirst, if_pos (Nat.le_refl 1)]
    · intro hLater
      have hPos := List.count_pos_iff.mpr hLater
      rw [if_neg (by omega)]
      rfl

def tiedFinding (title : String) (column : Option Int) : Finding :=
  { id := Finding.makeId "a.js" "eval" 3, ruleId := "eval", title, description := "",
    severity := .low, concern := .security, path := "a.js", line := 3, column }

def tiedFindings : List Finding :=
  [tiedFinding "early" (some 4), tiedFinding "whole" none, tiedFinding "late" (some 4)]

theorem stableSort_tiedFindings : StableSort Finding.codePointKey tiedFindings
    [tiedFinding "whole" none, tiedFinding "early" (some 4), tiedFinding "late" (some 4)] := by
  have hSorted : [tiedFinding "whole" none, tiedFinding "early" (some 4),
      tiedFinding "late" (some 4)].Pairwise fun f g => f.le g = true := by decide
  refine ⟨hSorted.imp fun h => (Finding.le_iff_codePointKey _ _).mp h, ?_⟩
  intro k
  have hTie : (tiedFinding "late" (some 4)).codePointKey = (tiedFinding "early" (some 4)).codePointKey := rfl
  have hNe : (tiedFinding "whole" none).codePointKey ≠ (tiedFinding "early" (some 4)).codePointKey := by
    decide
  simp only [tiedFindings, List.filter_cons, List.filter_nil, hTie]
  by_cases hEarly : (tiedFinding "early" (some 4)).codePointKey = k
  · simp [hEarly, hEarly ▸ hNe]
  · simp [hEarly]

/-- The finding without column comes first and keeps the id; of the two in one column the later one is the
third carrier. -/
theorem tiedFindings_sorted_and_renamed :
    (finalize tiedFindings)[0]? = some (tiedFinding "whole" none) ∧
    (finalize tiedFindings)[2]? =
      some { tiedFinding "late" (some 4) with id := Finding.makeId "a.js" "eval" 3 "4:3" } := by
  obtain ⟨-, sorted, hSorted, -, hAt⟩ := finalize_sorts_and_renames tiedFindings
  have hList := (hSorted _).mp stableSort_tiedFindings
  have hLater : (tiedFinding "late" (some 4)).id ∈
      [tiedFinding "whole" none, tiedFinding "early" (some 4)].map (·.id) := List.mem_cons_self
  have hCount : ([tiedFinding "whole" none, tiedFinding "early" (some 4)].map (·.id)).count
      (tiedFinding "late" (some 4)).id = 2 := by simp [tiedFinding]
  have hSalt : (tiedFinding "late" (some 4)).columnText ++ ":" ++ toString (2 + 1) = "4:3" := by decide
  have hThird := (hAt [_, _] _ [] hList.symm).2 hLater
  rw [hCount, hSalt] at hThird
  exact ⟨(hAt [] _ _ hList.symm).1 List.not_mem_nil, hThird⟩

/-! ## Ids of other places -/

namespace Finding

/-- Of a rule without the separator the key tells path, rule and line. -/
theorem key_inj {path path' ruleId ruleId' : String} {line line' : Int} (hRule : '\x00' ∉ ruleId.toList)
    (hRule' : '\x00' ∉ ruleId'.toList) (h : key path ruleId line "" = key path' ruleId' line' "") :
    path = path' ∧ ruleId = ruleId' ∧ line = line' := by
  have hChars := congrArg String.toList h
  rw [toList_key, toList_key] at hChars
  obtain ⟨hFront, hLine⟩ := append_cons_inj_of_notMem_right (separator_notMem_line line)
    (separator_notMem_line line') hChars
  obtain ⟨hPath, hRules⟩ := append_cons_inj_of_notMem_right hRule hRule' hFront
  exact ⟨String.toList_inj.mp hPath, String.toList_inj.mp hRules,
    toString_int_inj (String.toList_inj.mp hLine)⟩

/-- Whether the path, the rule and the line of a finding are among those meant. -/
def isAt (p : String → String → Int → Bool) (f : Finding) : Bool :=
  p f.path f.ruleId f.line

theorem isAt_withRank (p : String → String → Int → Bool) (f : Finding) (rank : Nat) :
    (f.withRank rank).isAt p = f.isAt p := by
  unfold withRank
  split <;> rfl

end Finding

/-- Findings under their first ids, of rules without the separator, where different keys have different
digests. -/
structure WellKeyed (findings : List Finding) : Prop where
  ids : ∀ f ∈ findings, f.HasFirstId
  rules : ∀ f ∈ findings, '\x00' ∉ f.ruleId.toList
  digests : Finding.DigestsDiffer (findings.map fun f => Finding.key f.path f.ruleId f.line "")

namespace WellKeyed

variable {findings : List Finding}

theorem of_subset {part : List Finding} (h : WellKeyed findings) (hPart : part ⊆ findings) :
    WellKeyed part where
  ids f hf := h.ids f (hPart hf)
  rules f hf := h.rules f (hPart hf)
  digests k hk k' hk' := h.digests k (List.map_subset _ hPart hk) k' (List.map_subset _ hPart hk')

theorem place_eq_of_id_eq (h : WellKeyed findings) {f g : Finding} (hf : f ∈ findings)
    (hg : g ∈ findings) (hId : f.id = g.id) : f.path = g.path ∧ f.ruleId = g.ruleId ∧ f.line = g.line := by
  rw [h.ids f hf, h.ids g hg] at hId
  obtain ⟨-, hDigest⟩ := Finding.append_digest_inj hId
  have hKey := h.digests _ (List.mem_map_of_mem hf) _ (List.mem_map_of_mem hg) hDigest
  exact Finding.key_inj (h.rules f hf) (h.rules g hg) hKey

theorem filter_finalize (h : WellKeyed findings) (p : String → String → Int → Bool) :
    (finalize findings).filter (Finding.isAt p) = finalize (findings.filter (Finding.isAt p)) := by
  apply WebAudit.filter_finalize (Finding.isAt_withRank p)
  intro f hf g hg hId
  obtain ⟨hPath, hRule, hLine⟩ := h.place_eq_of_id_eq hf hg hId
  rw [Finding.isAt, Finding.isAt, hPath, hRule, hLine]

end WellKeyed

/-- The report of some places is the part of the whole report about them. So it stays the same, ids and order
included, when findings of other places come or go. -/
theorem finalize_is_local {findings : List Finding} (h : WellKeyed findings)
    (p : String → String → Int → Bool) :
    finalize (findings.filter (Finding.isAt p)) = (finalize findings).filter (Finding.isAt p) ∧
    ∀ changed, WellKeyed changed →
      changed.filter (Finding.isAt p) = findings.filter (Finding.isAt p) →
      (finalize changed).filter (Finding.isAt p) = (finalize findings).filter (Finding.isAt p) := by
  refine ⟨(h.filter_finalize p).symm, ?_⟩
  intro changed hChanged hSame
  rw [hChanged.filter_finalize, h.filter_finalize, hSame]

def twoFiles : List Finding :=
  { id := Finding.makeId "b.js" "eval" 3, ruleId := "eval", title := "", description := "",
    severity := .low, concern := .security, path := "b.js", line := 3 } :: crowdedLine

theorem wellKeyed_twoFiles : WellKeyed twoFiles where
  ids := by
    refine List.forall_mem_cons.mpr ⟨rfl, ?_⟩
    intro f hf
    obtain ⟨_, -, rfl⟩ := List.mem_map.mp hf
    rfl
  rules := by decide
  digests := by
    have hOther : Finding.digest "b.js\x00eval\x003" = "337fb8a1d92b9ca4" := by decide +kernel
    have hNodup : (["b.js\x00eval\x003", "a.js\x00eval\x003"].map Finding.digest).Nodup := by
      simp only [List.map_cons, List.map_nil, digest_crowdedLine, hOther]
      decide
    have hKeys : (twoFiles.map fun f => Finding.key f.path f.ruleId f.line "") ⊆
        ["b.js\x00eval\x003", "a.js\x00eval\x003"] := by decide
    exact fun k hk k' hk' => List.inj_on_of_nodup_map hNodup (hKeys hk) (hKeys hk')

theorem twoFiles_is_local :
    WellKeyed twoFiles ∧ WellKeyed crowdedLine ∧
    finalize crowdedLine = (finalize twoFiles).filter (Finding.isAt fun path _ _ => path == "a.js") ∧
    (finalize crowdedLine).filter (Finding.isAt fun path _ _ => path == "a.js") =
      (finalize twoFiles).filter (Finding.isAt fun path _ _ => path == "a.js") := by
  have hRest : twoFiles.filter (Finding.isAt fun path _ _ => path == "a.js") = crowdedLine := rfl
  have hKept : crowdedLine.filter (Finding.isAt fun path _ _ => path == "a.js") = crowdedLine := rfl
  have hCrowded : WellKeyed crowdedLine := wellKeyed_twoFiles.of_subset (List.subset_cons_self _ _)
  obtain ⟨hPart, hChanged⟩ := finalize_is_local wellKeyed_twoFiles fun path _ _ => path == "a.js"
  rw [hRest] at hPart
  exact ⟨wellKeyed_twoFiles, hCrowded, hPart, hChanged crowdedLine hCrowded (hKept.trans hRest.symm)⟩

end WebAudit
