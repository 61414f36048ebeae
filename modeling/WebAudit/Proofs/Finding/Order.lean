import Mathlib.Data.Prod.Lex
import Mathlib.Data.String.Basic
import WebAudit.Finding.Order

/-!
# Sorted tags and sorted findings

Sorted tags ascend strictly, so none occurs twice. Findings are compared by one key, hence their order
is total and their sort is stable. Such a sort commutes with leaving elements out; the ids that are
given afterwards do so too, as long as an id does not tell apart what is kept and what is left out.
-/

namespace WebAudit

/-! ## Tags -/

theorem mem_insertTag {x tag : String} {tags : List String} :
    x ∈ insertTag tag tags ↔ x = tag ∨ x ∈ tags := by
  induction tags with
  | nil => simp [insertTag]
  | cons t ts ih =>
    rw [insertTag]
    split
    · rw [List.mem_cons]
    · split
      · rename_i hEq
        subst hEq
        simp
      · rw [List.mem_cons, ih, List.mem_cons]
        exact or_left_comm

@[simp]
theorem mem_sortTags {x : String} {tags : List String} : x ∈ sortTags tags ↔ x ∈ tags := by
  induction tags with
  | nil => simp [sortTags]
  | cons t ts ih =>
    rw [sortTags, List.foldr_cons, mem_insertTag, List.mem_cons]
    exact or_congr_right ih

theorem pairwise_insertTag {tag : String} {tags : List String} (h : tags.Pairwise (· < ·)) :
    (insertTag tag tags).Pairwise (· < ·) := by
  induction tags with
  | nil => simp [insertTag]
  | cons t ts ih =>
    obtain ⟨hHead, hTail⟩ := List.pairwise_cons.mp h
    rw [insertTag]
    split
    · rename_i hLess
      refine List.pairwise_cons.mpr ⟨?_, h⟩
      intro x hx
      rcases List.mem_cons.mp hx with rfl | hx
      · exact hLess
      · exact hLess.trans (hHead x hx)
    · rename_i hNotLess
      split
      · exact h
      · rename_i hNe
        refine List.pairwise_cons.mpr ⟨?_, ih hTail⟩
        intro x hx
        rcases mem_insertTag.mp hx with rfl | hx
        · exact lt_of_le_of_ne (not_lt.mp hNotLess) (Ne.symm hNe)
        · exact hHead x hx

theorem pairwise_sortTags (tags : List String) : (sortTags tags).Pairwise (· < ·) := by
  induction tags with
  | nil => exact List.Pairwise.nil
  | cons t ts ih => exact pairwise_insertTag ih

theorem nodup_sortTags (tags : List String) : (sortTags tags).Nodup :=
  (pairwise_sortTags tags).imp fun h => ne_of_lt h

/-- Only which tags there are decides what they are sorted to. -/
theorem sortTags_congr {tags tags' : List String} (h : ∀ x, x ∈ tags ↔ x ∈ tags') :
    sortTags tags = sortTags tags' := by
  have hPerm : (sortTags tags).Perm (sortTags tags') := by
    rw [List.perm_ext_iff_of_nodup (nodup_sortTags tags) (nodup_sortTags tags')]
    intro x
    rw [mem_sortTags, mem_sortTags, h]
  exact hPerm.eq_of_pairwise (fun _ _ _ _ hLess hLess' => absurd hLess' (lt_asymm hLess))
    (pairwise_sortTags tags) (pairwise_sortTags tags')

/-! ## Stable sorting -/

section Sorting

variable {α : Type} {le : α → α → Bool}

/-- A new first element goes in front of the elements that it may stand before. -/
theorem mergeSort_cons_eq (hTrans : ∀ a b c, le a b → le b c → le a c)
    (hTotal : ∀ a b, le a b || le b a) (a : α) (l : List α) :
    (a :: l).mergeSort le =
      (l.mergeSort le).filter (fun b => !le a b) ++ a :: (l.mergeSort le).filter (le a) := by
  obtain ⟨front, back, hCons, hTail, hFront⟩ := List.mergeSort_cons hTrans hTotal a l
  have hSorted := List.pairwise_mergeSort hTrans hTotal (a :: l)
  rw [hCons] at hSorted
  have hBack : ∀ b ∈ back, le a b = true :=
    (List.pairwise_cons.mp (List.pairwise_append.mp hSorted).2.1).1
  have hFrontEq : (front ++ back).filter (fun b => !le a b) = front := by
    rw [List.filter_append, List.filter_eq_self.mpr hFront, List.filter_eq_nil_iff.mpr,
      List.append_nil]
    intro b hb
    simp [hBack b hb]
  have hBackEq : (front ++ back).filter (le a) = back := by
    rw [List.filter_append, List.filter_eq_self.mpr hBack, List.filter_eq_nil_iff.mpr,
      List.nil_append]
    intro b hb
    simpa using hFront b hb
  rw [hCons, hTail, hFrontEq, hBackEq]

theorem filter_mergeSort (hTrans : ∀ a b c, le a b → le b c → le a c)
    (hTotal : ∀ a b, le a b || le b a) (p : α → Bool) (l : List α) :
    (l.mergeSort le).filter p = (l.filter p).mergeSort le := by
  induction l with
  | nil => simp
  | cons a l ih =>
    by_cases hp : p a = true
    · have hSwap (q : α → Bool) :
          ((l.mergeSort le).filter q).filter p = ((l.filter p).mergeSort le).filter q := by
        rw [← ih, List.filter_filter, List.filter_filter]
        simp only [Bool.and_comm]
      rw [mergeSort_cons_eq hTrans hTotal, List.filter_append, List.filter_cons_of_pos hp, hSwap,
        hSwap, List.filter_cons_of_pos hp, mergeSort_cons_eq hTrans hTotal]
    · obtain ⟨front, back, hCons, hTail, _⟩ := List.mergeSort_cons hTrans hTotal a l
      rw [hCons, List.filter_append, List.filter_cons_of_neg hp, ← List.filter_append, ← hTail, ih,
        List.filter_cons_of_neg hp]

/-! A comparison by a key is one to sort by. -/

variable {κ : Type} [LinearOrder κ] {key : α → κ}

/-- A comparison that goes on to the next component where two agree. -/
theorem ite_ne_eq_true_iff {a b : κ} {next : Bool} :
    (if a ≠ b then decide (a < b) else next) = true ↔ a < b ∨ a = b ∧ next = true := by
  by_cases h : a = b
  · simp [h]
  · simp [h]

theorem trans_of_key (hLe : ∀ a b, le a b = true ↔ key a ≤ key b) (a b c : α) (hab : le a b = true)
    (hbc : le b c = true) : le a c = true := by
  rw [hLe] at *
  exact hab.trans hbc

theorem total_of_key (hLe : ∀ a b, le a b = true ↔ key a ≤ key b) (a b : α) :
    (le a b || le b a) = true := by
  rw [Bool.or_eq_true, hLe, hLe]
  exact le_total (key a) (key b)

theorem pairwise_mergeSort_of_key (hLe : ∀ a b, le a b = true ↔ key a ≤ key b) (l : List α) :
    (l.mergeSort le).Pairwise fun a b => key a ≤ key b := by
  refine (List.pairwise_mergeSort (trans_of_key hLe) (total_of_key hLe) l).imp ?_
  intro a b h
  exact (hLe a b).mp h

end Sorting

/-! ## The key of a finding -/

namespace Finding

def orderKey (f : Finding) : String ×ₗ Int ×ₗ Int ×ₗ String ×ₗ String :=
  toLex (f.path, toLex (f.line, toLex (f.columnKey, toLex (f.ruleId, f.description))))

theorem le_iff (f g : Finding) : f.le g = true ↔ f.orderKey ≤ g.orderKey := by
  unfold le
  simp only [ite_ne_eq_true_iff, orderKey, Prod.Lex.toLex_le_toLex, decide_eq_true_eq]

end Finding

/-! ## Ids -/

/-- Where `seen` and `kept` agree on the ids of what is kept, leaving elements out comes to the same
before and after ids are given. -/
theorem filter_separateFrom {p : Finding → Bool} (hRank : ∀ f rank, p (f.withRank rank) = p f)
    {findings : List Finding} (hId : ∀ f ∈ findings, ∀ g ∈ findings, f.id = g.id → p f = p g)
    {seen kept : List String}
    (hSeen : ∀ f ∈ findings, p f = true → seen.count f.id = kept.count f.id) :
    (separateFrom seen findings).filter p = separateFrom kept (findings.filter p) := by
  induction findings generalizing seen kept with
  | nil => rfl
  | cons f fs ih =>
    have hIdTail : ∀ g ∈ fs, ∀ h ∈ fs, g.id = h.id → p g = p h := fun g hg h hh =>
      hId g (List.mem_cons_of_mem f hg) h (List.mem_cons_of_mem f hh)
    rw [separateFrom, List.filter_cons, hRank, List.filter_cons]
    by_cases hp : p f = true
    · have hTail : ∀ g ∈ fs, p g = true → (f.id :: seen).count g.id = (f.id :: kept).count g.id := by
        intro g hg hpg
        rw [List.count_cons, List.count_cons, hSeen g (List.mem_cons_of_mem f hg) hpg]
      rw [if_pos hp, if_pos hp, separateFrom, hSeen f List.mem_cons_self hp, ih hIdTail hTail]
    · have hTail : ∀ g ∈ fs, p g = true → (f.id :: seen).count g.id = kept.count g.id := by
        intro g hg hpg
        have hNe : f.id ≠ g.id := fun hEq =>
          hp ((hId f List.mem_cons_self g (List.mem_cons_of_mem f hg) hEq).trans hpg)
        rw [List.count_cons_of_ne hNe, hSeen g (List.mem_cons_of_mem f hg) hpg]
      rw [if_neg hp, if_neg hp, ih hIdTail hTail]

/-- What is left out by a property that an id determines does not change the ids of the rest. -/
theorem filter_finalize {p : Finding → Bool} (hRank : ∀ f rank, p (f.withRank rank) = p f)
    {findings : List Finding} (hId : ∀ f ∈ findings, ∀ g ∈ findings, f.id = g.id → p f = p g) :
    (finalize findings).filter p = finalize (findings.filter p) := by
  rw [finalize, finalize, ← filter_mergeSort (trans_of_key Finding.le_iff) (total_of_key Finding.le_iff)]
  apply filter_separateFrom hRank
  · intro f hf g hg
    exact hId f (List.mem_mergeSort.mp hf) g (List.mem_mergeSort.mp hg)
  · intro _ _ _
    rfl

end WebAudit
