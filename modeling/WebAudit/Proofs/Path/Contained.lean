import WebAudit.Path.Normal
import WebAudit.Proofs.Text.Pieces

/-!
# Names that stay inside

In the normal form of a path no component is empty or a single dot, and the pairs of dots all come first: a
pair takes the name before it away, so it stays only where no name is left. Hence a path that neither starts
with a slash nor with a pair of dots never climbs at all, and whether a path climbs anywhere on its way can be
seen from the start of its normal form.
-/

namespace WebAudit.Path

/-- The path leads down from the place it is relative to, on every system. -/
structure Contained (path : List Char) : Prop where
  relative : path.head? ≠ some '/'
  named : ∀ c ∈ components path, c ≠ [] ∧ c ≠ ['.'] ∧ c ≠ up
  undriven : ∀ c, (components path).head? = some c → ':' ∉ c
  slashed : '\\' ∉ path

/-! ## Components -/

theorem slash_notMem_of_mem_components {path : List Char} {c : Component} (h : c ∈ components path) :
    '/' ∉ c :=
  Text.separator_notMem_of_mem_cutAtFrom List.not_mem_nil h

theorem mem_of_mem_components {path : List Char} {c : Component} {x : Char} (h : c ∈ components path)
    (hx : x ∈ c) : x ∈ path := by
  rcases Text.mem_or_mem_of_mem_cutAtFrom h hx with hNil | hMem
  · exact absurd hNil List.not_mem_nil
  · exact hMem

theorem head?_components (path : List Char) :
    (components path).head? = some (path.takeWhile (· != '/')) :=
  Text.head?_cutAtFrom '/' [] path

theorem components_intercalate {cs : List Component} (h : ∀ c ∈ cs, '/' ∉ c) (hNe : cs ≠ []) :
    components (['/'].intercalate cs) = cs :=
  Text.cutAtFrom_intercalate h hNe

theorem mem_intercalate {cs : List Component} {x : Char} (h : x ∈ ['/'].intercalate cs) :
    x = '/' ∨ ∃ c ∈ cs, x ∈ c := by
  induction cs with
  | nil => simp at h
  | cons c cs ih =>
    by_cases hNil : cs = []
    · subst hNil
      exact .inr ⟨c, List.mem_cons_self, by simpa using h⟩
    · rw [List.intercalate_cons_of_ne_nil hNil, List.append_assoc, List.mem_append] at h
      rcases h with h | h
      · exact .inr ⟨c, List.mem_cons_self, h⟩
      · rcases List.mem_cons.mp h with rfl | h
        · exact .inl rfl
        · rcases ih h with h | ⟨d, hd, h⟩
          · exact .inl h
          · exact .inr ⟨d, List.mem_cons_of_mem c hd, h⟩

/-! ## The stack of components -/

/-- Names stand on top of pairs of dots, the latest first. -/
def Descends (stack : List Component) : Prop :=
  ∃ names count, stack = names ++ List.replicate count up ∧
    ∀ c ∈ names, c ≠ [] ∧ c ≠ ['.'] ∧ c ≠ up

theorem Descends.push {stack : List Component} (h : Descends stack) (absolute : Bool) (c : Component) :
    Descends (push absolute stack c) := by
  obtain ⟨names, count, rfl, hNames⟩ := h
  unfold Path.push
  split
  · exact ⟨names, count, rfl, hNames⟩
  · rename_i hIdle
    simp only [Bool.or_eq_true, decide_eq_true_eq, not_or] at hIdle
    split
    · cases names with
      | nil =>
        cases count with
        | zero =>
          cases absolute with
          | true => exact ⟨[], 0, rfl, hNames⟩
          | false => exact ⟨[], 1, rfl, hNames⟩
        | succ count => exact ⟨[], count + 2, rfl, hNames⟩
      | cons name names =>
        obtain ⟨hName, hRest⟩ := List.forall_mem_cons.mp hNames
        rw [List.cons_append]
        dsimp only
        rw [if_neg hName.2.2]
        exact ⟨names, count, rfl, hRest⟩
    · rename_i hUp
      refine ⟨c :: names, count, rfl, List.forall_mem_cons.mpr ⟨⟨hIdle.1, hIdle.2, hUp⟩, hNames⟩⟩

theorem Descends.foldl_push {stack : List Component} (h : Descends stack) (absolute : Bool)
    (cs : List Component) : Descends (cs.foldl (Path.push absolute) stack) := by
  induction cs generalizing stack with
  | nil => exact h
  | cons c cs ih => exact ih (h.push absolute c)

theorem mem_push {absolute : Bool} {stack : List Component} {c d : Component}
    (h : d ∈ push absolute stack c) : d ∈ stack ∨ d = c := by
  unfold push at h
  split at h
  · exact .inl h
  · split at h
    · rename_i hUp
      split at h
      · split at h
        · exact .inl h
        · exact .inr ((List.mem_singleton.mp h).trans hUp.symm)
      · split at h
        · rcases List.mem_cons.mp h with rfl | h
          · exact .inr hUp.symm
          · exact .inl h
        · exact .inl (List.mem_cons_of_mem _ h)
    · rcases List.mem_cons.mp h with rfl | h
      · exact .inr rfl
      · exact .inl h

theorem mem_foldl_push {absolute : Bool} {stack cs : List Component} {d : Component}
    (h : d ∈ cs.foldl (push absolute) stack) : d ∈ stack ∨ d ∈ cs := by
  induction cs generalizing stack with
  | nil => exact .inl h
  | cons c cs ih =>
    rcases ih h with hPush | hMem
    · rcases mem_push hPush with hMem | rfl
      · exact .inl hMem
      · exact .inr List.mem_cons_self
    · exact .inr (List.mem_cons_of_mem c hMem)

/-! ## Normal form -/

theorem mem_components_of_mem_normalComponents {path : List Char} {c : Component}
    (h : c ∈ normalComponents path) : c ∈ components path := by
  rcases mem_foldl_push (List.mem_reverse.mp h) with hNil | hMem
  · exact absurd hNil List.not_mem_nil
  · exact hMem

/-- Pairs of dots come first in the normal form, and names follow. -/
theorem normalComponents_eq (path : List Char) :
    ∃ count names, normalComponents path = List.replicate count up ++ names ∧
      ∀ c ∈ names, c ≠ [] ∧ c ≠ ['.'] ∧ c ≠ up := by
  have hStart : Descends [] := ⟨[], 0, rfl, by simp⟩
  obtain ⟨names, count, hStack, hNames⟩ :=
    hStart.foldl_push (!(rootOf path).isEmpty) (components path)
  refine ⟨count, names.reverse, ?_, fun c hc => hNames c (List.mem_reverse.mp hc)⟩
  rw [normalComponents, hStack, List.reverse_append, List.reverse_replicate]

theorem head?_normalize_of_root {path : List Char} (h : rootOf path ≠ []) :
    (normalize path).head? = some '/' := by
  have hRoot : ∃ rest, rootOf path = '/' :: rest := by
    unfold rootOf at h ⊢
    split at h
    · exact absurd rfl h
    · exact ⟨['/'], rfl⟩
    · exact ⟨[], rfl⟩
  obtain ⟨rest, hRoot⟩ := hRoot
  unfold normalize
  rw [hRoot]
  rfl

theorem nil_notMem_normalComponents (path : List Char) : [] ∉ normalComponents path := by
  obtain ⟨count, names, hNormal, hNames⟩ := normalComponents_eq path
  rw [hNormal]
  intro hMem
  rcases List.mem_append.mp hMem with hMem | hMem
  · exact absurd (List.eq_of_mem_replicate hMem) (by decide)
  · exact (hNames [] hMem).1 rfl

/-- A relative path of which nothing is left is a dot; else its components in normal form are those left. -/
theorem normalize_relative {path : List Char} (hRoot : rootOf path = []) :
    (normalComponents path = [] ∧ normalize path = ['.']) ∨
      (normalComponents path ≠ [] ∧ components (normalize path) = normalComponents path) := by
  have hSlash : ∀ c ∈ normalComponents path, '/' ∉ c := fun c hc =>
    slash_notMem_of_mem_components (mem_components_of_mem_normalComponents hc)
  unfold normalize
  rw [hRoot, List.nil_append]
  by_cases hNone : normalComponents path = []
  · rw [hNone]
    exact .inl ⟨rfl, rfl⟩
  · have hParts := components_intercalate hSlash hNone
    refine .inr ⟨hNone, ?_⟩
    split
    · rename_i hText
      rw [hText] at hParts
      exact absurd (hParts ▸ List.mem_singleton.mpr rfl) (nil_notMem_normalComponents path)
    · exact hParts

theorem components_normalize {path : List Char} (hRoot : rootOf path = [])
    (hNe : normalize path ≠ ['.']) : components (normalize path) = normalComponents path := by
  rcases normalize_relative hRoot with ⟨-, hDot⟩ | ⟨-, hParts⟩
  · exact absurd hDot hNe
  · exact hParts

theorem mem_normalize {path : List Char} {x : Char} (h : x ∈ normalize path) :
    x = '/' ∨ x = '.' ∨ x ∈ path := by
  have hText : ∀ x ∈ rootOf path ++ ['/'].intercalate (normalComponents path), x = '/' ∨ x ∈ path := by
    intro x hx
    rcases List.mem_append.mp hx with hx | hx
    · unfold rootOf at hx
      split at hx <;> simp_all
    · rcases mem_intercalate hx with hx | ⟨c, hc, hx⟩
      · exact .inl hx
      · exact .inr (mem_of_mem_components (mem_components_of_mem_normalComponents hc) hx)
  unfold normalize at h
  split at h
  · exact .inr (.inl (List.mem_singleton.mp h))
  · rcases hText x h with hx | hx
    · exact .inl hx
    · exact .inr (.inr hx)

theorem backslash_notMem_withSlashes (path : List Char) : '\\' ∉ withSlashes path := by
  intro h
  obtain ⟨x, -, hx⟩ := List.mem_map.mp h
  split at hx
  · exact absurd hx (by decide)
  · rename_i hNe
    exact hNe (by simp [hx])

/-- A name that does not lead out at its start never does, unless nothing of it is left. -/
theorem contained_normalName {name : String} (hInside : escapes name = false)
    (hNamed : normalName name ≠ ['.']) : Contained (normalName name) := by
  unfold escapes at hInside
  simp only [Bool.or_eq_false_iff, beq_eq_false_iff_ne, ne_eq] at hInside
  obtain ⟨⟨hUp, hHead⟩, hDrive⟩ := hInside
  have hRoot : rootOf (withSlashes name.toList) = [] := by
    by_cases hRoot : rootOf (withSlashes name.toList) = []
    · exact hRoot
    · exact absurd (head?_normalize_of_root hRoot) hHead
  have hComponents : components (normalName name) = normalComponents (withSlashes name.toList) :=
    components_normalize hRoot hNamed
  obtain ⟨count, names, hNormal, hNames⟩ := normalComponents_eq (withSlashes name.toList)
  have hFirst := head?_components (normalName name)
  -- the first component is no pair of dots, so there is none
  have hCount : count = 0 := by
    cases count with
    | zero => rfl
    | succ count =>
      rw [hComponents, hNormal, List.replicate_succ, List.cons_append, List.head?_cons] at hFirst
      exact absurd (Option.some.inj hFirst).symm hUp
  refine ⟨hHead, ?_, ?_, ?_⟩
  · rw [hComponents, hNormal, hCount]
    exact hNames
  · intro c hc
    rw [hFirst] at hc
    rw [← Option.some.inj hc]
    simpa using hDrive
  · intro hMem
    rcases mem_normalize hMem with hx | hx | hx
    · exact absurd hx (by decide)
    · exact absurd hx (by decide)
    · exact backslash_notMem_withSlashes _ hx

/-! ## Climbing -/

/-- Some first part of the way has more pairs of dots in it than names. -/
def Climbs (way : List Component) : Prop :=
  ∃ part, part <+: way ∧ part.countP (· ≠ up) < part.count up

/-- Empty components and single dots change nothing. -/
theorem foldl_push_components (absolute : Bool) (path : List Char) (stack : List Component) :
    (components path).foldl (push absolute) stack =
      (tidyComponents path).foldl (push absolute) stack := by
  rw [tidyComponents, List.foldl_filter]
  congr 1
  funext stack c
  unfold push
  split <;> simp_all

theorem exists_prefix_cons_iff {c : Component} {way : List Component} {holds : List Component → Prop}
    (hNil : ¬ holds []) :
    (∃ part, part <+: c :: way ∧ holds part) ↔ ∃ part, part <+: way ∧ holds (c :: part) := by
  constructor
  · rintro ⟨part, hPart, hHolds⟩
    rcases List.prefix_cons_iff.mp hPart with rfl | ⟨rest, rfl, hRest⟩
    · exact absurd hHolds hNil
    · exact ⟨rest, hRest, hHolds⟩
  · rintro ⟨part, hPart, hHolds⟩
    exact ⟨c :: part, (List.prefix_cons_inj c).mpr hPart, hHolds⟩

/-- A pair of dots is left over just if one was there, or the way climbs higher than the names go down. -/
theorem up_mem_foldl_push_iff {names way : List Component} {count : Nat} (hNames : ∀ c ∈ names, c ≠ up)
    (hWay : ∀ c ∈ way, c ≠ [] ∧ c ≠ ['.']) :
    up ∈ way.foldl (push false) (names ++ List.replicate count up) ↔
      0 < count ∨ ∃ part, part <+: way ∧ names.length + part.countP (· ≠ up) < part.count up := by
  induction way generalizing names count with
  | nil =>
    have hUp : up ∉ names := fun hMem => hNames up hMem rfl
    simp [hUp, Nat.pos_iff_ne_zero]
  | cons c way ih =>
    obtain ⟨⟨hNil, hDot⟩, hRest⟩ := List.forall_mem_cons.mp hWay
    rw [List.foldl_cons, exists_prefix_cons_iff (by simp)]
    by_cases hUp : c = up
    · subst hUp
      cases names with
      | nil =>
        have hPush : push false ([] ++ List.replicate count up) up = [] ++ List.replicate (count + 1) up := by
          cases count <;> simp [push, up, List.replicate_succ]
        rw [hPush, ih (by simp) hRest]
        exact iff_of_true (.inl (Nat.succ_pos count)) (.inr ⟨[], List.nil_prefix, by simp⟩)
      | cons name names =>
        obtain ⟨hName, hNames⟩ := List.forall_mem_cons.mp hNames
        have hPush : push false (name :: names ++ List.replicate count up) up =
            names ++ List.replicate count up := by
          simp [push, hNil, hDot, hName]
        rw [hPush, ih hNames hRest]
        -- the pair of dots takes one name away, so both sides of the comparison lose one
        simp [Nat.add_right_comm _ 1]
    · have hPush : push false (names ++ List.replicate count up) c =
          c :: names ++ List.replicate count up := by
        simp [push, hNil, hDot, hUp]
      have hNamed : ∀ d ∈ c :: names, d ≠ up := List.forall_mem_cons.mpr ⟨hUp, hNames⟩
      rw [hPush, ih hNamed hRest]
      simp [hUp, Nat.add_assoc, Nat.add_comm 1]

theorem tidy_of_mem_tidyComponents {path : List Char} {c : Component} (h : c ∈ tidyComponents path) :
    c ≠ [] ∧ c ≠ ['.'] := by
  simpa using (List.mem_filter.mp h).2

/-- A relative path leaves a pair of dots in its normal form just if it climbs. -/
theorem up_mem_normalComponents_iff {path : List Char} (hRoot : rootOf path = []) :
    up ∈ normalComponents path ↔ Climbs (tidyComponents path) := by
  have hStart : ([] : List Component) = [] ++ List.replicate 0 up := rfl
  rw [normalComponents, List.mem_reverse, hRoot, foldl_push_components, hStart]
  simp only [List.isEmpty_nil, Bool.not_true]
  rw [up_mem_foldl_push_iff (by simp) fun c hc => tidy_of_mem_tidyComponents hc]
  simp [Climbs]

theorem head?_normalize_of_relative {path : List Char} (hRoot : rootOf path = []) :
    (normalize path).head? ≠ some '/' := by
  intro hHead
  have hFirst := head?_components (normalize path)
  rw [List.head?_eq_some_iff] at hHead
  obtain ⟨rest, hText⟩ := hHead
  rcases normalize_relative hRoot with ⟨-, hDot⟩ | ⟨-, hParts⟩
  · rw [hText] at hDot
    cases hDot
  · rw [hParts, hText] at hFirst
    exact nil_notMem_normalComponents path (List.mem_of_head? hFirst)

/-- A relative path starts with a pair of dots in normal form just if one is left in it. -/
theorem head?_components_normalize_iff {path : List Char} (hRoot : rootOf path = []) :
    (components (normalize path)).head? = some up ↔ up ∈ normalComponents path := by
  rcases normalize_relative hRoot with ⟨hNone, hDot⟩ | ⟨-, hParts⟩
  · rw [hNone, hDot]
    decide
  · rw [hParts]
    refine ⟨List.mem_of_head?, fun hMem => ?_⟩
    obtain ⟨count, names, hNormal, hNames⟩ := normalComponents_eq path
    rw [hNormal] at hMem ⊢
    rcases List.mem_append.mp hMem with hMem | hMem
    · have hCount : count ≠ 0 := by simpa using hMem
      simp [List.head?_append, List.head?_replicate, hCount]
    · exact absurd rfl (hNames up hMem).2.2

theorem rootOf_eq_nil_iff (path : List Char) : rootOf path = [] ↔ path.head? ≠ some '/' := by
  unfold rootOf
  cases path with
  | nil => simp
  | cons c path =>
    by_cases hSlash : c = '/'
    · subst hSlash
      rw [List.takeWhile_cons_of_pos rfl, List.length_cons]
      split <;> simp_all
    · simp [hSlash]

/-- A name leads out exactly if it is absolute, climbs above the place it is relative to, or names a drive. -/
theorem escapes_iff_leaves (name : String) :
    escapes name = true ↔
      (withSlashes name.toList).head? = some '/' ∨
      Climbs (tidyComponents (withSlashes name.toList)) ∨
      ∃ first, (components (normalName name)).head? = some first ∧ ':' ∈ first := by
  have hFirst := head?_components (normalName name)
  unfold escapes
  dsimp only
  generalize hPart : (normalName name).takeWhile (· != '/') = first at hFirst ⊢
  simp only [Bool.or_eq_true, beq_iff_eq, List.contains_iff_mem, hFirst, Option.some.injEq, exists_eq_left']
  by_cases hRoot : rootOf (withSlashes name.toList) = []
  · have hStart := (rootOf_eq_nil_iff _).mp hRoot
    have hHead : (normalName name).head? ≠ some '/' := head?_normalize_of_relative hRoot
    rw [← up_mem_normalComponents_iff hRoot, ← head?_components_normalize_iff hRoot]
    rw [← normalName, hFirst]
    simp [hStart, hHead]
  · have hStart : (withSlashes name.toList).head? = some '/' := by
      simpa [rootOf_eq_nil_iff] using hRoot
    exact iff_of_true (.inl (.inr (head?_normalize_of_root hRoot))) (.inl hStart)

end WebAudit.Path
