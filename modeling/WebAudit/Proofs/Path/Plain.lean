import WebAudit.Path.Normal
import WebAudit.Proofs.Text.Pieces

/-!
# Routes of plain names

A name is plain if it is a component of its own in every reading: it is no dot or pair of dots and has
neither a separator nor the mark of a drive in it. A route of plain names has just these as its
components. It is in normal form already, and it does not lead out of the place it is relative to.
-/

namespace WebAudit.Path

structure Plain (c : Component) : Prop where
  ne_nil : c ≠ []
  ne_dot : c ≠ ['.']
  ne_up : c ≠ up
  allowed : ∀ x ∈ c, x ≠ '/' ∧ x ≠ '\\' ∧ x ≠ ':'

instance (c : Component) : Decidable (Plain c) :=
  decidable_of_iff (c ≠ [] ∧ c ≠ ['.'] ∧ c ≠ up ∧ (c.all fun x => x != '/' && x != '\\' && x != ':') = true)
    ⟨fun ⟨hNil, hDot, hUp, hAll⟩ => ⟨hNil, hDot, hUp, by simpa [and_assoc] using hAll⟩,
      fun h => ⟨h.ne_nil, h.ne_dot, h.ne_up, by simpa [and_assoc] using h.allowed⟩⟩

def lead (folders : List Component) : List Char :=
  folders.flatMap (· ++ ['/'])

structure Route where
  folders : List Component
  last : Component
  plain_folders : ∀ c ∈ folders, Plain c
  plain_last : Plain last

def Route.chars (r : Route) : List Char :=
  lead r.folders ++ r.last

/-! ## Components -/

theorem lead_cons (c : Component) (folders : List Component) :
    lead (c :: folders) = c ++ '/' :: lead folders := by
  simp [lead]

theorem lead_concat (folders : List Component) (c : Component) :
    lead (folders ++ [c]) = lead folders ++ c ++ ['/'] := by
  simp [lead]

theorem Plain.components {c : Component} (h : Plain c) : components c = [c] :=
  Text.cutAtFrom_of_notMem (fun hMem => (h.allowed _ hMem).1 rfl) []

/-- The components of a route are the folders on the way and the last name. -/
theorem Route.components_chars (r : Route) : components r.chars = r.folders ++ [r.last] := by
  obtain ⟨folders, last, hFolders, hLast⟩ := r
  unfold Route.chars
  dsimp only
  induction folders with
  | nil => exact hLast.components
  | cons c folders ih =>
    obtain ⟨hHead, hTail⟩ := List.forall_mem_cons.mp hFolders
    rw [lead_cons, List.append_assoc, List.cons_append, Path.components, Text.cutAtFrom_append,
      ← Path.components, ← Path.components, ih hTail, hHead.components]
    rfl

/-! ## Normal form -/

theorem Plain.push {c : Component} (h : Plain c) (absolute : Bool) (stack : List Component) :
    push absolute stack c = c :: stack := by
  simp [Path.push, h.ne_nil, h.ne_dot, h.ne_up]

theorem foldl_push {cs : List Component} (h : ∀ c ∈ cs, Plain c) (absolute : Bool)
    (stack : List Component) : cs.foldl (push absolute) stack = cs.reverse ++ stack := by
  induction cs generalizing stack with
  | nil => rfl
  | cons c cs ih =>
    obtain ⟨hHead, hTail⟩ := List.forall_mem_cons.mp h
    rw [List.foldl_cons, hHead.push, ih hTail, List.reverse_cons, List.append_assoc]
    rfl

theorem intercalate_concat (folders : List Component) (last : Component) :
    ['/'].intercalate (folders ++ [last]) = lead folders ++ last := by
  induction folders with
  | nil => simp [lead]
  | cons c folders ih =>
    have hNe : folders ++ [last] ≠ [] := by simp
    rw [List.cons_append, List.intercalate_cons_of_ne_nil hNe, ih, lead_cons]
    simp

namespace Route

variable (r : Route)

theorem plain : ∀ c ∈ r.folders ++ [r.last], Plain c := by
  intro c hc
  rcases List.mem_append.mp hc with hc | hc
  · exact r.plain_folders c hc
  · rw [List.mem_singleton.mp hc]
    exact r.plain_last

/-- A route starts with the first character of a plain name. -/
theorem exists_first : ∃ c rest, Plain c ∧ r.chars = c ++ rest ∧ (rest = [] ∨ rest.head? = some '/') := by
  obtain ⟨folders, last, hFolders, hLast⟩ := r
  cases folders with
  | nil => exact ⟨last, [], hLast, by simp [chars, lead], .inl rfl⟩
  | cons c folders =>
    refine ⟨c, '/' :: lead folders ++ last, hFolders c List.mem_cons_self, ?_, .inr rfl⟩
    simp [chars, lead_cons]

theorem chars_ne_nil : r.chars ≠ [] := by
  simp [chars, r.plain_last.ne_nil]

theorem rootOf_chars : rootOf r.chars = [] := by
  obtain ⟨c, rest, hPlain, hChars, -⟩ := r.exists_first
  rw [hChars]
  cases c with
  | nil => exact absurd rfl hPlain.ne_nil
  | cons x c =>
    have hx : (x == '/') = false := by simpa using (hPlain.allowed x List.mem_cons_self).1
    simp [rootOf, hx]

/-- A route is in normal form. -/
theorem normalize_chars : normalize r.chars = r.chars := by
  have hComponents : normalComponents r.chars = r.folders ++ [r.last] := by
    rw [normalComponents, components_chars, foldl_push r.plain]
    simp
  have hText : rootOf r.chars ++ ['/'].intercalate (normalComponents r.chars) = r.chars := by
    rw [rootOf_chars, hComponents, intercalate_concat]
    rfl
  unfold normalize
  rw [hText]
  split
  · rename_i hNil
    exact absurd hNil r.chars_ne_nil
  · rfl

theorem withSlashes_chars : withSlashes r.chars = r.chars := by
  have hAllowed : ∀ x ∈ r.chars, x ≠ '\\' := by
    intro x hx
    rcases List.mem_append.mp hx with hx | hx
    · obtain ⟨c, hc, hx⟩ := List.mem_flatMap.mp hx
      rcases List.mem_append.mp hx with hx | hx
      · exact ((r.plain_folders c hc).allowed x hx).2.1
      · rw [List.mem_singleton.mp hx]
        decide
    · exact (r.plain_last.allowed x hx).2.1
  unfold withSlashes
  rw [List.map_congr_left (g := id), List.map_id]
  intro x hx
  exact if_neg (by simpa using hAllowed x hx)

/-- A route does not end like the name of a folder. -/
theorem not_suffix_slash : ¬ ['/'] <:+ r.chars := by
  rintro ⟨front, hFront⟩
  have hLast := congrArg List.getLast? hFront
  rw [List.getLast?_concat, chars, List.getLast?_append,
    List.getLast?_eq_some_getLast r.plain_last.ne_nil, Option.some_or] at hLast
  have hMem := List.getLast_mem r.plain_last.ne_nil
  rw [← Option.some.inj hLast] at hMem
  exact (r.plain_last.allowed _ hMem).1 rfl

variable {r} {name : String} (h : name.toList = r.chars)

include h

theorem normalName_eq : normalName name = r.chars := by
  rw [normalName, h, withSlashes_chars, normalize_chars]

/-- A route stays inside. -/
theorem escapes_eq_false : escapes name = false := by
  obtain ⟨c, rest, hPlain, hChars, hRest⟩ := r.exists_first
  have hInside : ∀ x ∈ c, (x != '/') = true := fun x hx => by simpa using (hPlain.allowed x hx).1
  have hFirst : r.chars.takeWhile (· != '/') = c := by
    rw [hChars, List.takeWhile_append_of_pos hInside]
    cases rest with
    | nil => simp
    | cons x rest => simp_all
  have hHead : r.chars.head? ≠ some '/' := by
    cases c with
    | nil => exact absurd rfl hPlain.ne_nil
    | cons x c => simpa [hChars] using (hPlain.allowed x List.mem_cons_self).1
  have hDrive : ':' ∉ c := fun hMem => (hPlain.allowed _ hMem).2.2 rfl
  unfold escapes
  rw [normalName_eq h]
  dsimp only
  rw [hFirst]
  simp [hPlain.ne_up, hHead, hDrive]

end Route

end WebAudit.Path
