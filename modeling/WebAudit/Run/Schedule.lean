/-!
# Waiting for analyses

When a run waits for the records in flight, some of them are done. Which ones, and in what order they come, is not
up to the run. A schedule says it for every wait.
-/

namespace WebAudit.Run

structure Schedule where
  /-- The places of the records that are done at a wait, in the order in which they come, among so many in flight. -/
  done : Nat → Nat → List Nat
  lt_of_mem {wait count place : Nat} : place ∈ done wait count → place < count
  nodup (wait count : Nat) : (done wait count).Nodup
  /-- A wait lasts until something is done. -/
  ne_nil (wait : Nat) {count : Nat} : 0 < count → done wait count ≠ []

namespace Schedule

/-- Each wait is for all records, which come in the order of their submission. -/
def all : Schedule where
  done _ count := List.range count
  lt_of_mem := List.mem_range.mp
  nodup _ count := List.nodup_range
  ne_nil _ _ h := by simpa using Nat.ne_of_gt h

variable {α β : Type} (schedule : Schedule) (wait : Nat)

def finished (xs : List α) : List α :=
  (schedule.done wait xs.length).filterMap (xs[·]?)

def unfinished (xs : List α) : List α :=
  ((List.range xs.length).filter (!(schedule.done wait xs.length).contains ·)).filterMap (xs[·]?)

theorem finished_nil : schedule.finished wait ([] : List α) = [] := by
  simp [finished]

theorem finished_map (f : α → β) (xs : List α) :
    schedule.finished wait (xs.map f) = (schedule.finished wait xs).map f := by
  simp [finished, List.map_filterMap]

theorem unfinished_map (f : α → β) (xs : List α) :
    schedule.unfinished wait (xs.map f) = (schedule.unfinished wait xs).map f := by
  simp [unfinished, List.map_filterMap]

theorem filterMap_range_getElem? (xs : List α) : (List.range xs.length).filterMap (xs[·]?) = xs := by
  induction xs with
  | nil => rfl
  | cons x xs ih =>
    rw [List.length_cons, List.range_succ_eq_map, List.filterMap_cons, List.filterMap_map]
    exact congrArg (x :: ·) ih

/-- Nothing in flight is lost or doubled by a wait. -/
theorem finished_append_unfinished (xs : List α) :
    (schedule.finished wait xs ++ schedule.unfinished wait xs).Perm xs := by
  let places := schedule.done wait xs.length
  have hPlaces : places.Perm ((List.range xs.length).filter places.contains) := by
    refine (List.perm_ext_iff_of_nodup (schedule.nodup _ _) (List.nodup_range.filter _)).mpr fun place => ?_
    rw [List.mem_filter, List.mem_range, List.contains_iff_mem]
    exact ⟨fun h => ⟨schedule.lt_of_mem h, h⟩, And.right⟩
  have hAll := (hPlaces.append_right _).trans (List.filter_append_perm places.contains (List.range xs.length))
  have hTaken := hAll.filterMap (xs[·]?)
  rwa [List.filterMap_append, filterMap_range_getElem?] at hTaken

/-- A wait for something brings something. -/
theorem finished_ne_nil {xs : List α} (h : xs ≠ []) : schedule.finished wait xs ≠ [] := by
  obtain ⟨place, hPlace⟩ := List.exists_mem_of_ne_nil _ (schedule.ne_nil wait (List.length_pos_iff.mpr h))
  have hLt := schedule.lt_of_mem hPlace
  exact List.ne_nil_of_mem (List.mem_filterMap.mpr ⟨place, hPlace, List.getElem?_eq_getElem hLt⟩)

end Schedule

end WebAudit.Run
