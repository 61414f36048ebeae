import WebAudit.Proofs.Script.Trees
import WebAudit.Script.Repair
import WebAudit.Script.Security

/-!
# Concatenations that are reported

A concatenation is laid out by putting its operands in its place, and theirs in theirs, also through
parentheses. Whether it is reported depends on what is left in the end and on the node right above it.
Main statement: of concatenations that are operands of one another only the outermost is reported, but
one in parentheses is reported again, if by itself it brings a value into a statement.
-/

namespace WebAudit.Script

open Relation

namespace Source

/-! ## Laying out -/

def inner? (n : Node) : Option Node :=
  if n.kind == .parenthesized then
    match n.namedChildren with
    | [inner] => some inner
    | _ => none
  else none

theorem inner?_eq_some_iff {n m : Node} :
    inner? n = some m ↔ n.kind = .parenthesized ∧ n.namedChildren = [m] := by
  unfold inner?
  split
  · rename_i hKind
    rw [eq_of_beq hKind]
    split
    · rename_i inner hInner
      simp [hInner]
    · rename_i hMany
      simp only [reduceCtorEq, true_and, false_iff]
      exact hMany m
  · rename_i hKind
    simp [ne_of_beq_false (Bool.eq_false_iff.mpr hKind)]

def unfolded (n : Node) : List Node :=
  if isConcatenation n then (n.child? .left).toList ++ (n.child? .right).toList else (inner? n).toList

def Unfolds (n m : Node) : Prop :=
  m ∈ unfolded n

theorem kind_of_isConcatenation {n : Node} (h : isConcatenation n = true) : n.kind = .binary :=
  eq_of_beq (Bool.and_eq_true_iff.mp h).1

theorem unfolds_iff {n m : Node} :
    Unfolds n m ↔ (isConcatenation n = true ∧ (n.child? .left = some m ∨ n.child? .right = some m)) ∨
      (n.kind = .parenthesized ∧ n.namedChildren = [m]) := by
  rw [Unfolds, unfolded]
  split
  · rename_i h
    simp [h, kind_of_isConcatenation h]
  · rename_i h
    simp [h, inner?_eq_some_iff]

theorem mem_children_of_unfolds {n m : Node} (h : Unfolds n m) : m ∈ n.children := by
  rcases unfolds_iff.mp h with ⟨-, hLeft | hRight⟩ | ⟨-, hInner⟩
  · exact List.mem_of_find?_eq_some hLeft
  · exact List.mem_of_find?_eq_some hRight
  · have hMem : m ∈ n.namedChildren := by simp [hInner]
    exact (List.mem_filter.mp hMem).1

theorem sizeAll_unfolded_lt (n : Node) : Node.sizeAll (unfolded n) < n.size := by
  have hSize := n.sizeAll_children
  unfold unfolded
  split
  · have hRoles : ∀ c : Node, (c.role == some .left) = true → (c.role == some .right) = false := by
      intro c hc
      rw [eq_of_beq hc]
      rfl
    have hFound := Node.sizeAll_find?_add_le hRoles n.children
    rw [Node.sizeAll_append]
    exact Nat.lt_of_le_of_lt hFound (by omega)
  · cases hInner : inner? n with
    | none => exact n.size_pos
    | some inner =>
      have hNamed : Node.sizeAll n.namedChildren ≤ _ := Node.sizeAll_le_of_sublist List.filter_sublist
      rw [(inner?_eq_some_iff.mp hInner).2] at hNamed
      rw [Option.toList_some]
      omega

structure HasPart (n m : Node) : Prop where
  reached : ReflTransGen Unfolds n m
  isConcatenation : isConcatenation m = false
  inner? : inner? m = none

/-! ## What a concatenation is laid out as -/

theorem operandsFrom_cons (fuel : Nat) (n : Node) (pending : List Node) :
    operandsFrom (fuel + 1) (n :: pending) =
      if isConcatenation n = false ∧ inner? n = none then n :: operandsFrom fuel pending
      else operandsFrom fuel (unfolded n ++ pending) := by
  rw [operandsFrom, unfolded]
  split
  · rename_i h
    simp [h]
  · rename_i h
    cases hInner : inner? n with
    | none =>
      have hStops : isConcatenation n = false ∧ (none : Option Node) = none := ⟨Bool.eq_false_iff.mpr h, rfl⟩
      rw [if_pos hStops]
      split
      · rename_i hKind
        split
        · rename_i inner hNamed
          rw [inner?_eq_some_iff.mpr ⟨eq_of_beq hKind, hNamed⟩] at hInner
          cases hInner
        · rfl
      · rfl
    | some inner =>
      obtain ⟨hKind, hNamed⟩ := inner?_eq_some_iff.mp hInner
      simp [hKind, hNamed]

section Parts

variable {n m : Node}

theorem hasPart_iff_eq (hConcatenation : isConcatenation n = false) (hInner : inner? n = none) :
    HasPart n m ↔ m = n := by
  constructor
  · rintro ⟨hReached, -, -⟩
    rcases hReached.cases_head with rfl | ⟨k, hk, -⟩
    · rfl
    · simp [Unfolds, unfolded, hConcatenation, hInner] at hk
  · rintro rfl
    exact ⟨.refl, hConcatenation, hInner⟩

theorem hasPart_iff_exists (h : ¬ (isConcatenation n = false ∧ inner? n = none)) :
    HasPart n m ↔ ∃ k ∈ unfolded n, HasPart k m := by
  constructor
  · rintro ⟨hReached, hConcatenation, hInner⟩
    rcases hReached.cases_head with rfl | ⟨k, hk, hRest⟩
    · exact absurd ⟨hConcatenation, hInner⟩ h
    · exact ⟨k, hk, hRest, hConcatenation, hInner⟩
  · rintro ⟨k, hk, hReached, hConcatenation, hInner⟩
    exact ⟨.head hk hReached, hConcatenation, hInner⟩

end Parts

theorem mem_operandsFrom_iff {fuel : Nat} {pending : List Node} (h : Node.sizeAll pending ≤ fuel) {m : Node} :
    m ∈ operandsFrom fuel pending ↔ ∃ n ∈ pending, HasPart n m := by
  induction fuel generalizing pending with
  | zero =>
    cases pending with
    | nil => simp [operandsFrom]
    | cons n pending =>
      have hPos := n.size_pos
      rw [Node.sizeAll] at h
      omega
  | succ fuel ih =>
    cases pending with
    | nil => simp [operandsFrom]
    | cons n pending =>
      rw [Node.sizeAll] at h
      have hUnfolded := sizeAll_unfolded_lt n
      have hFuel : Node.sizeAll (unfolded n ++ pending) ≤ fuel := by
        rw [Node.sizeAll_append]
        omega
      rw [operandsFrom_cons]
      split
      · rename_i hPart
        rw [List.mem_cons, ih (by omega)]
        simp only [List.mem_cons, or_and_right, exists_or, exists_eq_left, hasPart_iff_eq hPart.1 hPart.2]
      · rename_i hPart
        rw [ih hFuel]
        simp only [List.mem_append, List.mem_cons, or_and_right, exists_or, exists_eq_left,
          hasPart_iff_exists hPart]

theorem mem_operands_iff {n m : Node} : m ∈ operands n ↔ HasPart n m := by
  rw [operands, mem_operandsFrom_iff (by simp only [Node.sizeAll]; omega)]
  simp

/-! ## Reports -/

/-- A statement of SQL is among what the node is laid out as, and a value with it. -/
structure Injects (s : Source) (n : Node) : Prop where
  statement : ∃ m, HasPart n m ∧ m.kind = .string ∧ Sql.occurs (s.textOf m).toList = true
  value : ∃ m, HasPart n m ∧ bringsValue m = true

theorem Injects.of_reached {s : Source} {n k : Node} (h : s.Injects k) (hReached : ReflTransGen Unfolds n k) :
    s.Injects n := by
  have hParts : ∀ m, HasPart k m → HasPart n m := by
    intro m hm
    exact ⟨hReached.trans hm.reached, hm.isConcatenation, hm.inner?⟩
  obtain ⟨⟨m, hm, hStatement⟩, v, hv, hValue⟩ := h
  exact ⟨⟨m, hParts m hm, hStatement⟩, v, hParts v hv, hValue⟩

def reported (s : Source) : List Site :=
  (s.sitesOf .binary).filter fun site => (s.concatenationSqlHit site).isSome

theorem isSome_concatenationSqlHit_iff {s : Source} {site : Site} :
    (s.concatenationSqlHit site).isSome = true ↔ isOutermost site = true ∧ s.Injects site.node := by
  have hInjects : s.Injects site.node ↔
      (operands site.node).any (fun n => n.kind == .string && Sql.occurs (s.textOf n).toList) = true ∧
        (operands site.node).any bringsValue = true := by
    simp only [List.any_eq_true, mem_operands_iff, Bool.and_eq_true, beq_iff_eq]
    exact ⟨fun h => ⟨h.statement, h.value⟩, fun h => ⟨h.1, h.2⟩⟩
  rw [hInjects, ← Bool.and_eq_true, concatenationSqlHit]
  split
  · rename_i hOutermost
    dsimp only
    split
    · rename_i hBoth
      simp [hOutermost, hBoth]
    · rename_i hBoth
      simp [hBoth]
  · rename_i hInside
    simp [hInside]

theorem mem_reported_iff {s : Source} {site : Site} :
    site ∈ s.reported ↔ site ∈ s.sites ∧ isOutermost site = true ∧ s.Injects site.node := by
  rw [reported, List.mem_filter, isSome_concatenationSqlHit_iff, sitesOf, List.mem_filter]
  constructor
  · rintro ⟨⟨hSite, -⟩, h⟩
    exact ⟨hSite, h⟩
  · rintro ⟨hSite, hOutermost, h⟩
    have hKind := kind_of_isConcatenation (Bool.and_eq_true_iff.mp hOutermost).1
    exact ⟨⟨hSite, beq_iff_eq.mpr hKind⟩, hOutermost, h⟩

def concatenationHit (site : Site) : Hit :=
  site.node.hit none (some "An SQL statement is built by concatenating values into a string.")

theorem eq_of_concatenationSqlHit {s : Source} {site : Site} {hit : Hit}
    (h : s.concatenationSqlHit site = some hit) : hit = concatenationHit site := by
  unfold concatenationSqlHit at h
  split at h
  · dsimp only at h
    split at h
    · exact (Option.some.inj h).symm
    · cases h
  · cases h

theorem sqlInjections_eq (s : Source) :
    s.sqlInjections =
      (s.sitesOf .template).filterMap (s.templateSqlHit ·.node) ++ s.reported.map concatenationHit := by
  rw [sqlInjections, reported]
  induction s.sitesOf .binary with
  | nil => rfl
  | cons site sites ih =>
    have hTail := List.append_cancel_left ih
    cases hHit : s.concatenationSqlHit site with
    | none => simp [hHit, hTail]
    | some hit => simp [hHit, hTail, eq_of_concatenationSqlHit hHit]

end Source

/-! ## Chains -/

/-- One site is that of a node which takes the place of the other's. -/
def Site.Unfolds (a b : Site) : Prop :=
  ∃ n, Source.Unfolds a.node n ∧ b = a.below n

structure Site.Joins (a b : Site) : Prop where
  outer : Source.isConcatenation a.node = true
  inner : Source.isConcatenation b.node = true
  unfolds : a.Unfolds b

namespace Source

theorem isOutermost_of_unfolds {a b : Site} (h : a.Unfolds b) :
    isOutermost b = true ↔ isConcatenation b.node = true ∧ b.parent?.any (·.kind == .parenthesized) = true := by
  obtain ⟨n, hn, rfl⟩ := h
  rcases unfolds_iff.mp hn with ⟨hOuter, -⟩ | ⟨hKind, -⟩
  · simp [isOutermost, Site.parent?, Site.below, hOuter, kind_of_isConcatenation hOuter]
  · have hOuter : isConcatenation a.node = false := by simp [isConcatenation, hKind]
    simp [isOutermost, Site.parent?, Site.below, hOuter, hKind]

theorem mem_sites_of_unfolds {s : Source} {a b : Site} (ha : a ∈ s.sites) (h : a.Unfolds b) : b ∈ s.sites := by
  obtain ⟨n, hn, rfl⟩ := h
  exact mem_sites_of_above ha (Site.above_below (mem_children_of_unfolds hn))

theorem mem_sites_of_transGen {s : Source} {a b : Site} (ha : a ∈ s.sites) (h : TransGen Site.Unfolds a b) :
    b ∈ s.sites := by
  induction h with
  | single hab => exact mem_sites_of_unfolds ha hab
  | tail _ hbc ih => exact mem_sites_of_unfolds ih hbc

theorem reached_of_joins {a b : Site} (h : ReflTransGen Site.Joins a b) :
    ReflTransGen Unfolds a.node b.node := by
  refine h.lift Site.node ?_
  rintro a b ⟨-, -, n, hn, rfl⟩
  exact hn

theorem isOutermost_of_joins {a b : Site} (h : a.Joins b) : isOutermost b = false := by
  obtain ⟨hOuter, -, n, -, rfl⟩ := h
  simp [isOutermost, Site.parent?, Site.below, hOuter]

theorem mem_reported_iff_of_joins {s : Source} {a b : Site} (ha : a ∈ s.sites)
    (hOutermost : isOutermost a = true) (h : ReflTransGen Site.Joins a b) :
    b ∈ s.reported ↔ b = a ∧ ∃ c, ReflTransGen Site.Joins a c ∧ s.Injects c.node := by
  rw [mem_reported_iff]
  constructor
  · rintro ⟨-, hb, hInjects⟩
    rcases h.cases_tail with rfl | ⟨x, -, hx⟩
    · exact ⟨rfl, b, .refl, hInjects⟩
    · rw [isOutermost_of_joins hx] at hb
      cases hb
  · rintro ⟨rfl, c, hc, hInjects⟩
    exact ⟨ha, hOutermost, hInjects.of_reached (reached_of_joins hc)⟩

theorem mem_reported_iff_of_unfolds {s : Source} {a b : Site} (ha : a ∈ s.sites)
    (h : TransGen Site.Unfolds a b) :
    b ∈ s.reported ↔ isConcatenation b.node = true ∧ b.parent?.any (·.kind == .parenthesized) = true ∧
      s.Injects b.node := by
  obtain ⟨x, -, hx⟩ := TransGen.tail'_iff.mp h
  rw [mem_reported_iff, isOutermost_of_unfolds hx, and_assoc]
  exact and_iff_right (mem_sites_of_transGen ha h)

/-- Of an outermost concatenation and the operands that it joins only the outermost is reported, and it is just if one of
them builds a query. What stands in parentheses below is a concatenation of its own and reported by itself. -/
theorem concatenations_reported_once_up_to_parentheses (s : Source) {a : Site} (ha : a ∈ s.sites)
    (hOutermost : isOutermost a = true) :
    s.sqlInjections =
      (s.sitesOf .template).filterMap (s.templateSqlHit ·.node) ++ s.reported.map concatenationHit ∧
    (∀ b, ReflTransGen Site.Joins a b →
      (b ∈ s.reported ↔ b = a ∧ ∃ c, ReflTransGen Site.Joins a c ∧ s.Injects c.node)) ∧
    (∀ b, TransGen Site.Unfolds a b →
      (b ∈ s.reported ↔ isConcatenation b.node = true ∧ b.parent?.any (·.kind == .parenthesized) = true ∧
        s.Injects b.node)) := by
  refine ⟨s.sqlInjections_eq, ?_, ?_⟩
  · intro b hb
    exact mem_reported_iff_of_joins ha hOutermost hb
  · intro b hb
    exact mem_reported_iff_of_unfolds ha hb

def plainChain : Source :=
  .parse .javascript "\"delete from \" + x + y"

theorem plainChain_reported :
    ∃ a b, a ∈ plainChain.sites ∧ isOutermost a = true ∧ a.Joins b ∧ a ∈ plainChain.reported ∧
      b ∉ plainChain.reported := by
  have hTree : plainChain.sites.any (fun a => (plainChain.concatenationSqlHit a).isSome &&
      (unfolded a.node).any isConcatenation) = true := by decide +kernel
  obtain ⟨a, ha, hBoth⟩ := List.any_eq_true.mp hTree
  obtain ⟨hHit, hAny⟩ := Bool.and_eq_true_iff.mp hBoth
  obtain ⟨n, hn, hInner⟩ := List.any_eq_true.mp hAny
  obtain ⟨hOutermost, hInjects⟩ := isSome_concatenationSqlHit_iff.mp hHit
  obtain ⟨-, hChain, -⟩ := concatenations_reported_once_up_to_parentheses plainChain ha hOutermost
  have hJoins : a.Joins (a.below n) := ⟨(Bool.and_eq_true_iff.mp hOutermost).1, hInner, n, hn, rfl⟩
  refine ⟨a, a.below n, ha, hOutermost, hJoins, (hChain a .refl).mpr ⟨rfl, a, .refl, hInjects⟩, ?_⟩
  intro hReported
  have hSame := ((hChain _ (.single hJoins)).mp hReported).1
  have hInside := isOutermost_of_joins hJoins
  rw [hSame, hOutermost] at hInside
  cases hInside

def parenthesizedChain : Source :=
  .parse .javascript "(\"delete from \" + x) + y"

theorem parenthesizedChain_reported_twice :
    ∃ a ∈ parenthesizedChain.reported, ∃ b ∈ parenthesizedChain.reported, TransGen Site.Unfolds a b := by
  have hTree : parenthesizedChain.sites.any (fun a => (parenthesizedChain.concatenationSqlHit a).isSome &&
      (unfolded a.node).any fun x => (unfolded x).any fun y =>
        (parenthesizedChain.concatenationSqlHit ((a.below x).below y)).isSome) = true := by decide +kernel
  obtain ⟨a, ha, hBoth⟩ := List.any_eq_true.mp hTree
  obtain ⟨hHit, hAny⟩ := Bool.and_eq_true_iff.mp hBoth
  obtain ⟨x, hx, hAny⟩ := List.any_eq_true.mp hAny
  obtain ⟨y, hy, hInner⟩ := List.any_eq_true.mp hAny
  have hReached : TransGen Site.Unfolds a ((a.below x).below y) := .tail (.single ⟨x, hx, rfl⟩) ⟨y, hy, rfl⟩
  refine ⟨a, mem_reported_iff.mpr ⟨ha, isSome_concatenationSqlHit_iff.mp hHit⟩, _, ?_, hReached⟩
  exact mem_reported_iff.mpr ⟨mem_sites_of_transGen ha hReached, isSome_concatenationSqlHit_iff.mp hInner⟩

end Source

end WebAudit.Script
