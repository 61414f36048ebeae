import WebAudit.Script.Query
import WebAudit.Script.Repair

/-!
# Nodes lie in the text

Readers stay in the text they read, so the nodes of a script that can be read lie in it. A repair takes
its errors from what was read up to a stall and from tokens behind it, and reads again; so the nodes of a
repaired script lie in its text as well.
-/

namespace WebAudit.Script

variable {text : List Char}

/-! ## Extras -/

theorem mem_place {extra n : Node} {ns : List Node} (h : n ∈ Node.place extra ns) : n = extra ∨ n ∈ ns := by
  induction ns with
  | nil => exact .inl (List.mem_singleton.mp h)
  | cons m ms ih =>
    rw [Node.place] at h
    split at h
    · exact List.mem_cons.mp h
    · rcases List.mem_cons.mp h with rfl | h
      · exact .inr List.mem_cons_self
      · rcases ih h with hExtra | hMem
        · exact .inl hExtra
        · exact .inr (List.mem_cons_of_mem m hMem)

theorem attach_label (extra n : Node) :
    (Node.attach extra n).kind = n.kind ∧ (Node.attach extra n).span = n.span := by
  obtain ⟨label, children⟩ := n
  rw [Node.attach]
  split
  · exact ⟨rfl, rfl⟩
  · exact ⟨rfl, rfl⟩

theorem Node.substitutionSpans_cons (n : Node) (ns : List Node) :
    substitutionSpans (n :: ns) =
      (if n.kind == .templateSubstitution then [n.span] else []) ++ substitutionSpans ns := by
  unfold substitutionSpans
  rw [List.filter_cons]
  split
  · rfl
  · rfl

theorem substitutionSpans_place {extra : Node} (h : extra.kind.isExtra = true) (ns : List Node) :
    Node.substitutionSpans (Node.place extra ns) = Node.substitutionSpans ns := by
  have hKind : (extra.kind == .templateSubstitution) = false := by
    rw [beq_eq_false_iff_ne]
    intro hSubstitution
    rw [hSubstitution] at h
    cases h
  induction ns with
  | nil => simp [Node.place, Node.substitutionSpans_cons, hKind]
  | cons n ns ih =>
    rw [Node.place]
    split
    · simp [Node.substitutionSpans_cons, hKind]
    · rw [Node.substitutionSpans_cons, Node.substitutionSpans_cons, ih]

theorem substitutionSpans_attachInside {extra : Node} {ns found : List Node}
    (h : Node.attachInside extra ns = some found) :
    Node.substitutionSpans found = Node.substitutionSpans ns := by
  induction ns generalizing found with
  | nil => cases h
  | cons n ns ih =>
    rw [Node.attachInside] at h
    split at h
    · cases h
      obtain ⟨hKind, hSpan⟩ := attach_label extra n
      rw [Node.substitutionSpans_cons, Node.substitutionSpans_cons, hKind, hSpan]
    · obtain ⟨rest, hRest, rfl⟩ := Option.map_eq_some_iff.mp h
      rw [Node.substitutionSpans_cons, Node.substitutionSpans_cons, ih hRest]

mutual

theorem within_attach {extra : Node} (hExtra : extra.Aside text) :
    ∀ n : Node, n.Within text → (Node.attach extra n).Within text
  | .mk label children, h => by
    rw [Node.attach]
    split
    · rename_i found hInside
      refine .mk h.span (within_attachInside hExtra children found h.children hInside) ?_
      rw [substitutionSpans_attachInside hInside]
      exact h.template
    · refine .mk h.span ?_ ?_
      · intro n hn
        rcases mem_place hn with rfl | hn
        · exact hExtra.within
        · exact h.children n hn
      · rw [substitutionSpans_place hExtra.extra]
        exact h.template

theorem within_attachInside {extra : Node} (hExtra : extra.Aside text) :
    ∀ ns found : List Node, (∀ n ∈ ns, n.Within text) → Node.attachInside extra ns = some found →
      ∀ n ∈ found, n.Within text
  | [], _, _, hFound => by cases hFound
  | n :: ns, found, h, hFound => by
    obtain ⟨hHead, hTail⟩ := List.forall_mem_cons.mp h
    rw [Node.attachInside] at hFound
    split at hFound
    · cases hFound
      exact List.forall_mem_cons.mpr ⟨within_attach hExtra n hHead, hTail⟩
    · obtain ⟨rest, hRest, rfl⟩ := Option.map_eq_some_iff.mp hFound
      exact List.forall_mem_cons.mpr ⟨hHead, within_attachInside hExtra ns rest hTail hRest⟩

end

theorem within_attachAll {extras : List Node} {root : Node} (hRoot : root.Within text)
    (hExtras : ∀ n ∈ extras, n.Aside text) :
    (extras.foldl (fun root extra => Node.attach extra root) root).Within text := by
  induction extras generalizing root with
  | nil => exact hRoot
  | cons extra extras ih =>
    obtain ⟨hHead, hTail⟩ := List.forall_mem_cons.mp hExtras
    exact ih (within_attach hHead root hRoot) hTail

theorem kind_attachAll (extras : List Node) (root : Node) :
    (extras.foldl (fun root extra => Node.attach extra root) root).kind = root.kind := by
  induction extras generalizing root with
  | nil => rfl
  | cons extra extras ih => exact (ih _).trans (attach_label extra root).1

/-! ## Whole readings -/

theorem within_readProgram {set : Setting} {inserts : List (Nat × Kind)} (hSet : set.Within text) :
    (readProgram set inserts text).Within text := by
  have hStart : State.Within text { rest := text, inserts } :=
    ⟨Point.before_start text, by simp, by simp, by simp [Reach.Within], .nil _⟩
  have hRead := (Grammar.program (Grammar.nested (depthFor text.length))).within hSet hStart
  unfold readProgram
  dsimp only
  split
  · rename_i hOk
    rw [hOk] at hRead
    exact State.Within.toToken hSet hRead
  · rename_i hStuck
    rw [hStuck] at hRead
    exact hRead

theorem within_tree {s : State} (h : s.Within text) : s.tree.Within text := by
  refine within_attachAll ?_ h.extras
  refine Node.within_branch (Span.in_between (Point.before_start text).isIn h.place.isIn) ?_ Kind.noConfusion
  intro n hn
  exact h.stack n (List.mem_reverse.mp hn)

/-! ## Tokens put aside -/

theorem append_of_anyToken {cs piece rest : List Char} {kind : Kind}
    (h : Lexeme.anyToken cs = some (kind, piece, rest)) : piece ++ rest = cs := by
  unfold Lexeme.anyToken at h
  split at h
  · rename_i hName
    cases h
    exact Lexeme.Exact.append_eq hName
  · split at h
    · rename_i hNumber
      cases h
      split at hNumber
      · exact Lexeme.Exact.append_eq hNumber
      · cases hNumber
    · split at h
      · rename_i p hFind
        cases h
        have hStarts := List.find?_some hFind
        obtain ⟨rest, hRest⟩ := Option.isSome_iff_exists.mp hStarts
        have hAppend := Lexeme.append_of_dropSpelling hRest
        rw [← hAppend, ← String.length_toList, List.drop_left]
      · split at h
        · cases h
          rfl
        · cases h

structure Skipped.Within (text : List Char) (s : Skipped) : Prop where
  tokens : ∀ n ∈ s.tokens, n.Within text
  state : s.state.Within text

theorem Skipped.Within.next {set : Setting} {s s' : Skipped} (hSet : set.Within text) (h : s.Within text)
    (hNext : s.next set = some s') : s'.Within text := by
  have hToken := h.state.toToken hSet
  unfold Skipped.next at hNext
  obtain ⟨⟨kind, piece, rest⟩, hAny, rfl⟩ := Option.map_eq_some_iff.mp hNext
  obtain ⟨hPlace, hSpan⟩ := hToken.piece (append_of_anyToken hAny)
  exact ⟨List.forall_mem_cons.mpr ⟨Node.within_leaf hSpan, h.tokens⟩,
    hPlace, hToken.stack, hToken.extras, hToken.reach, hToken.order.mono (Point.byte_le_byte_walk _ _)⟩

/-! ## Tails -/

theorem forall_mem_parts {n : Node} {front : List Node} {parts : List (List Node)}
    (hParts : ∀ part ∈ parts, ∀ m ∈ part, m.Within text) (hFront : ∀ m ∈ front, m.Within text)
    (h : n.Within text) : ∀ part ∈ parts.map (· ++ front) ++ [[n]], ∀ m ∈ part, m.Within text := by
  intro part hPart m hm
  rcases List.mem_append.mp hPart with hPart | hPart
  · obtain ⟨first, hFirst, rfl⟩ := List.mem_map.mp hPart
    rcases List.mem_append.mp hm with hm | hm
    · exact hParts first hFirst m hm
    · exact hFront m hm
  · rw [List.mem_singleton.mp hPart] at hm
    rw [List.mem_singleton.mp hm]
    exact h

theorem within_parts {fuel : Nat} {n : Node} (h : n.Within text) :
    ∀ part ∈ n.parts fuel, ∀ m ∈ part, m.Within text := by
  have hAlone : ∀ part ∈ [[n]], ∀ m ∈ part, m.Within text :=
    List.forall_mem_singleton.mpr (List.forall_mem_singleton.mpr h)
  induction fuel generalizing n with
  | zero => exact hAlone
  | succ fuel ih =>
    unfold Node.parts
    split
    · exact hAlone
    · rename_i last front hReverse
      split
      · exact hAlone
      · have hChildren : ∀ m ∈ last :: front, m.Within text :=
          fun m hm => h.children m (List.mem_reverse.mp (hReverse ▸ hm))
        obtain ⟨hLast, hFront⟩ := List.forall_mem_cons.mp hChildren
        refine forall_mem_parts (ih hLast ?_) hFront h
        exact List.forall_mem_singleton.mpr (List.forall_mem_singleton.mpr hLast)

theorem Stall.Within.stacks {stall : Stall} (h : stall.Within text) :
    ∀ stack ∈ stall.stacks, ∀ n ∈ stack, n.Within text := by
  unfold Stall.stacks
  split
  · simp
  · rename_i top below hStack
    obtain ⟨hTop, hBelow⟩ := List.forall_mem_cons.mp (hStack ▸ h.stack)
    dsimp only
    intro stack hMem n hn
    obtain ⟨part, hPart, rfl⟩ := List.mem_map.mp hMem
    rcases List.mem_append.mp hn with hn | hn
    · split at hPart
      · rename_i last front hReverse
        have hChildren : ∀ m ∈ last :: front, m.Within text :=
          fun m hm => hTop.children m (List.mem_reverse.mp (hReverse ▸ hm))
        obtain ⟨hLast, hFront⟩ := List.forall_mem_cons.mp hChildren
        split at hPart
        · exact forall_mem_parts (within_parts hLast) hFront hTop part hPart n hn
        · exact within_parts hTop part hPart n hn
      · rw [List.mem_singleton.mp hPart] at hn
        rw [List.mem_singleton.mp hn]
        exact hTop
    · exact hBelow n hn

structure Tail.Within (text : List Char) (t : Tail) : Prop where
  nodes : ∀ n ∈ t.nodes, n.Within text
  extras : ∀ n ∈ t.extras, n.Aside text

theorem mem_of_mem_distinctFrom {seen : List (Option Nat)} {tails : List Tail} {t : Tail}
    (h : t ∈ Tail.distinctFrom seen tails) : t ∈ tails := by
  induction tails generalizing seen with
  | nil => cases h
  | cons u tails ih =>
    rw [Tail.distinctFrom] at h
    split at h
    · exact List.mem_cons_of_mem u (ih h)
    · rcases List.mem_cons.mp h with rfl | h
      · exact List.mem_cons_self
      · exact List.mem_cons_of_mem u (ih h)

theorem Reach.Within.tails {r : Reach} (h : r.Within text) : ∀ t ∈ r.tails, t.Within text := by
  intro t ht
  have hCandidate := mem_of_mem_distinctFrom ht
  obtain ⟨depth, -, hFound⟩ := List.mem_flatMap.mp hCandidate
  obtain ⟨⟨stall, stack⟩, hPair, hTail⟩ := List.mem_filterMap.mp hFound
  obtain ⟨stall', hStall, hStack⟩ := List.mem_flatMap.mp hPair
  obtain ⟨stack', hStack', hEq⟩ := List.mem_map.mp hStack
  cases hEq
  have hWithin := h stall (List.mem_reverse.mp hStall)
  unfold Stall.tailsOf at hTail
  dsimp only at hTail
  split at hTail
  · cases hTail
    refine ⟨?_, hWithin.extras⟩
    intro n hn
    exact hWithin.stacks stack hStack' n (List.mem_of_mem_take (List.mem_reverse.mp hn))
  · cases hTail

/-! ## Trials -/

def Patch.Within (text : List Char) (p : Patch) : Prop :=
  ∀ hole ∈ p.holes, hole.error.Aside text

structure Trial.Within (text : List Char) (t : Trial) : Prop where
  patch : t.patch.Within text
  outcome : t.outcome.Within text

structure Repair.Within (r : Repair) : Prop where
  patch : r.patch.Within r.text
  reach : r.reach.Within r.text

namespace Repair

variable {r : Repair}

theorem within_trial {patch : Patch} (h : patch.Within r.text) : (r.trial patch).Within r.text :=
  ⟨h, within_readProgram h⟩

theorem Within.insertion {kind : Kind} {t : Trial} (h : r.Within) (hInsertion : r.insertion = some (kind, t)) :
    t.Within r.text := by
  unfold Repair.insertion at hInsertion
  obtain ⟨⟨place, wanted⟩, -, hFound⟩ := List.exists_of_findSome?_eq_some hInsertion
  dsimp only at hFound
  split at hFound
  · cases hFound
    exact within_trial h.patch
  · cases hFound

theorem Within.hole {tail : Tail} {skipped : Skipped} {patch : Patch} (h : r.Within)
    (hTail : tail.Within r.text) (hSkipped : skipped.Within r.text)
    (hHole : r.hole tail skipped = some patch) : patch.Within r.text := by
  have hNodes : ∀ n ∈ tail.nodes ++ skipped.tokens.reverse, n.Within r.text := by
    intro n hn
    rcases List.mem_append.mp hn with hn | hn
    · exact hTail.nodes n hn
    · exact hSkipped.tokens n (List.mem_reverse.mp hn)
  unfold Repair.hole at hHole
  dsimp only at hHole
  split at hHole
  · rename_i first last hFirst hLast
    have hStart := (hNodes first (List.mem_of_head? hFirst)).span.start
    have hStop := (hNodes last (List.mem_of_getLast? hLast)).span.stop
    cases hHole
    refine List.forall_mem_cons.mpr ⟨?_, ?_⟩
    · generalize hBefore : r.patch.holes.find? _ = before
      have hError : ∀ hole, before = some hole → hole.error.Within r.text :=
        fun hole hSome => (h.patch hole (List.mem_of_find?_eq_some (hBefore.trans hSome))).within
      refine ⟨within_attachAll (Node.within_branch (Span.in_between ?_ hStop) ?_ Kind.noConfusion) ?_, ?_⟩
      · cases before with
        | none => exact hStart
        | some hole => exact (hError hole rfl).span.start
      · intro n hn
        rcases List.mem_append.mp hn with hn | hn
        · cases before with
          | none => cases hn
          | some hole => exact (hError hole rfl).children n hn
        · exact hNodes n hn
      · intro n hn
        rcases List.mem_append.mp (List.mem_filter.mp hn).1 with hn | hn
        · exact hSkipped.state.extras n hn
        · exact hTail.extras n hn
      · rw [kind_attachAll]
        rfl
    · intro hole hMem
      exact h.patch hole (List.mem_filter.mp hMem).1
  · cases hHole

theorem Within.recovery {tails : List Tail} {skipped : Skipped} {t : Trial} (h : r.Within)
    (hTails : ∀ tail ∈ tails, tail.Within r.text) (hSkipped : skipped.Within r.text)
    (hRecovery : r.recovery tails skipped = some t) : t.Within r.text := by
  unfold Repair.recovery at hRecovery
  obtain ⟨tail, hTail, hFound⟩ := List.exists_of_findSome?_eq_some hRecovery
  obtain ⟨patch, hPatch, hFound⟩ := Option.bind_eq_some_iff.mp hFound
  dsimp only at hFound
  split at hFound
  · cases hFound
    exact within_trial (h.hole (hTails tail hTail) hSkipped hPatch)
  · cases hFound

theorem Within.recoveries {tails : List Tail} {fuel : Nat} {skipped : Skipped} {found : List Trial}
    (h : r.Within) (hTails : ∀ tail ∈ tails, tail.Within r.text) (hSkipped : skipped.Within r.text)
    (hFound : ∀ t ∈ found, t.Within r.text) :
    ∀ t ∈ r.recoveries tails fuel skipped found, t.Within r.text := by
  induction fuel generalizing skipped found with
  | zero => exact hFound
  | succ fuel ih =>
    have hSet : r.setting.Within r.text := h.patch
    have hMore : ∀ t ∈ found ++ (r.recovery tails skipped).toList, t.Within r.text := by
      intro t ht
      rcases List.mem_append.mp ht with ht | ht
      · exact hFound t ht
      · exact h.recovery hTails hSkipped (Option.mem_toList.mp ht)
    rw [Repair.recoveries]
    dsimp only
    split
    · exact hFound
    · split
      · rename_i hNext
        exact ih (hSkipped.next hSet hNext) hMore
      · exact hMore

theorem Within.trials (h : r.Within) : ∀ t ∈ r.trials, t.Within r.text := by
  unfold Repair.trials
  dsimp only
  refine h.recoveries ?_ ?_ ?_
  · refine List.forall_mem_cons.mpr ⟨⟨by simp, by simp⟩, ?_⟩
    intro t ht
    exact h.reach.tails t (List.mem_filter.mp ht).1
  · refine ⟨by simp, State.before_skipBytes (Point.before_start r.text), by simp, by simp, ?_, .nil _⟩
    simp [Reach.Within]
  · intro t ht
    obtain ⟨⟨kind, t'⟩, hInserted, rfl⟩ := List.mem_map.mp ht
    exact h.insertion (Option.mem_toList.mp hInserted)

theorem mem_of_best {trials : List Trial} {t : Trial} (h : best trials = some t) : t ∈ trials := by
  unfold best at h
  exact List.mem_mergeSort.mp (List.mem_of_find?_eq_some h)

theorem Within.broken (h : r.Within) : r.broken.Within r.text := by
  have hStop : (Point.walk {} r.text).In r.text := ⟨[], r.text, List.append_nil _, rfl⟩
  refine Node.within_branch (Span.in_between (Point.before_start r.text).isIn hStop) ?_ Kind.noConfusion
  cases hStall : r.reach.stalls.head? with
  | none => simp
  | some stall =>
    intro n hn
    exact (h.reach stall (List.mem_of_head? hStall)).stack n (List.mem_reverse.mp hn)

theorem Within.finish {fuel : Nat} (h : r.Within) : (finish fuel r).Within r.text := by
  induction fuel generalizing r with
  | zero => exact h.broken
  | succ fuel ih =>
    rw [Repair.finish]
    split
    · exact h.broken
    · rename_i t hBest
      have hTrial := h.trials t (mem_of_best hBest)
      have hOutcome := hTrial.outcome
      split
      · rename_i hOk
        rw [hOk] at hOutcome
        exact within_tree hOutcome
      · rename_i hStuck
        rw [hStuck] at hOutcome
        exact ih (r := { r with patch := t.patch, reach := _ }) ⟨hTrial.patch, hOutcome⟩

end Repair

/-! ## Scripts -/

theorem within_parse (dialect : Dialect) (source : String) :
    (Source.parse dialect source).root.Within source.toList := by
  have hSet : Setting.Within source.toList { dialect, limit := source.toList.length + 1 } := by
    simp [Setting.Within]
  have hRead : (readProgram { dialect, limit := source.toList.length + 1 } [] source.toList).Within
      source.toList := within_readProgram hSet
  unfold Source.parse
  dsimp only
  split
  · rename_i hOk
    rw [hOk] at hRead
    exact within_tree hRead
  · rename_i reach hStuck
    rw [hStuck] at hRead
    exact Repair.Within.finish (r := ⟨dialect, source.toList, {}, reach⟩) ⟨by simp [Patch.Within], hRead⟩

theorem within_subtreeFrom {fuel : Nat} {pending : List Site} (h : ∀ s ∈ pending, s.node.Within text) :
    ∀ s ∈ Site.subtreeFrom fuel pending, s.node.Within text := by
  induction fuel generalizing pending with
  | zero => simp [Site.subtreeFrom]
  | succ fuel ih =>
    cases pending with
    | nil => simp [Site.subtreeFrom]
    | cons s pending =>
      obtain ⟨hHead, hTail⟩ := List.forall_mem_cons.mp h
      rw [Site.subtreeFrom]
      refine List.forall_mem_cons.mpr ⟨hHead, ih ?_⟩
      intro t ht
      rcases List.mem_append.mp ht with ht | ht
      · obtain ⟨child, hChild, rfl⟩ := List.mem_map.mp ht
        exact hHead.children child hChild
      · exact hTail t ht

theorem within_sites (dialect : Dialect) (source : String) :
    ∀ s ∈ (Source.parse dialect source).sites, s.node.Within source.toList :=
  within_subtreeFrom (List.forall_mem_singleton.mpr (within_parse dialect source))

end WebAudit.Script
