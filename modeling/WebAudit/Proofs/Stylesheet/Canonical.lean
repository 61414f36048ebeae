import Mathlib.Data.List.Infix
import Mathlib.Logic.Relation
import WebAudit.Proofs.Stylesheet.Places
import WebAudit.Stylesheet.TopLevel

/-!
# Canonical lists and spellings

Cutting a value at its separators leaves parts that can be joined and cut again, whether or not the
parentheses of the value fit together. Two selectors have one normal spelling exactly if one can be
respelled as the other by changing blanks where they mean nothing.
-/

namespace WebAudit.Stylesheet

/-! ## Parentheses -/

/-- Parentheses are balanced: none is closed that is not open, and none is left open. -/
structure Balanced (cs : List Char) : Prop where
  opened : ∀ front, front <+: cs → front.count ')' ≤ front.count '('
  closed : cs.count '(' = cs.count ')'

/-- A separator stands outside parentheses: in front of it as many are closed as are opened. -/
def Exposed (sep : Char) (cs : List Char) : Prop :=
  ∃ front, front ++ [sep] <+: cs ∧ front.count '(' = front.count ')'

theorem balanced_iff {cs : List Char} :
    Balanced cs ↔ (∀ front ∈ cs.inits, front.count ')' ≤ front.count '(') ∧ cs.count '(' = cs.count ')' := by
  simp only [List.mem_inits]
  exact ⟨fun h => ⟨h.opened, h.closed⟩, fun h => ⟨h.1, h.2⟩⟩

instance (cs : List Char) : Decidable (Balanced cs) :=
  decidable_of_iff' _ balanced_iff

theorem exposed_iff {sep : Char} {cs : List Char} :
    Exposed sep cs ↔ ∃ front ∈ cs.inits, front ++ [sep] <+: cs ∧ front.count '(' = front.count ')' := by
  simp only [List.mem_inits]
  constructor
  · rintro ⟨front, hFront, hCount⟩
    exact ⟨front, (List.prefix_append front [sep]).trans hFront, hFront, hCount⟩
  · rintro ⟨front, -, hFront, hCount⟩
    exact ⟨front, hFront, hCount⟩

instance (sep : Char) (cs : List Char) : Decidable (Exposed sep cs) :=
  decidable_of_iff' _ exposed_iff

/-- A text that can stand between two separators. -/
structure IsPart (sep : Char) (part : String) : Prop where
  nonempty : part ≠ ""
  trimmed : Text.strip part = part
  balanced : Balanced part.toList
  covered : ¬ Exposed sep part.toList

/-! ## Scanning a piece -/

/-- The depth behind a text that starts at a depth; none if it is cut at a separator. -/
def settle (sep : Char) : Nat → List Char → Option Nat
  | depth, [] => some depth
  | depth, c :: cs =>
    if c = sep ∧ depthAfter c depth = 0 then none else settle sep (depthAfter c depth) cs

theorem settle_append (sep : Char) (depth : Nat) (cs ds : List Char) :
    settle sep depth (cs ++ ds) = (settle sep depth cs).bind (settle sep · ds) := by
  induction cs generalizing depth with
  | nil => rfl
  | cons c cs ih =>
    rw [List.cons_append, settle, settle]
    split
    · rfl
    · exact ih _

theorem foldr_consFirst (p q : List Char) (ps : List (List Char)) :
    p.foldr consFirst (q :: ps) = (p ++ q) :: ps := by
  induction p with
  | nil => rfl
  | cons c p ih => rw [List.foldr_cons, ih, consFirst, List.cons_append]

/-- A text that is not cut goes in front of the first piece of what follows it. -/
theorem piecesAt_append {sep : Char} {depth after : Nat} {p : List Char} (h : settle sep depth p = some after)
    (rest : List Char) : piecesAt sep depth (p ++ rest) = p.foldr consFirst (piecesAt sep after rest) := by
  induction p generalizing depth with
  | nil =>
    cases h
    rfl
  | cons c p ih =>
    rw [settle] at h
    split at h
    · cases h
    · rename_i hUncut
      rw [List.cons_append, piecesAt, if_neg (by simpa using hUncut), ih h, List.foldr_cons]

theorem depthAfter_count {front : List Char} (h : front.count ')' ≤ front.count '(') (c : Char) :
    depthAfter c (front.count '(' - front.count ')') = (front ++ [c]).count '(' - (front ++ [c]).count ')' := by
  unfold depthAfter
  rw [List.count_append, List.count_append]
  by_cases hOpen : c = '('
  · subst hOpen
    rw [if_pos (by decide), List.count_singleton_self, List.count_singleton, if_neg (by decide)]
    omega
  · by_cases hClose : c = ')'
    · subst hClose
      rw [if_neg (by decide), if_pos (by decide), List.count_singleton_self, List.count_singleton, if_neg (by decide)]
      omega
    · simp [hOpen, hClose]

theorem depthAfter_of_ne {c : Char} (hOpen : c ≠ '(') (hClose : c ≠ ')') (depth : Nat) :
    depthAfter c depth = depth := by
  simp [depthAfter, hOpen, hClose]

/-! ## Pieces -/

/-- Pieces between separators: none of them is cut, and all parentheses are closed where a separator stands. -/
inductive Pieces (sep : Char) : Nat → List (List Char) → Prop
  | last {depth after : Nat} {p : List Char} (h : settle sep depth p = some after) : Pieces sep depth [p]
  | more {depth : Nat} {p : List Char} {ps : List (List Char)} (h : settle sep depth p = some 0)
    (hRest : Pieces sep 0 ps) : Pieces sep depth (p :: ps)

theorem Pieces.consFirst {sep c : Char} {depth : Nat} {ps : List (List Char)}
    (hUncut : ¬ (c = sep ∧ depthAfter c depth = 0)) (h : Pieces sep (depthAfter c depth) ps) :
    Pieces sep depth (consFirst c ps) := by
  cases h with
  | last h => exact .last (by rw [settle, if_neg hUncut, h])
  | more h hRest => exact .more (by rw [settle, if_neg hUncut, h]) hRest

section Separator

variable {sep : Char} (hOpen : sep ≠ '(') (hClose : sep ≠ ')')

include hOpen hClose

/-- A separator inside parentheses does not cut. -/
theorem settle_of_covered (front : List Char) {cs : List Char}
    (hOpened : ∀ start, start <+: front ++ cs → start.count ')' ≤ start.count '(')
    (hCovered : ¬ Exposed sep (front ++ cs)) :
    settle sep (front.count '(' - front.count ')') cs =
      some ((front ++ cs).count '(' - (front ++ cs).count ')') := by
  induction cs generalizing front with
  | nil => rw [settle, List.append_nil]
  | cons c cs ih =>
    have hBefore := hOpened front (List.prefix_append front _)
    have hUncut : ¬ (c = sep ∧ depthAfter c (front.count '(' - front.count ')') = 0) := by
      rintro ⟨rfl, hDepth⟩
      rw [depthAfter_of_ne hOpen hClose] at hDepth
      exact hCovered ⟨front, by simp, by omega⟩
    rw [List.append_cons] at hOpened hCovered ⊢
    rw [settle, if_neg hUncut, depthAfter_count hBefore, ih _ hOpened hCovered]

theorem settle_of_balanced {cs : List Char} (h : Balanced cs) (hCovered : ¬ Exposed sep cs) :
    settle sep 0 cs = some 0 := by
  have hSettle := settle_of_covered hOpen hClose [] h.opened hCovered
  rw [List.nil_append, h.closed, Nat.sub_self] at hSettle
  exact hSettle

theorem pieces_piecesAt (depth : Nat) (cs : List Char) : Pieces sep depth (piecesAt sep depth cs) := by
  induction cs generalizing depth with
  | nil => exact .last rfl
  | cons c cs ih =>
    rw [piecesAt]
    split
    · rename_i hCut
      -- The separator is no parenthesis, so all of them are closed in front of it, too.
      obtain ⟨rfl, hDepth⟩ : c = sep ∧ depthAfter c depth = 0 := by simpa using hCut
      rw [depthAfter_of_ne hOpen hClose] at hDepth
      subst hDepth
      rw [depthAfter_of_ne hOpen hClose]
      exact .more rfl (ih 0)
    · rename_i hUncut
      exact (ih _).consFirst (by simpa using hUncut)

/-- Pieces that are joined are cut where they were joined. -/
theorem piecesAt_intercalate {depth : Nat} {ps : List (List Char)} (h : Pieces sep depth ps) :
    piecesAt sep depth ([sep].intercalate ps) = ps := by
  induction h with
  | @last depth after p h =>
    have hPieces := piecesAt_append h []
    rw [List.append_nil] at hPieces
    rw [List.intercalate_singleton, hPieces, piecesAt, foldr_consFirst, List.append_nil]
  | @more depth p ps h hRest ih =>
    have hSeparator : piecesAt sep 0 (sep :: [sep].intercalate ps) = [] :: ps := by
      rw [piecesAt, depthAfter_of_ne hOpen hClose, if_pos (by simp), ih]
    obtain ⟨q, qs, rfl⟩ : ∃ q qs, ps = q :: qs := by
      cases hRest with
      | last => exact ⟨_, _, rfl⟩
      | more => exact ⟨_, _, rfl⟩
    rw [List.intercalate_cons_cons, List.append_assoc, List.singleton_append, piecesAt_append h, hSeparator,
      foldr_consFirst, List.append_nil]

end Separator

/-! ## Trimming -/

/-- The pieces without blanks around them, and without those that are blank. -/
def kept (ps : List (List Char)) : List (List Char) :=
  (ps.map Text.stripChars).filter (!·.isEmpty)

theorem splitTopLevel_eq (sep : Char) (value : String) :
    splitTopLevel sep value = (kept (piecesAt sep 0 value.toList)).map String.ofList :=
  rfl

theorem kept_eq_self {ps : List (List Char)} (h : ∀ p ∈ ps, p ≠ [] ∧ Text.stripChars p = p) : kept ps = ps := by
  have hStrip : ps.map Text.stripChars = ps := by
    rw [List.map_congr_left fun p hp => (h p hp).2, List.map_id']
  rw [kept, hStrip, List.filter_eq_self]
  intro p hp
  simp [(h p hp).1]

theorem of_mem_kept {ps : List (List Char)} {p : List Char} (h : p ∈ kept ps) :
    p ≠ [] ∧ Text.stripChars p = p := by
  obtain ⟨hMem, hNonempty⟩ := List.mem_filter.mp h
  obtain ⟨q, -, rfl⟩ := List.mem_map.mp hMem
  exact ⟨by simpa using hNonempty, Text.stripChars_stripChars q⟩

theorem kept_cons (p : List Char) (ps : List (List Char)) :
    kept (p :: ps) = if Text.stripChars p = [] then kept ps else Text.stripChars p :: kept ps := by
  rw [kept, List.map_cons, List.filter_cons]
  split <;> simp_all [kept]

section Blank

variable {sep : Char} (hBlank : Text.isBlank sep = false)

include hBlank

theorem settle_blanks {bs : List Char} (h : bs.all Text.isBlank = true) (depth : Nat) :
    settle sep depth bs = some depth := by
  induction bs with
  | nil => rfl
  | cons b bs ih =>
    obtain ⟨hFirst, hOthers⟩ := Bool.and_eq_true_iff.mp h
    have hOpen : b ≠ '(' := by
      rintro rfl
      exact absurd hFirst (by decide)
    have hClose : b ≠ ')' := by
      rintro rfl
      exact absurd hFirst (by decide)
    have hUncut : b ≠ sep := by
      rintro rfl
      rw [hFirst] at hBlank
      cases hBlank
    rw [settle, if_neg (fun hCut => hUncut hCut.1), depthAfter_of_ne hOpen hClose, ih hOthers]

theorem settle_stripChars (depth : Nat) (p : List Char) :
    settle sep depth (Text.stripChars p) = settle sep depth p := by
  obtain ⟨front, back, hFront, hBack, hPiece⟩ := Text.exists_blanks_stripChars p
  conv_rhs => rw [hPiece, settle_append, settle_blanks hBlank hFront, Option.bind_some, settle_append]
  cases settle sep depth (Text.stripChars p) with
  | none => rfl
  | some after => exact (settle_blanks hBlank hBack after).symm

/-- What is left of pieces that are trimmed are pieces again, if anything is left. -/
theorem Pieces.kept {depth : Nat} {ps : List (List Char)} (h : Pieces sep depth ps) :
    kept ps = [] ∨ Pieces sep depth (kept ps) := by
  induction h with
  | @last depth after p h =>
    rw [kept_cons]
    split
    · exact .inl rfl
    · exact .inr (.last ((settle_stripChars hBlank depth p).trans h))
  | @more depth p ps h hRest ih =>
    have hPiece := (settle_stripChars hBlank depth p).trans h
    rw [kept_cons]
    split
    · -- A blank piece does not change the depth, so the next one starts where it started.
      rename_i hNothing
      rw [hNothing] at hPiece
      cases hPiece
      exact ih
    · rcases ih with hNone | hSome
      · rw [hNone]
        exact .inr (.last hPiece)
      · exact .inr (.more hPiece hSome)

end Blank

/-! ## Joining and cutting -/

/-- Trimmed pieces that are joined are the parts of the joined value. -/
theorem splitTopLevel_join {sep : Char} (hOpen : sep ≠ '(') (hClose : sep ≠ ')') {ps : List (List Char)}
    (hPieces : ps = [] ∨ Pieces sep 0 ps) (hKept : kept ps = ps) :
    splitTopLevel sep ((String.singleton sep).intercalate (ps.map String.ofList)) = ps.map String.ofList := by
  rw [splitTopLevel_eq, String.toList_intercalate, List.map_map]
  have hText : ps.map (String.toList ∘ String.ofList) = ps := by
    simp [Function.comp_def]
  rw [hText, String.toList_singleton]
  rcases hPieces with rfl | hPieces
  · rfl
  · rw [piecesAt_intercalate hOpen hClose hPieces, hKept]

theorem pieces_of_settled {sep : Char} {ps : List (List Char)} (h : ∀ p ∈ ps, settle sep 0 p = some 0) :
    ps = [] ∨ Pieces sep 0 ps := by
  induction ps with
  | nil => exact .inl rfl
  | cons p ps ih =>
    obtain ⟨hFirst, hOthers⟩ := List.forall_mem_cons.mp h
    rcases ih hOthers with rfl | hPieces
    · exact .inr (.last hFirst)
    · exact .inr (.more hFirst hPieces)

theorem IsPart.stripChars {sep : Char} {part : String} (h : IsPart sep part) :
    part.toList ≠ [] ∧ Text.stripChars part.toList = part.toList := by
  refine ⟨fun hEmpty => h.nonempty (String.toList_eq_nil_iff.mp hEmpty), ?_⟩
  have hTrimmed := congrArg String.toList h.trimmed
  rwa [Text.strip, String.toList_ofList] at hTrimmed

/-- Cutting undoes joining: parts with balanced parentheses and no separator outside them come back,
and so do the parts of any value, whether its parentheses are balanced or not. -/
theorem splitTopLevel_inverts_join (sep : Char) (hOpen : sep ≠ '(') (hClose : sep ≠ ')')
    (hBlank : Text.isBlank sep = false) :
    (∀ parts : List String, (∀ part ∈ parts, IsPart sep part) →
      splitTopLevel sep ((String.singleton sep).intercalate parts) = parts) ∧
    ∀ value : String,
      splitTopLevel sep ((String.singleton sep).intercalate (splitTopLevel sep value)) = splitTopLevel sep value := by
  constructor
  · intro parts h
    have hTexts : (parts.map String.toList).map String.ofList = parts := by simp [Function.comp_def]
    have hSettled : ∀ p ∈ parts.map String.toList, settle sep 0 p = some 0 :=
      List.forall_mem_map.mpr fun part hPart =>
        settle_of_balanced hOpen hClose (h part hPart).balanced (h part hPart).covered
    have hKept : kept (parts.map String.toList) = parts.map String.toList :=
      kept_eq_self (List.forall_mem_map.mpr fun part hPart => (h part hPart).stripChars)
    have hJoin := splitTopLevel_join hOpen hClose (pieces_of_settled hSettled) hKept
    rwa [hTexts] at hJoin
  · intro value
    have hParts := (pieces_piecesAt hOpen hClose 0 value.toList).kept hBlank
    exact splitTopLevel_join hOpen hClose hParts (kept_eq_self fun p hp => of_mem_kept hp)

/-- Two shadows, the first with a colour whose parts are separated, too. -/
def shadowList : List String :=
  ["0 1px rgba(0, (1), 2)", "b"]

/-- The two shadows come back, and so do the parts of a value that closes a parenthesis too many and
leaves one open. -/
theorem shadowList_splits :
    (',' ≠ '(' ∧ ',' ≠ ')' ∧ Text.isBlank ',' = false) ∧ (∀ part ∈ shadowList, IsPart ',' part) ∧
    splitTopLevel ',' ((String.singleton ',').intercalate shadowList) = shadowList ∧
    splitTopLevel ',' ((String.singleton ',').intercalate (splitTopLevel ',' "a), ,b ,(c, d")) =
      splitTopLevel ',' "a), ,b ,(c, d" ∧
    splitTopLevel ',' "a), ,b ,(c, d" = ["a)", "b", "(c, d"] := by
  have hParts : ∀ part ∈ shadowList, IsPart ',' part := by
    simp only [shadowList, List.forall_mem_cons]
    refine ⟨⟨?_, ?_, ?_, ?_⟩, ⟨?_, ?_, ?_, ?_⟩, by simp⟩ <;> decide
  obtain ⟨hJoin, hValue⟩ := splitTopLevel_inverts_join ',' (by decide) (by decide) (by decide)
  exact ⟨⟨by decide, by decide, by decide⟩, hParts, hJoin shadowList hParts, hValue _, by decide⟩

/-! ## Respelling a selector -/

/-- One change of blanks in a selector: a run of them for another, or a run taken away at an end or
beside a joint. -/
inductive Respelled : List Char → List Char → Prop
  | run (front bs bs' back : List Char) (h : bs.all Text.isBlank = true) (h' : bs'.all Text.isBlank = true)
    (hSome : bs ≠ []) (hSome' : bs' ≠ []) : Respelled (front ++ (bs ++ back)) (front ++ (bs' ++ back))
  | start (bs cs : List Char) (h : bs.all Text.isBlank = true) : Respelled (bs ++ cs) cs
  | stop (cs bs : List Char) (h : bs.all Text.isBlank = true) : Respelled (cs ++ bs) cs
  | before (front bs : List Char) (j : Char) (back : List Char) (h : bs.all Text.isBlank = true)
    (hJoint : isJoint j = true) : Respelled (front ++ (bs ++ j :: back)) (front ++ j :: back)
  | behind (front : List Char) (j : Char) (bs back : List Char) (h : bs.all Text.isBlank = true)
    (hJoint : isJoint j = true) : Respelled (front ++ j :: (bs ++ back)) (front ++ j :: back)

/-- What is spelled alike in every gap is spelled alike behind any text. -/
theorem respace_append_congr {cs ds : List Char} (h : ∀ gap, respace gap cs = respace gap ds)
    (front : List Char) (gap : Gap) : respace gap (front ++ cs) = respace gap (front ++ ds) := by
  induction front generalizing gap with
  | nil => exact h gap
  | cons c front ih => simp only [List.cons_append, respace, ih]

theorem Respelled.respace_eq {cs ds : List Char} (h : Respelled cs ds) : respace .tight cs = respace .tight ds := by
  cases h with
  | run front bs bs' back h h' hSome hSome' =>
    refine respace_append_congr (fun gap => ?_) front .tight
    rw [respace_run h hSome, respace_run h' hSome']
  | start bs cs h => exact respace_tight_append h
  | stop cs bs h => exact respace_append_blanks h .tight
  | before front bs j back h hJoint =>
    refine respace_append_congr (fun gap => ?_) front .tight
    cases bs with
    | nil => rfl
    | cons b bs => rw [respace_run h (List.cons_ne_nil b bs), respace_joint hJoint, respace_joint hJoint]
  | behind front j bs back h hJoint =>
    refine respace_append_congr (fun gap => ?_) front .tight
    rw [respace_joint hJoint, respace_joint hJoint, respace_tight_append h]

/-- What stands in front of a place: a text and the blanks that are still owed to it. -/
inductive Gap.Left : Gap → List Char → List Char → Prop
  | first : Left .tight [] []
  | joint (front : List Char) (j : Char) (h : isJoint j = true) : Left .tight (front ++ [j]) []
  | plain (front : List Char) : Left .plain front []
  | owed (front bs : List Char) (h : bs.all Text.isBlank = true) (hSome : bs ≠ []) : Left .owed front bs

open Relation (EqvGen)

theorem Gap.Left.blanks {gap : Gap} {front bs : List Char} (h : gap.Left front bs) : bs.all Text.isBlank = true := by
  cases h with
  | owed _ _ h => exact h
  | _ => rfl

/-- A blank more is taken away behind a joint and owed behind a name. -/
theorem Gap.Left.widen {gap : Gap} {front bs : List Char} (h : gap.Left front bs) {c : Char}
    (hBlank : Text.isBlank c = true) (cs : List Char) :
    ∃ bs', gap.widened.Left front bs' ∧ EqvGen Respelled (front ++ (bs ++ c :: cs)) (front ++ (bs' ++ cs)) := by
  have hAll : [c].all Text.isBlank = true := by simp [hBlank]
  cases h with
  | first => exact ⟨[], .first, .rel _ _ (.start [c] cs hAll)⟩
  | joint front j hJoint =>
    refine ⟨[], .joint front j hJoint, ?_⟩
    simp only [List.append_assoc, List.singleton_append, List.nil_append]
    exact .rel _ _ (.behind front j [c] cs hAll hJoint)
  | plain => exact ⟨[c], .owed front [c] hAll (List.cons_ne_nil c []), .refl _⟩
  | owed front bs h hSome =>
    refine ⟨bs ++ [c], .owed front _ (by simp [h, hBlank]) (by simp), ?_⟩
    rw [List.append_cons bs c cs]
    exact .refl _

/-- A text is respelled into its normal spelling from the left to the right. -/
theorem respelled_respace {gap : Gap} {front bs : List Char} (h : gap.Left front bs) (cs : List Char) :
    EqvGen Respelled (front ++ (bs ++ cs)) (front ++ respace gap cs) := by
  -- `front` is in its normal spelling already, and `bs` are the blanks behind it that `gap` stands for.
  induction cs generalizing gap front bs with
  | nil =>
    rw [respace, List.append_nil, List.append_nil]
    exact .rel _ _ (.stop front bs h.blanks)
  | cons c cs ih =>
    rw [respace]
    split
    · rename_i hBlank
      obtain ⟨bs', hLeft, hStep⟩ := h.widen hBlank cs
      exact hStep.trans _ _ _ (ih hLeft)
    · split
      · rename_i hJoint
        have hStep : EqvGen Respelled (front ++ (bs ++ c :: cs)) (front ++ c :: cs) :=
          .rel _ _ (.before front bs c cs h.blanks hJoint)
        rw [List.append_cons front c cs] at hStep
        rw [List.append_cons front c]
        exact hStep.trans _ _ _ (ih (.joint front c hJoint))
      · have hName (front : List Char) : EqvGen Respelled (front ++ c :: cs) (front ++ c :: respace .plain cs) := by
          rw [List.append_cons front c cs, List.append_cons front c (respace .plain cs)]
          exact ih (.plain (front ++ [c]))
        cases h with
        | first => exact hName []
        | joint front j => exact hName (front ++ [j])
        | plain => exact hName front
        | owed front bs h hSome =>
          have hBlank : [' '].all Text.isBlank = true := by decide
          have hStep := Respelled.run front bs [' '] (c :: cs) h hBlank hSome (List.cons_ne_nil _ _)
          have hRest := hName (front ++ [' '])
          rw [List.append_assoc, List.append_assoc] at hRest
          exact .trans _ _ _ (.rel _ _ hStep) hRest

theorem respace_eq_of_respelled {cs ds : List Char} (h : EqvGen Respelled cs ds) :
    respace .tight cs = respace .tight ds := by
  induction h with
  | rel cs ds h => exact h.respace_eq
  | refl cs => rfl
  | symm cs ds h ih => exact ih.symm
  | trans cs ds es h h' ih ih' => exact ih.trans ih'

/-- The normal spelling is its own normal spelling, and two selectors have one normal spelling exactly
if blanks can be changed, where they mean nothing, so that one becomes the other. -/
theorem normalizeSelector_canonical (s : String) :
    normalizeSelector (normalizeSelector s) = normalizeSelector s ∧
    ∀ t : String, normalizeSelector t = normalizeSelector s ↔ EqvGen Respelled s.toList t.toList := by
  have hNormal (cs : List Char) : EqvGen Respelled cs (respace .tight cs) := respelled_respace .first cs
  simp only [normalizeSelector_eq, String.toList_ofList, String.ofList_inj]
  refine ⟨(respace_eq_of_respelled (hNormal _)).symm, fun t => ⟨fun h => ?_, fun h => ?_⟩⟩
  · exact (hNormal _).trans _ _ _ (h ▸ (hNormal t.toList).symm)
  · exact (respace_eq_of_respelled h).symm

end WebAudit.Stylesheet
