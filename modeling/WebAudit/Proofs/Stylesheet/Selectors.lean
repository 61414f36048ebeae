import WebAudit.Proofs.Text.Words
import WebAudit.Stylesheet.Checks

/-!
# What the checks see of a selector

A selector is written as a list of parts. The checks look at what is left when everything from an
opening bracket to the next closing one is taken out, quoted or not. Main statement: they see the
characters outside the attributes, and of a quoted value those whose nearest bracket closes.
-/

namespace WebAudit.Stylesheet

/-! ## Written selectors -/

structure QuotedAttribute where
  /-- The name and the comparison, up to the quote. -/
  head : List Char
  quote : Char
  value : List Char
  /-- What follows the value, such as the letter that makes the comparison blind to case. -/
  tail : List Char := []
  isPlain_head : head.all (fun c => c != ']' && c != '"' && c != '\'') = true := by decide
  isQuote : quote = '"' ∨ quote = '\'' := by decide
  quote_notMem : quote ∉ value := by decide
  isPlain_tail : tail.all (fun c => Text.isBlank c || Text.isWordChar c) = true := by decide

theorem QuotedAttribute.closing_notMem_head (a : QuotedAttribute) : ']' ∉ a.head := by
  intro h
  exact absurd (List.all_eq_true.mp a.isPlain_head ']' h) (by decide)

def QuotedAttribute.ending (a : QuotedAttribute) : List Char :=
  a.quote :: a.tail

inductive SelectorPart where
  /-- Types, classes, the universal part, combinators. -/
  | plain (text : List Char) (opening_notMem : '[' ∉ text)
  /-- An attribute without a quoted value. -/
  | bare (head : List Char) (closing_notMem : ']' ∉ head)
  | quoted (a : QuotedAttribute)

namespace SelectorPart

def text : SelectorPart → List Char
  | plain text _ => text
  | bare head _ => '[' :: (head ++ [']'])
  | quoted a => '[' :: (a.head ++ a.quote :: (a.value ++ (a.ending ++ [']'])))

def outside : SelectorPart → List Char
  | plain text _ => text
  | bare _ _ => []
  | quoted _ => []

def values : SelectorPart → List (List Char)
  | plain _ _ => []
  | bare _ _ => []
  | quoted a => [a.value]

end SelectorPart

structure WrittenSelector where
  parts : List SelectorPart

namespace WrittenSelector

def text (s : WrittenSelector) : String :=
  String.ofList (s.parts.flatMap SelectorPart.text)

def outside (s : WrittenSelector) : List Char :=
  s.parts.flatMap SelectorPart.outside

def values (s : WrittenSelector) : List (List Char) :=
  s.parts.flatMap SelectorPart.values

end WrittenSelector

/-- The characters whose nearest bracket in front of them closes. `closed` tells so of the bracket in
front of the whole text. -/
def looseFrom : Bool → List Char → List Char
  | _, [] => []
  | closed, c :: cs =>
    let rest := looseFrom (c == ']' || (closed && c != '[')) cs
    if closed then c :: rest else rest

/-- What shows of a value. Nothing closes in front of its first bracket. -/
def loose (value : List Char) : List Char :=
  looseFrom false value

theorem looseFrom_true_cons {c : Char} (h : c ≠ '[') (v : List Char) :
    looseFrom true (c :: v) = c :: looseFrom true v := by
  have hClosed : (c == ']' || (true && c != '[')) = true := by simp [h]
  rw [looseFrom, hClosed]
  rfl

theorem looseFrom_false_cons {c : Char} (h : c ≠ ']') (v : List Char) :
    looseFrom false (c :: v) = looseFrom false v := by
  rw [looseFrom, beq_false_of_ne h]
  rfl

theorem mem_looseFrom_append {c : Char} (a : List Char) {v : List Char} {closed : Bool}
    (h : ∀ closed, c ∈ looseFrom closed v) : c ∈ looseFrom closed (a ++ v) := by
  induction a generalizing closed with
  | nil => exact h closed
  | cons x a ih =>
    rw [List.cons_append, looseFrom]
    split
    · exact List.mem_cons_of_mem _ ih
    · exact ih

theorem mem_looseFrom_true {c : Char} {b : List Char} (h : '[' ∉ b) (d : List Char) :
    c ∈ looseFrom true (b ++ c :: d) := by
  induction b with
  | nil => exact List.mem_cons_self
  | cons x b ih =>
    obtain ⟨hx, hb⟩ := not_or.mp (mt List.mem_cons.mpr h)
    rw [List.cons_append, looseFrom_true_cons (Ne.symm hx)]
    exact List.mem_cons_of_mem _ (ih hb)

theorem of_mem_looseFrom {c : Char} {closed : Bool} {v : List Char} (h : c ∈ looseFrom closed v) :
    (closed = true ∧ ∃ b d, v = b ++ c :: d ∧ '[' ∉ b) ∨
      ∃ a b d, v = a ++ ']' :: (b ++ c :: d) ∧ '[' ∉ b := by
  induction v generalizing closed with
  | nil => cases h
  | cons x v ih =>
    have hCases : (closed = true ∧ c = x) ∨
        c ∈ looseFrom (x == ']' || (closed && x != '[')) v := by
      rw [looseFrom] at h
      split at h
      · rename_i hClosed
        exact (List.mem_cons.mp h).imp (fun e => ⟨hClosed, e⟩) id
      · exact .inr h
    rcases hCases with ⟨hClosed, rfl⟩ | hRest
    · exact .inl ⟨hClosed, [], v, rfl, List.not_mem_nil⟩
    · rcases ih hRest with ⟨hClosed, b, d, rfl, hb⟩ | ⟨a, b, d, rfl, hb⟩
      · by_cases hClosing : x = ']'
        · exact .inr ⟨[], b, d, by rw [hClosing]; rfl, hb⟩
        · obtain ⟨hStart, hOpening⟩ : closed = true ∧ x ≠ '[' := by simpa [hClosing] using hClosed
          refine .inl ⟨hStart, x :: b, d, rfl, ?_⟩
          simp [hb, Ne.symm hOpening]
      · exact .inr ⟨x :: a, b, d, rfl, hb⟩

theorem mem_loose_iff {c : Char} {v : List Char} :
    c ∈ loose v ↔ ∃ a b d, v = a ++ ']' :: (b ++ c :: d) ∧ '[' ∉ b := by
  constructor
  · intro h
    exact (of_mem_looseFrom h).resolve_left fun hStart => Bool.false_ne_true hStart.1
  · rintro ⟨a, b, d, rfl, hb⟩
    apply mem_looseFrom_append
    intro closed
    rw [looseFrom]
    split
    · exact List.mem_cons_of_mem _ (mem_looseFrom_true hb d)
    · exact mem_looseFrom_true hb d

theorem loose_eq_nil {v : List Char} (h : ']' ∉ v) : loose v = [] := by
  rw [List.eq_nil_iff_forall_not_mem]
  intro c hc
  obtain ⟨a, b, d, rfl, -⟩ := mem_loose_iff.mp hc
  simp at h

/-! ## What is left of a selector -/

theorem dropAttributes_append {p : List Char} (h : '[' ∉ p) (rest : List Char) :
    dropAttributes (p ++ rest) = p ++ dropAttributes rest := by
  induction p with
  | nil => rfl
  | cons c p ih =>
    obtain ⟨hc, hp⟩ := not_or.mp (mt List.mem_cons.mpr h)
    rw [List.cons_append, dropAttributes, if_neg (by simpa using Ne.symm hc), ih hp, List.cons_append]

theorem dropAttributes_bracket {p : List Char} (h : ']' ∉ p) (rest : List Char) :
    dropAttributes ('[' :: (p ++ ']' :: rest)) = dropAttributes rest := by
  have hDrop : (p ++ ']' :: rest).dropWhile (· != ']') = ']' :: rest := by
    rw [List.dropWhile_append_of_pos (fun c hc => by simpa using ne_of_mem_of_not_mem hc h)]
    rfl
  rw [dropAttributes]
  simp only [beq_self_eq_true, if_true]
  split
  · rename_i heq
    rw [hDrop] at heq
    cases heq
    rfl
  · rename_i heq
    rw [hDrop] at heq
    cases heq

/-- Whether a character is one that never follows a quoted value inside the brackets. -/
def isSign (c : Char) : Bool :=
  c != '"' && c != '\'' && !(Text.isBlank c || Text.isWordChar c)

theorem QuotedAttribute.notMem_ending (a : QuotedAttribute) {c : Char} (h : isSign c = true) : c ∉ a.ending := by
  simp only [isSign, Bool.and_eq_true, bne_iff_ne, Bool.not_eq_true'] at h
  obtain ⟨⟨hDouble, hSingle⟩, hPlain⟩ := h
  intro hMem
  rcases List.mem_cons.mp hMem with rfl | hTail
  · exact a.isQuote.elim hDouble hSingle
  · rw [List.all_eq_true.mp a.isPlain_tail c hTail] at hPlain
    cases hPlain

section Seen

variable {c : Char} (hSign : isSign c = true) (hOpening : c ≠ '[') (hClosing : c ≠ ']')
include hSign hOpening hClosing

-- Outside a bracket and inside one in one induction: a value may open and close brackets at will.
theorem count_dropAttributes_value (a : QuotedAttribute) (v rest : List Char) :
    (dropAttributes (v ++ (a.ending ++ ']' :: rest))).count c =
        (looseFrom true v).count c + (dropAttributes rest).count c ∧
      ∀ p, ']' ∉ p → (dropAttributes ('[' :: (p ++ (v ++ (a.ending ++ ']' :: rest))))).count c =
        (looseFrom false v).count c + (dropAttributes rest).count c := by
  have hEnd : ']' ∉ a.ending := a.notMem_ending (by decide)
  have hStart : '[' ∉ a.ending ++ [']'] := by simp [a.notMem_ending (show isSign '[' = true by decide)]
  induction v with
  | nil =>
    constructor
    · have hCount : (a.ending ++ [']']).count c = 0 := by
        simp [List.count_eq_zero, a.notMem_ending hSign, hClosing]
      rw [List.nil_append, List.append_cons, dropAttributes_append hStart, List.count_append, hCount]
      rfl
    · intro p hp
      rw [List.nil_append, ← List.append_assoc, dropAttributes_bracket (by simp [hp, hEnd])]
      exact (Nat.zero_add _).symm
  | cons x v ih =>
    obtain ⟨ihOutside, ihInside⟩ := ih
    constructor
    · by_cases hx : x = '['
      · rw [hx, List.cons_append, looseFrom]
        have hInside := ihInside [] List.not_mem_nil
        simpa [List.count_cons, Ne.symm hOpening] using hInside
      · rw [looseFrom_true_cons hx, List.cons_append, ← List.singleton_append,
          dropAttributes_append (by simpa using Ne.symm hx), List.singleton_append, List.count_cons,
          List.count_cons, ihOutside]
        omega
    · intro p hp
      by_cases hx : x = ']'
      · rw [hx, List.cons_append, dropAttributes_bracket hp, ihOutside]
        rfl
      · rw [looseFrom_false_cons hx, List.cons_append, List.append_cons]
        apply ihInside
        simpa [hp] using Ne.symm hx

theorem count_dropAttributes_part (part : SelectorPart) (rest : List Char) :
    (dropAttributes (part.text ++ rest)).count c =
      part.outside.count c + (part.values.flatMap loose).count c + (dropAttributes rest).count c := by
  cases part with
  | plain text h => simp [SelectorPart.text, SelectorPart.outside, SelectorPart.values, dropAttributes_append h]
  | bare head h =>
    have hText : (SelectorPart.bare head h).text ++ rest = '[' :: (head ++ ']' :: rest) := by
      simp [SelectorPart.text]
    rw [hText, dropAttributes_bracket h]
    simp [SelectorPart.outside, SelectorPart.values]
  | quoted a =>
    have hText : (SelectorPart.quoted a).text ++ rest =
        '[' :: ((a.head ++ [a.quote]) ++ (a.value ++ (a.ending ++ ']' :: rest))) := by
      simp [SelectorPart.text]
    have hQuote : a.quote ≠ ']' :=
      ne_of_mem_of_not_mem List.mem_cons_self (a.notMem_ending (show isSign ']' = true by decide))
    have hHead : ']' ∉ a.head ++ [a.quote] := by simp [a.closing_notMem_head, Ne.symm hQuote]
    rw [hText, (count_dropAttributes_value hSign hOpening hClosing a a.value rest).2 _ hHead]
    simp [SelectorPart.outside, SelectorPart.values, loose]

/-- The characters outside the attributes are seen, and the loose ones of the values. -/
theorem count_dropAttributes (s : WrittenSelector) :
    (dropAttributes s.text.toList).count c = s.outside.count c + (s.values.flatMap loose).count c := by
  obtain ⟨parts⟩ := s
  rw [WrittenSelector.text, String.toList_ofList]
  induction parts with
  | nil => simp [WrittenSelector.outside, WrittenSelector.values, dropAttributes]
  | cons part parts ih =>
    rw [List.flatMap_cons, count_dropAttributes_part hSign hOpening hClosing, ih]
    simp only [WrittenSelector.outside, WrittenSelector.values, List.flatMap_cons, List.flatMap_append,
      List.count_append]
    omega

end Seen

/-! ## The checks -/

namespace StyleRule

def seenDepth (s : WrittenSelector) : Nat :=
  s.outside.count '>' + (s.values.flatMap loose).count '>'

theorem childDepth_written (s : WrittenSelector) : childDepth s.text = seenDepth s :=
  count_dropAttributes (by decide) (by decide) (by decide) s

theorem isUniversal_written_iff (s : WrittenSelector) :
    isUniversal s.text = true ↔
      '*' ∈ s.outside ∨ ∃ v ∈ s.values, ∃ a b d, v = a ++ ']' :: (b ++ '*' :: d) ∧ '[' ∉ b := by
  have hCount : (dropAttributes s.text.toList).count '*' = _ :=
    count_dropAttributes (by decide) (by decide) (by decide) s
  have hMem : '*' ∈ dropAttributes s.text.toList ↔
      '*' ∈ s.outside ∨ '*' ∈ s.values.flatMap loose := by
    rw [← List.count_pos_iff, hCount, ← List.count_pos_iff, ← List.count_pos_iff]
    omega
  rw [isUniversal, List.contains_iff_mem, hMem, List.mem_flatMap]
  simp only [mem_loose_iff]

theorem universalSelector_ne_nil_iff (r : StyleRule) :
    r.universalSelector ≠ [] ↔ ∃ s ∈ r.selectors, isUniversal s = true := by
  rw [← List.find?_isSome, universalSelector]
  cases r.selectors.find? isUniversal <;> simp

/-- A star counts if it stands outside of the attributes of a selector, or behind a bracket inside of a value, which is
where a value is taken to end. Combinators are counted in the same way, and every selector with too many of them is
reported. Where no value holds a bracket, what stands outside decides alone. -/
theorem selector_hits_outside_or_loose (r : StyleRule) (selectors : List WrittenSelector)
    (h : r.selectors = selectors.map (·.text)) :
    (r.universalSelector ≠ [] ↔ ∃ s ∈ selectors, '*' ∈ s.outside ∨
      ∃ v ∈ s.values, ∃ a b d, v = a ++ ']' :: (b ++ '*' :: d) ∧ '[' ∉ b) ∧
    r.deepSelectors = (selectors.filter fun s => maxChildCombinators < seenDepth s).map (fun s =>
      r.hit ("Selector " ++ Text.quote s.text ++ " chains " ++ toString (seenDepth s) ++
        " child combinators (limit " ++ toString maxChildCombinators ++ ").")) ∧
    ∀ s ∈ selectors, (∀ v ∈ s.values, ']' ∉ v) →
      (isUniversal s.text = true ↔ '*' ∈ s.outside) ∧
        childDepth s.text = s.outside.count '>' := by
  refine ⟨?_, ?_, ?_⟩
  · rw [universalSelector_ne_nil_iff, h]
    simp only [List.mem_map, exists_exists_and_eq_and, isUniversal_written_iff]
  · rw [deepSelectors, h, List.filter_map, List.map_map]
    simp only [Function.comp_def, childDepth_written]
  · intro s _ hValues
    have hLoose : s.values.flatMap loose = [] :=
      List.flatMap_eq_nil_iff.mpr fun v hv => loose_eq_nil (hValues v hv)
    constructor
    · rw [isUniversal_written_iff, or_iff_left]
      rintro ⟨v, hv, a, b, d, rfl, -⟩
      exact hValues _ hv (by simp)
    · rw [childDepth_written, seenDepth, hLoose, List.count_nil, Nat.add_zero]

def starInValue : WrittenSelector where
  parts := [.plain "ul > a".toList (by decide),
    .quoted { head := "title=".toList, quote := '"', value := "*>".toList }, .plain " > b".toList (by decide)]

def bracketInValue : WrittenSelector where
  parts := [.plain "a".toList (by decide), .quoted { head := "title=".toList, quote := '"', value := "]*".toList }]

def mixedRule : StyleRule :=
  { selectorText := "", selectors := [starInValue.text, bracketInValue.text] }

theorem mixedRule_hits :
    mixedRule.selectors = [starInValue, bracketInValue].map (·.text) ∧ mixedRule.universalSelector ≠ [] ∧
      mixedRule.deepSelectors = [] ∧ isUniversal starInValue.text = false ∧
        childDepth starInValue.text = 2 := by
  obtain ⟨hUniversal, hDeep, hUnseen⟩ :=
    selector_hits_outside_or_loose mixedRule [starInValue, bracketInValue] rfl
  obtain ⟨hStar, hDepth⟩ := hUnseen starInValue List.mem_cons_self (by decide)
  have hLoose : ∃ v ∈ bracketInValue.values, ∃ a b d, v = a ++ ']' :: (b ++ '*' :: d) ∧ '[' ∉ b :=
    ⟨"]*".toList, by decide, [], [], [], rfl, List.not_mem_nil⟩
  refine ⟨rfl, hUniversal.mpr ⟨bracketInValue, by simp, .inr hLoose⟩, hDeep, ?_, hDepth⟩
  exact Bool.eq_false_iff.mpr (mt hStar.mp (by decide))

theorem bracketInValue_seen :
    '*' ∉ bracketInValue.outside ∧
      ({ selectorText := "", selectors := [bracketInValue.text] } : StyleRule).universalSelector ≠ [] := by
  refine ⟨by decide, (universalSelector_ne_nil_iff _).mpr ⟨_, List.mem_singleton_self _, ?_⟩⟩
  exact (isUniversal_written_iff _).mpr (.inr ⟨"]*".toList, by decide, [], [], [], rfl, List.not_mem_nil⟩)

end StyleRule

end WebAudit.Stylesheet
