import WebAudit.Markup.Event

/-!
# What a step of the page reader finds

Outside raw text a step finds a start tag, or something that opens nothing. Inside the raw text of an
element it finds characters of the page as they stand, or the end tag of the element; or it waits.
-/

namespace WebAudit.Markup

def Event.opens : Event → Bool
  | .opened _ _ => true
  | .closed _ => false
  | .text _ => false
  | .section _ => false
  | .hidden => false

inductive OutsideStep (place : Place) (cs : List Char) (s : Step) : Prop
  | opens {name : String} {attributes : List (String × String)} {selfClosing : Bool}
    (hTag : startTag cs = .tag name attributes selfClosing s.length)
    (hEvents : s.events = [.opened ⟨name, attributes, place.line, place.offset⟩ selfClosing])
    (hMode : s.mode = if !selfClosing && rawElements.contains name then some name else none)
  | other (hEvents : ∀ e ∈ s.events, e.opens = false) (hMode : s.mode = none)

inductive RawStep (name : String) (cs : List Char) (s : Step) : Prop
  | text (hEvents : s.events = [.text (cs.take s.length)]) (hMode : s.mode = some name)
  | closed (hEvents : s.events = [.closed name]) (hMode : s.mode = none)
  | waits (hEvents : s.events = []) (hLength : s.length = 0) (hMode : s.mode = some name)

variable {final : Bool} {place : Place} {cs : List Char} {s : Step}

/-! ## Outside raw text -/

theorem outsideStep_wait : OutsideStep place cs (.wait none) :=
  .other (by simp [Step.wait]) rfl

theorem outsideStep_take {e : Event} {length : Nat} (h : e.opens = false) :
    OutsideStep place cs (.take [e] length) := by
  refine .other ?_ rfl
  intro e' he'
  rw [List.mem_singleton.mp he']
  exact h

theorem outsideStep_openStep (h : openStep place cs = some s) : OutsideStep place cs s := by
  unfold openStep at h
  split at h
  · rename_i hTag
    cases h
    exact .opens hTag rfl rfl
  · cases h
    exact outsideStep_take rfl
  · cases h

theorem outsideStep_endTag (h : endTag none cs = some s) : OutsideStep place cs s := by
  unfold endTag at h
  split at h
  · cases h
  · dsimp only at h
    split at h
    · cases h
      exact outsideStep_take rfl
    · rw [if_neg (by simp)] at h
      split at h
      · cases h
        exact outsideStep_take rfl
      · split at h
        · cases h
          exact .other (by simp [Step.take]) rfl
        · cases h
          exact outsideStep_take rfl

theorem outsideStep_markedSection (h : markedSection cs = .ok (some s)) : OutsideStep place cs s := by
  unfold markedSection at h
  dsimp only at h
  split at h
  · cases h
  · split at h
    · cases h
    · split at h
      · cases h
      · split at h
        · cases h
        · split at h
          · cases h
          · cases h
            refine outsideStep_take ?_
            split <;> rfl

theorem outsideStep_declaration (h : declaration cs = .ok (some s)) : OutsideStep place cs s := by
  unfold declaration at h
  split at h
  · rw [Except.ok.injEq, Option.map_eq_some_iff] at h
    obtain ⟨n, -, rfl⟩ := h
    exact outsideStep_take rfl
  · split at h
    · exact outsideStep_markedSection h
    · rw [Except.ok.injEq, Option.map_eq_some_iff] at h
      obtain ⟨n, -, rfl⟩ := h
      exact outsideStep_take rfl

/-- A construct that is unfinished becomes text, or the reader waits. -/
theorem outsideStep_unfinished :
    OutsideStep place cs (if final then asText none cs else .wait none) := by
  cases final with
  | true => exact outsideStep_take rfl
  | false => exact outsideStep_wait

theorem outsideStep_markupStep (h : markupStep final none place cs = .ok s) : OutsideStep place cs s := by
  unfold markupStep at h
  dsimp only at h
  split at h
  · split at h
    · cases h
      split
      · rename_i hOpen
        exact outsideStep_openStep hOpen
      · exact outsideStep_unfinished
    · split at h
      · cases h
        split
        · rename_i hEnd
          exact outsideStep_endTag hEnd
        · exact outsideStep_unfinished
      · split at h
        · rename_i c rest _ _ _
          cases hDeclaration : declaration ('<' :: c :: rest) with
          | error rejection =>
            rw [hDeclaration] at h
            cases h
          | ok found =>
            rw [hDeclaration] at h
            cases h
            cases found with
            | some found => exact outsideStep_declaration hDeclaration
            | none => exact outsideStep_unfinished
        · split at h
          · cases h
            split
            · rename_i hFound
              obtain ⟨n, -, rfl⟩ := Option.map_eq_some_iff.mp hFound
              exact outsideStep_take rfl
            · exact outsideStep_unfinished
          · cases h
            exact outsideStep_take rfl
  · cases h
    exact outsideStep_wait

theorem outsideStep_textNumber (h : textNumber cs = some s) : OutsideStep place cs s := by
  unfold textNumber at h
  dsimp only at h
  split at h
  · split at h
    · split at h
      · cases h
      · cases h
        exact outsideStep_take rfl
    · split at h
      · cases h
      · cases h
        exact outsideStep_take rfl
  · cases h

theorem outsideStep_textReference : OutsideStep place cs (textReference final cs) := by
  unfold textReference
  split
  · split
    · rename_i hNumber
      exact outsideStep_textNumber hNumber
    · split
      · exact .other (by simp [Event.opens]) rfl
      · exact outsideStep_wait
  · split
    · exact outsideStep_take rfl
    · split
      · split
        · split
          · exact .other (by simp) rfl
          · exact outsideStep_wait
        · exact outsideStep_take rfl
      · exact outsideStep_wait

theorem outsideStep (h : step final none place cs = .ok s) : OutsideStep place cs s := by
  unfold step at h
  dsimp only at h
  split at h
  · exact outsideStep_markupStep h
  · cases h
    exact outsideStep_textReference
  · cases h
    exact outsideStep_take rfl

/-! ## In raw text -/

variable {name : String}

theorem rawText_isPrefix {raw : List Char} {word : List Char} (h : rawText word cs = some raw) :
    raw <+: cs := by
  induction cs generalizing raw with
  | nil => cases h
  | cons c cs ih =>
    rw [rawText] at h
    split at h
    · cases h
      exact List.nil_prefix
    · obtain ⟨rest, hRest, rfl⟩ := Option.map_eq_some_iff.mp h
      exact List.cons_prefix_cons.mpr ⟨rfl, ih hRest⟩

/-- Raw text ends in front of an end tag. -/
theorem eq_of_rawText_nil {word : List Char} (h : rawText word cs = some []) :
    ∃ rest, cs = '<' :: '/' :: rest := by
  cases cs with
  | nil => cases h
  | cons c cs =>
    rw [rawText] at h
    split at h
    · rename_i hCloses
      unfold closesRaw at hCloses
      split at hCloses
      · rename_i rest hEq
        exact ⟨rest, hEq⟩
      · cases hCloses
    · obtain ⟨rest, -, hCons⟩ := Option.map_eq_some_iff.mp h
      cases hCons

theorem rawStep_text {length : Nat} : RawStep name cs (.take [.text (cs.take length)] length (some name)) :=
  .text rfl rfl

theorem rawStep_endTag (h : endTag (some name) cs = some s) : RawStep name cs s := by
  unfold endTag at h
  split at h
  · cases h
  · dsimp only at h
    split at h
    · rename_i found _
      split at h
      · cases h
        exact rawStep_text
      · rename_i hSame
        cases h
        have hName : name = found := by simpa using hSame
        rw [hName]
        exact .closed rfl rfl
    · rw [if_pos (Option.isSome_some)] at h
      cases h
      exact rawStep_text

theorem rawStep (h : step final (some name) place cs = .ok s) : RawStep name cs s := by
  unfold step at h
  dsimp only at h
  split at h
  · cases h
    exact .waits rfl rfl rfl
  · rename_i hRaw
    obtain ⟨rest, rfl⟩ := eq_of_rawText_nil hRaw
    -- an end tag is neither of the other constructs
    have hStep : s = (endTag (some name) ('<' :: '/' :: rest)).getD
        (if final then asText (some name) ('<' :: '/' :: rest) else .wait (some name)) := by
      cases h
      cases endTag (some name) ('<' :: '/' :: rest) with
      | some found => rfl
      | none => rfl
    cases hEnd : endTag (some name) ('<' :: '/' :: rest) with
    | some found =>
      rw [hStep, hEnd]
      exact rawStep_endTag hEnd
    | none =>
      rw [hStep, hEnd]
      cases final with
      | true => exact rawStep_text
      | false => exact .waits rfl rfl rfl
  · rename_i raw _ hRaw
    cases h
    refine .text ?_ rfl
    rw [Step.take, List.prefix_iff_eq_take.mp (rawText_isPrefix hRaw)]
    simp

end WebAudit.Markup
