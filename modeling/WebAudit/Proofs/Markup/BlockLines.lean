import WebAudit.Analysis.Outcome
import WebAudit.Proofs.Markup.Verbatim
import WebAudit.Proofs.Text.Newlines

/-!
# Lines of inline blocks

The line of the page on which an inline block starts is taken from the first `>` behind the start of its tag.
That is the line on which the start tag ends, unless an attribute value with a `>` in it goes on over a line
break.
-/

namespace WebAudit.Markup

/-! ## Start tags -/

/-- A start tag ends with `>`. -/
theorem startTag_take {cs : List Char} {name : String} {attributes : List (String × String)}
    {selfClosing : Bool} {length : Nat} (h : startTag cs = .tag name attributes selfClosing length) :
    ∃ front, cs.take length = front ++ ['>'] ∧ length ≤ cs.length := by
  have hEnd : ∀ {k : Nat} {rest : List Char}, cs.drop k = '>' :: rest →
      cs.take (k + 1) = cs.take k ++ ['>'] ∧ k + 1 ≤ cs.length := by
    intro k rest hDrop
    have hLength := congrArg List.length hDrop
    rw [List.length_drop, List.length_cons] at hLength
    refine ⟨?_, by omega⟩
    rw [List.take_add, hDrop]
    rfl
  unfold startTag at h
  dsimp only at h
  split at h
  · rename_i hHead
    obtain ⟨-, -, -, rfl⟩ := TagStart.tag.inj h
    obtain ⟨rest, hBody⟩ := List.head?_eq_some_iff.mp (beq_iff_eq.mp hHead)
    rw [List.drop_drop] at hBody
    obtain ⟨hTake, hLength⟩ := hEnd hBody
    exact ⟨_, hTake, hLength⟩
  · split at h
    · cases h
    · rename_i rest hBody
      obtain ⟨-, -, -, rfl⟩ := TagStart.tag.inj h
      rw [List.drop_drop, List.drop_drop, ← Nat.add_assoc] at hBody
      obtain ⟨hTake, hLength⟩ := hEnd hBody
      exact ⟨_, hTake, hLength⟩
    · rename_i rest hBody
      obtain ⟨-, -, -, rfl⟩ := TagStart.tag.inj h
      rw [List.drop_drop, List.drop_drop, ← Nat.add_assoc] at hBody
      have hBehind := congrArg List.tail hBody
      rw [List.tail_drop, List.tail_cons] at hBehind
      obtain ⟨hTake, hLength⟩ := hEnd hBehind
      exact ⟨_, hTake, hLength⟩
    · split at h <;> cases h

/-! ## Reading and building -/

/-- What reading has come to: the characters that are left, and the tree so far. -/
structure Reads (source : List Char) (mode : Option String) (place : Place) (cs : List Char)
    (b : Builder) : Prop where
  left : source.drop place.offset = cs
  outside : mode = none → b.Outside source
  inside : ∀ name, mode = some name → ∃ tag opening, tag.name = name ∧ b.RawOpen source tag ∧
    source.drop tag.offset = opening ++ b.pending.reverse ++ cs ∧
    startTag (source.drop tag.offset) = .tag tag.name tag.attributes false opening.length

variable {source cs : List Char} {mode : Option String} {place : Place} {b : Builder} {final : Bool}

theorem Reads.left_after (h : Reads source mode place cs b) (length : Nat) :
    source.drop (place.after (cs.take length)).offset = cs.drop length := by
  rw [Place.after, ← List.drop_drop, h.left]
  simp [List.length_take]

theorem Reads.step {s : Step} (h : Reads source mode place cs b)
    (hStep : step final mode place cs = .ok s) :
    Reads source s.mode (place.after (cs.take s.length)) (cs.drop s.length)
      (s.events.foldl Builder.take b) := by
  cases mode with
  | none =>
    have hOutside := h.outside rfl
    cases outsideStep hStep with
    | opens hTag hEvents hMode =>
      rename_i name attributes selfClosing
      rw [hEvents, hMode]
      split
      · rename_i hRaw
        obtain ⟨hOpen, hName⟩ := Bool.and_eq_true_iff.mp hRaw
        obtain rfl : selfClosing = false := by simpa using hOpen
        let tag : Tag := ⟨name, attributes, place.line, place.offset⟩
        have hTagName : rawElements.contains tag.name = true := hName
        obtain ⟨hRawOpen, hPending⟩ := hOutside.take_raw hTagName
        obtain ⟨-, -, hLength⟩ := startTag_take hTag
        refine ⟨h.left_after _, fun hNone => (nomatch hNone), ?_⟩
        intro other hOther
        cases hOther
        refine ⟨_, cs.take s.length, rfl, hRawOpen, ?_, ?_⟩
        · rw [List.foldl_cons, List.foldl_nil, hPending, List.reverse_nil, List.append_nil,
            List.take_append_drop]
          exact h.left
        · rw [List.length_take, Nat.min_eq_left hLength]
          exact h.left ▸ hTag
      · rename_i hPlain
        exact ⟨h.left_after _, fun _ => hOutside.take_opened (Bool.eq_false_iff.mpr hPlain),
          fun _ hSome => nomatch hSome⟩
    | other hEvents hMode =>
      rw [hMode]
      exact ⟨h.left_after _, fun _ => hOutside.take_all hEvents, fun _ hSome => nomatch hSome⟩
  | some name =>
    obtain ⟨tag, opening, rfl, hRawOpen, hSource, hTag⟩ := h.inside name rfl
    cases rawStep hStep with
    | text hEvents hMode =>
      rw [hEvents, hMode]
      refine ⟨h.left_after _, fun hNone => (nomatch hNone), ?_⟩
      intro other hOther
      cases hOther
      refine ⟨tag, opening, rfl, hRawOpen.take_text _, ?_, hTag⟩
      rw [hSource]
      simp [Builder.take]
    | closed hEvents hMode =>
      rw [hEvents, hMode]
      refine ⟨h.left_after _, fun _ => ?_, fun _ hSome => nomatch hSome⟩
      exact hRawOpen.endTag (.inr ⟨opening, cs, hSource, hTag⟩)
    | waits hEvents hLength hMode =>
      rw [hEvents, hMode, hLength]
      exact ⟨h.left_after _, h.outside, h.inside⟩

theorem Reads.readFrom {fuel : Nat} {r : Reading} (h : Reads source mode place cs b)
    (hRead : readFrom fuel final mode place cs = .ok r) :
    Reads source r.mode r.place r.rest (r.events.foldl Builder.take b) := by
  induction fuel generalizing mode place cs b r with
  | zero =>
    cases hRead
    exact h
  | succ fuel ih =>
    rw [Markup.readFrom] at hRead
    split at hRead
    · rename_i hEmpty
      cases hRead
      rw [List.isEmpty_iff.mp hEmpty] at h
      exact h
    · cases hStep : Markup.step final mode place cs with
      | error rejection =>
        rw [hStep] at hRead
        cases hRead
      | ok s =>
        rw [hStep] at hRead
        dsimp only [bind, Except.bind] at hRead
        have hNext := h.step hStep
        split at hRead
        · cases hMore : Markup.readFrom fuel final s.mode (place.after (cs.take s.length))
              (cs.drop s.length) with
          | error rejection =>
            rw [hMore] at hRead
            cases hRead
          | ok more =>
            rw [hMore] at hRead
            cases hRead
            have hRest := ih hNext hMore
            rw [← List.foldl_append] at hRest
            exact hRest
        · cases hRead
          exact hNext

theorem reads_start (source : List Char) : Reads source none {} source {} where
  left := rfl
  outside _ := by constructor <;> simp
  inside _ hSome := nomatch hSome

theorem Reads.verbatim_nodes (h : Reads source mode place cs b) : ∀ n ∈ b.nodes, n.Verbatim source := by
  cases mode with
  | none => exact (h.outside rfl).verbatim_nodes
  | some name =>
    obtain ⟨tag, opening, -, hRawOpen, hSource, hTag⟩ := h.inside name rfl
    exact hRawOpen.verbatim_nodes (.inr ⟨opening, cs, hSource, hTag⟩)

theorem verbatim_nodesOf {found : List Event} (h : events source = .ok found) :
    ∀ n ∈ nodesOf found, n.Verbatim source := by
  unfold events at h
  cases hFirst : readFrom (source.length + 1) false none {} source with
  | error rejection =>
    rw [hFirst] at h
    cases h
  | ok first =>
    rw [hFirst] at h
    dsimp only [bind, Except.bind] at h
    cases hLast : readFrom (first.rest.length + 1) true first.mode first.place first.rest with
    | error rejection =>
      rw [hLast] at h
      cases h
    | ok last =>
      rw [hLast] at h
      cases h
      have hReads := ((reads_start source).readFrom hFirst).readFrom hLast
      rw [nodesOf, List.foldl_append, List.foldl_append]
      split
      · rename_i hLeft
        have hMode : last.mode = none := by simpa using (Bool.and_eq_true_iff.mp hLeft).1
        exact ((hReads.outside hMode).take (e := .text last.rest) rfl).verbatim_nodes
      · exact hReads.verbatim_nodes

theorem verbatim_of_parse {text : String} {d : Document} (h : parse text = .ok d) :
    d.source = text.toList ∧ ∀ n ∈ d.nodes, n.Verbatim d.source := by
  unfold parse at h
  dsimp only at h
  cases hEvents : events text.toList with
  | error rejection =>
    rw [hEvents] at h
    cases h
  | ok found =>
    rw [hEvents] at h
    cases h
    exact ⟨rfl, verbatim_nodesOf hEvents⟩

/-! ## Sites -/

theorem mem_sitesAll {around : List Tag} {nodes : List Node} {s : Site} :
    s ∈ Node.sitesAll around nodes ↔ ∃ n ∈ nodes, s ∈ n.sites around := by
  induction nodes with
  | nil => simp [Node.sitesAll]
  | cons n ns ih => simp [Node.sitesAll, ih]

theorem Node.Verbatim.site {n : Node} (h : n.Verbatim source) {around : List Tag} {s : Site}
    (hSite : s ∈ n.sites around) (hRaw : rawElements.contains s.tag.name = true) :
    s.children = [] ∨ ∃ role content, s.children = [.text role content] ∧
      Encloses source s.tag content := by
  induction h generalizing around with
  | text role content => simp [Node.sites] at hSite
  | element hElement _ ih =>
    rw [Node.sites] at hSite
    rcases List.mem_cons.mp hSite with rfl | hInner
    · exact hElement hRaw
    · obtain ⟨n, hn, hSite⟩ := mem_sitesAll.mp hInner
      exact ih n hn hSite

/-! ## Blocks -/

/-- Where a block stands on its page: behind a start tag of a raw element. -/
structure InlineBlock.Stands (block : InlineBlock) (source before opening after : List Char) : Prop where
  page : source = before ++ opening ++ block.content.toList ++ after
  tag : ∃ name attributes, rawElements.contains name = true ∧
    startTag (opening ++ block.content.toList ++ after) = .tag name attributes false opening.length

section FirstEnd

variable {front tail : List Char}

theorem takeWhile_first (h : '>' ∉ front) : (front ++ '>' :: tail).takeWhile (· != '>') = front := by
  rw [List.takeWhile_append_of_pos]
  · simp
  · intro c hc
    exact bne_iff_ne.mpr fun hEq => h (hEq ▸ hc)

theorem dropWhile_first (h : '>' ∉ front) :
    (front ++ '>' :: tail).dropWhile (· != '>') = '>' :: tail := by
  rw [List.dropWhile_append_of_pos]
  · simp
  · intro c hc
    exact bne_iff_ne.mpr fun hEq => h (hEq ▸ hc)

theorem through_first (h : '>' ∉ front) : through '>' (front ++ '>' :: tail) = some (front.length + 1) := by
  unfold through
  rw [takeWhile_first h]
  simp

theorem contentLine_first {d : Document} {tag : Tag} (h : '>' ∉ front)
    (hSource : d.source.drop tag.offset = front ++ '>' :: tail) :
    d.contentLine tag = Text.newlines (d.source.take tag.offset ++ front) := by
  have hTake : d.source.take (tag.offset + front.length) = d.source.take tag.offset ++ front := by
    rw [List.take_add, hSource, List.take_left]
  unfold Document.contentLine
  dsimp only
  rw [hSource, through_first h]
  dsimp only
  rw [← Nat.add_assoc, Nat.add_sub_cancel, hTake]

end FirstEnd

theorem raw_of_isBlock {s : Site} (h : Document.isBlock s = true) :
    rawElements.contains s.tag.name = true := by
  unfold Document.isBlock at h
  obtain ⟨hKind, -⟩ := Bool.and_eq_true_iff.mp h
  rcases Bool.or_eq_true_iff.mp hKind with hScript | hStyle
  · unfold Site.isInlineScript at hScript
    obtain ⟨hScript, -⟩ := Bool.and_eq_true_iff.mp (Bool.and_eq_true_iff.mp hScript).1
    rw [beq_iff_eq.mp hScript]
    decide
  · rw [beq_iff_eq.mp hStyle]
    decide

/-- The content of a block is what its tag encloses. -/
theorem encloses_of_mem {d : Document} {s : Site} (hVerbatim : ∀ n ∈ d.nodes, n.Verbatim d.source)
    (hSite : s ∈ d.sites) (hBlock : Document.isBlock s = true) : Encloses d.source s.tag s.string := by
  obtain ⟨n, hn, hSite⟩ := mem_sitesAll.mp hSite
  rcases (hVerbatim n hn).site hSite (raw_of_isBlock hBlock) with hNone | ⟨role, content, hOne, hEncloses⟩
  · have hEmpty : s.string = [] := by rw [Site.string, hNone]
    simp [Document.isBlock, Site.hasContent, hEmpty] at hBlock
  · have hString : s.string = content := by rw [Site.string, hOne]
    rw [hString]
    exact hEncloses

/-- The line of a block counts the line breaks up to the first `>` of its start tag. It is the line on which
the block starts just if no line break follows in the tag, and then a hit in the block is reported on the
line of the page where it stands. -/
theorem inlineBlock_line_attribution {source : String} {d : Document} {block : InlineBlock}
    (hParse : parse source = .ok d) (hBlock : block ∈ d.inlineBlocks) :
    ∃ before opening after, block.Stands source.toList before opening after ∧
      block.lineOffset = Text.newlines before + Text.newlines (opening.takeWhile (· != '>')) ∧
      (block.lineOffset = Text.newlines (before ++ opening) ↔ '\n' ∉ opening.dropWhile (· != '>')) ∧
      ('\n' ∉ opening.dropWhile (· != '>') →
        ∀ (page : Record) (hit : Hit) (p q : List Char), block.content.toList = p ++ q →
          hit.line = Text.newlines p + 1 →
          hit.reportedLine (page.ofInlineBlock block) =
            page.lineOffset + (Text.newlines (before ++ opening ++ p) + 1)) := by
  obtain ⟨hSource, hVerbatim⟩ := verbatim_of_parse hParse
  obtain ⟨s, hFiltered, rfl⟩ := List.mem_map.mp hBlock
  obtain ⟨hSite, hIsBlock⟩ := List.mem_filter.mp hFiltered
  obtain ⟨opening, after, hRest, hTag⟩ := encloses_of_mem hVerbatim hSite hIsBlock
  have hContent : (d.inlineBlock s).content.toList = s.string := String.toList_ofList
  obtain ⟨front, hFront, -⟩ := startTag_take hTag
  rw [hRest, List.append_assoc, List.take_left] at hFront
  obtain ⟨first, tail, rfl, hFirst⟩ : ∃ first tail, opening = first ++ '>' :: tail ∧ '>' ∉ first :=
    List.eq_append_cons_of_mem (hFront ▸ List.mem_append_right front List.mem_cons_self)
  have hLine : (d.inlineBlock s).lineOffset = Text.newlines (d.source.take s.tag.offset ++ first) := by
    have hSplit : d.source.drop s.tag.offset = first ++ '>' :: (tail ++ s.string ++ after) := by
      simpa using hRest
    exact contentLine_first hFirst hSplit
  refine ⟨d.source.take s.tag.offset, first ++ '>' :: tail, after, ⟨?_, ?_⟩, ?_, ?_, ?_⟩
  · rw [hContent, ← hSource, List.append_assoc, List.append_assoc, ← List.append_assoc _ _ after, ← hRest,
      List.take_append_drop]
  · rw [hContent, ← hRest]
    exact ⟨_, _, raw_of_isBlock hIsBlock, hTag⟩
  · rw [hLine, takeWhile_first hFirst, Text.newlines_append]
  · rw [hLine, dropWhile_first hFirst, ← Text.newlines_eq_zero, Text.newlines_append, Text.newlines_append,
      Text.newlines_append]
    omega
  · rw [dropWhile_first hFirst, ← Text.newlines_eq_zero]
    intro hTail page hit p q _ hHit
    unfold Hit.reportedLine Record.ofInlineBlock
    rw [hLine, hHit]
    simp only [Text.newlines_append, hTail]
    omega

def brokenTagPage : String :=
  "<p>\n<script\nasync>\nf()</script>"

theorem brokenTagPage_line_attribution :
    ∃ d block, parse brokenTagPage = .ok d ∧ block ∈ d.inlineBlocks ∧ block.lineOffset = 2 ∧
      ∃ before opening after, block.Stands brokenTagPage.toList before opening after ∧
        block.lineOffset = Text.newlines before + Text.newlines (opening.takeWhile (· != '>')) := by
  have hView : (parse brokenTagPage).toOption.map (·.inlineBlocks) = some [⟨.script, "\nf()", 2⟩] := by
    decide +kernel
  cases hParse : parse brokenTagPage with
  | error rejection =>
    rw [hParse] at hView
    cases hView
  | ok d =>
    rw [hParse] at hView
    have hBlocks : d.inlineBlocks = [⟨.script, "\nf()", 2⟩] := Option.some.inj hView
    have hBlock : ⟨.script, "\nf()", 2⟩ ∈ d.inlineBlocks := hBlocks ▸ List.mem_cons_self
    obtain ⟨before, opening, after, hStands, hLine, -⟩ := inlineBlock_line_attribution hParse hBlock
    exact ⟨d, _, rfl, hBlock, rfl, before, opening, after, hStands, hLine⟩

/-- A value with `>` and a line break in it puts the block one line too high. -/
theorem quotedEnd_line_too_high :
    (parse "<script data-a=\">\n\">f()</script>").toOption.map (·.inlineBlocks) =
      some [⟨.script, "f()", 0⟩] ∧
    Text.newlines "<script data-a=\">\n\">".toList = 1 := by
  decide +kernel

end WebAudit.Markup
