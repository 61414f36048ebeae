import WebAudit.Markup.Document
import WebAudit.Proofs.Markup.Steps

/-!
# Raw elements hold their text as it stands on the page

Scripts and styles hold nothing but the characters between their start tag and their end tag. Reading and
building go on together: outside raw text no such element is open, and inside it the innermost open element
has everything since its start tag in the text that is going on.
-/

namespace WebAudit.Markup

/-- Where the start tag of a raw element stands the page goes on with the tag, the content, and more. -/
def Encloses (source : List Char) (tag : Tag) (content : List Char) : Prop :=
  ∃ opening after, source.drop tag.offset = opening ++ content ++ after ∧
    startTag (source.drop tag.offset) = .tag tag.name tag.attributes false opening.length

/-- Every raw element holds nothing, or one text from the page. -/
inductive Node.Verbatim (source : List Char) : Node → Prop
  | text (role : TextRole) (content : List Char) : Verbatim source (.text role content)
  | element {tag : Tag} {children : List Node}
    (hRaw : rawElements.contains tag.name = true →
      children = [] ∨ ∃ role content, children = [.text role content] ∧ Encloses source tag content)
    (hChildren : ∀ n ∈ children, n.Verbatim source) : Verbatim source (.element tag children)

namespace Builder

variable {source : List Char} {b : Builder} {tag : Tag}

structure Outside (source : List Char) (b : Builder) : Prop where
  roots : ∀ n ∈ b.roots, n.Verbatim source
  children : ∀ e ∈ b.stack, ∀ n ∈ e.children, n.Verbatim source
  plain : ∀ e ∈ b.stack, rawElements.contains e.tag.name = false
  early : ∀ name ∈ b.closedEarly, rawElements.contains name = false

/-- The innermost open element, and no other, is raw; it has no children yet. -/
def RawOpen (source : List Char) (b : Builder) (tag : Tag) : Prop :=
  rawElements.contains tag.name = true ∧
    ∃ rest, b.stack = { tag } :: rest ∧ Outside source { b with stack := rest }

/-! ## Steps outside raw text -/

theorem Outside.add {n : Node} (h : b.Outside source) (hNode : n.Verbatim source) :
    (b.add n).Outside source := by
  unfold Builder.add
  split
  · rename_i top rest hStack
    have hTop : top ∈ b.stack := hStack ▸ List.mem_cons_self
    have hRest : ∀ e ∈ rest, e ∈ b.stack := fun e he => hStack ▸ List.mem_cons_of_mem top he
    refine ⟨h.roots, ?_, ?_, h.early⟩
    · rintro e he
      rcases List.mem_cons.mp he with rfl | he
      · exact List.forall_mem_cons.mpr ⟨hNode, h.children top hTop⟩
      · exact h.children e (hRest e he)
    · rintro e he
      rcases List.mem_cons.mp he with rfl | he
      · exact h.plain top hTop
      · exact h.plain e (hRest e he)
  · exact ⟨List.forall_mem_cons.mpr ⟨hNode, h.roots⟩, h.children, h.plain, h.early⟩

theorem Outside.flush (h : b.Outside source) : b.flush.Outside source := by
  unfold Builder.flush
  split
  · exact h
  · have hEmptied : Outside source { b with pending := [] } := ⟨h.roots, h.children, h.plain, h.early⟩
    exact hEmptied.add (.text _ _)

theorem Outside.pop (h : b.Outside source) : b.pop.Outside source := by
  unfold Builder.pop
  split
  · rename_i top rest hStack
    have hTop : top ∈ b.stack := hStack ▸ List.mem_cons_self
    have hRest : ∀ e ∈ rest, e ∈ b.stack := fun e he => hStack ▸ List.mem_cons_of_mem top he
    have hPopped : Outside source { b with stack := rest } :=
      ⟨h.roots, fun e he => h.children e (hRest e he), fun e he => h.plain e (hRest e he), h.early⟩
    refine hPopped.add (.element ?_ ?_)
    · intro hRaw
      exact nomatch hRaw.symm.trans (h.plain top hTop)
    · intro n hn
      exact h.children top hTop n (List.mem_reverse.mp hn)
  · exact h

theorem Outside.popMany (h : b.Outside source) (n : Nat) : (b.popMany n).Outside source := by
  induction n generalizing b with
  | zero => exact h
  | succ n ih => exact ih h.pop

theorem Outside.close (h : b.Outside source) (name : String) : (b.close name).Outside source := by
  unfold Builder.close
  dsimp only
  split
  · exact h.flush.popMany _
  · exact h.flush

theorem Outside.endTag (h : b.Outside source) (name : String) : (b.endTag name).Outside source := by
  unfold Builder.endTag
  split
  · exact ⟨h.roots, h.children, h.plain, fun other hOther => h.early other (List.mem_of_mem_erase hOther)⟩
  · exact h.close name

theorem Outside.push (h : b.Outside source) (hPlain : rawElements.contains tag.name = false) :
    (b.push tag).Outside source := by
  unfold Builder.push
  refine ⟨h.flush.roots, ?_, List.forall_mem_cons.mpr ⟨hPlain, h.flush.plain⟩, h.flush.early⟩
  refine List.forall_mem_cons.mpr ⟨?_, h.flush.children⟩
  intro n hn
  cases hn

theorem Outside.push_raw (h : b.Outside source) (hRaw : rawElements.contains tag.name = true) :
    (b.push tag).RawOpen source tag :=
  ⟨hRaw, b.flush.stack, rfl, h.flush⟩

theorem pending_flush : b.flush.pending = [] := by
  unfold Builder.flush
  split
  · rename_i hEmpty
    exact List.isEmpty_iff.mp hEmpty
  · unfold Builder.add
    split <;> rfl

/-! ## Steps in raw text -/

/-- What is going on in a raw element is all that it holds. -/
theorem RawOpen.flush_pop (h : b.RawOpen source tag)
    (hContent : b.pending = [] ∨ Encloses source tag b.pending.reverse) :
    b.flush.pop.Outside source := by
  obtain ⟨hRaw, rest, hStack, hRest⟩ := h
  unfold Builder.flush
  split
  · have hPop : b.pop = Builder.add { b with stack := rest } (.element tag []) := by
      rw [Builder.pop, hStack]
      rfl
    rw [hPop]
    exact hRest.add (.element (fun _ => .inl rfl) fun _ hn => nomatch hn)
  · rename_i hPending
    have hPop : (Builder.add { b with pending := [] } (.text b.role b.pending.reverse)).pop =
        Builder.add { b with stack := rest, pending := [] }
          (.element tag [.text b.role b.pending.reverse]) := by
      simp only [Builder.add, hStack, Builder.pop]
      rfl
    have hEncloses : Encloses source tag b.pending.reverse := by
      rcases hContent with hEmpty | hEncloses
      · exact absurd (List.isEmpty_iff.mpr hEmpty) hPending
      · exact hEncloses
    have hRest' : Outside source { b with stack := rest, pending := [] } :=
      ⟨hRest.roots, hRest.children, hRest.plain, hRest.early⟩
    rw [hPop]
    refine hRest'.add (.element (fun _ => .inr ⟨_, _, rfl, hEncloses⟩) ?_)
    intro n hn
    rw [List.mem_singleton.mp hn]
    exact .text _ _

theorem RawOpen.stack_flush (h : b.RawOpen source tag) :
    ∃ children rest, b.flush.stack = ⟨tag, children⟩ :: rest := by
  obtain ⟨-, rest, hStack, -⟩ := h
  unfold Builder.flush
  split
  · exact ⟨[], rest, hStack⟩
  · refine ⟨[.text b.role b.pending.reverse], rest, ?_⟩
    simp only [Builder.add, hStack]

theorem RawOpen.endTag (h : b.RawOpen source tag)
    (hContent : b.pending = [] ∨ Encloses source tag b.pending.reverse) :
    (b.endTag tag.name).Outside source := by
  have hEarly : b.closedEarly.contains tag.name = false := by
    obtain ⟨hRaw, rest, -, hRest⟩ := h
    rw [List.contains_eq_mem, decide_eq_false_iff_not]
    intro hMem
    exact nomatch hRaw.symm.trans (hRest.early tag.name hMem)
  obtain ⟨children, rest, hStack⟩ := h.stack_flush
  have hClose : b.endTag tag.name = b.flush.pop := by
    have hFound : b.flush.stack.findIdx? (·.tag.name == tag.name) = some 0 := by
      rw [hStack, List.findIdx?_cons, if_pos (beq_self_eq_true tag.name)]
    rw [Builder.endTag, hEarly, if_neg Bool.false_ne_true, Builder.close, hFound]
    rfl
  rw [hClose]
  exact h.flush_pop hContent

theorem RawOpen.verbatim_nodes (h : b.RawOpen source tag)
    (hContent : b.pending = [] ∨ Encloses source tag b.pending.reverse) :
    ∀ n ∈ b.nodes, n.Verbatim source := by
  obtain ⟨children, rest, hStack⟩ := h.stack_flush
  have hNodes : b.nodes = (b.flush.pop.popMany rest.length).roots.reverse := by
    rw [nodes, hStack]
    rfl
  rw [hNodes]
  intro n hn
  exact ((h.flush_pop hContent).popMany rest.length).roots n (List.mem_reverse.mp hn)

theorem Outside.verbatim_nodes (h : b.Outside source) : ∀ n ∈ b.nodes, n.Verbatim source := by
  intro n hn
  exact (h.flush.popMany _).roots n (List.mem_reverse.mp hn)

/-! ## Events -/

theorem raw_ne_void {name : String} (h : voidElements.contains name = true) :
    rawElements.contains name = false := by
  have hAll : ∀ name ∈ voidElements, rawElements.contains name = false := by decide
  exact hAll name (List.contains_iff_mem.mp h)

theorem Outside.take {e : Event} (h : b.Outside source) (hEvent : e.opens = false) :
    (b.take e).Outside source := by
  cases e with
  | opened tag selfClosing => cases hEvent
  | closed name => exact h.endTag name
  | text cs => exact ⟨h.roots, h.children, h.plain, h.early⟩
  | «section» cs => exact h.flush.add (.text _ _)
  | hidden => exact h.flush.add (.text _ _)

theorem Outside.take_all {events : List Event} (h : b.Outside source)
    (hEvents : ∀ e ∈ events, e.opens = false) : (events.foldl Builder.take b).Outside source := by
  induction events generalizing b with
  | nil => exact h
  | cons e es ih =>
    obtain ⟨hHead, hTail⟩ := List.forall_mem_cons.mp hEvents
    exact ih (h.take hHead) hTail

/-- A start tag that starts no raw text. -/
theorem Outside.take_opened {selfClosing : Bool} (h : b.Outside source)
    (hPlain : (!selfClosing && rawElements.contains tag.name) = false) :
    (b.take (.opened tag selfClosing)).Outside source := by
  unfold Builder.take
  dsimp only
  split
  · by_cases hRaw : rawElements.contains tag.name = true
    · exact (h.push_raw hRaw).endTag (.inl pending_flush)
    · exact (h.push (Bool.eq_false_iff.mpr hRaw)).endTag tag.name
  · rename_i hOpen
    rw [Bool.not_eq_true] at hOpen
    have hName : rawElements.contains tag.name = false := by simpa [hOpen] using hPlain
    split
    · have hClosed := (h.push hName).close tag.name
      exact ⟨hClosed.roots, hClosed.children, hClosed.plain,
        List.forall_mem_cons.mpr ⟨hName, hClosed.early⟩⟩
    · exact h.push hName

theorem Outside.take_raw (h : b.Outside source) (hRaw : rawElements.contains tag.name = true) :
    (b.take (.opened tag false)).RawOpen source tag ∧ (b.take (.opened tag false)).pending = [] := by
  have hVoid : voidElements.contains tag.name = false :=
    Bool.eq_false_iff.mpr fun hVoid => nomatch hRaw.symm.trans (raw_ne_void hVoid)
  have hTake : b.take (.opened tag false) = b.push tag := by
    rw [Builder.take, if_neg Bool.false_ne_true, hVoid]
    rfl
  rw [hTake]
  exact ⟨h.push_raw hRaw, pending_flush⟩

theorem RawOpen.take_text (h : b.RawOpen source tag) (cs : List Char) :
    (b.take (.text cs)).RawOpen source tag := by
  obtain ⟨hRaw, rest, hStack, hRest⟩ := h
  exact ⟨hRaw, rest, hStack, hRest.roots, hRest.children, hRest.plain, hRest.early⟩

end Builder

end WebAudit.Markup
