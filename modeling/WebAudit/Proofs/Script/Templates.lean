import WebAudit.Proofs.Script.Places
import WebAudit.Proofs.Text.Words
import WebAudit.Script.Security

/-!
# Templates that are reported

A template is reported for the statement that its literal text makes, so its substitutions are taken out
before the text is searched. Each is taken out where its own text stands first. Main statement: what is
searched is the text with a blank for the span of each substitution, just if no substitution is written in
front of itself as well.
-/

namespace WebAudit

/-! ## Texts cut at places -/

namespace Text

theorem byteLength_cons (c : Char) (cs : List Char) : byteLength (c :: cs) = c.utf8Size + byteLength cs := by
  have hFrom : ∀ (total : Nat) (cs : List Char),
      cs.foldl (fun total c => total + c.utf8Size) total = total + byteLength cs := by
    intro total cs
    induction cs generalizing total with
    | nil => rfl
    | cons d ds ih =>
      rw [byteLength, List.foldl_cons, List.foldl_cons, ih, ih]
      omega
  rw [byteLength, List.foldl_cons, hFrom]
  omega

theorem dropBytes_byteLength_append (front rest : List Char) :
    dropBytes (byteLength front) (front ++ rest) = rest := by
  induction front with
  | nil => cases rest <;> rfl
  | cons c front ih =>
    have hSize := c.utf8Size_pos
    obtain ⟨n, hn⟩ : ∃ n, byteLength (c :: front) = n + 1 :=
      Nat.exists_eq_add_one.mpr (by rw [byteLength_cons]; omega)
    rw [hn, List.cons_append, dropBytes, ← hn, byteLength_cons, Nat.add_sub_cancel_left, ih]

theorem takeBytes_byteLength_append (front rest : List Char) :
    takeBytes (byteLength front) (front ++ rest) = front := by
  induction front with
  | nil => cases rest <;> rfl
  | cons c front ih =>
    have hSize := c.utf8Size_pos
    obtain ⟨n, hn⟩ : ∃ n, byteLength (c :: front) = n + 1 :=
      Nat.exists_eq_add_one.mpr (by rw [byteLength_cons]; omega)
    rw [hn, List.cons_append, takeBytes, ← hn, byteLength_cons, Nat.add_sub_cancel_left, ih]

end Text

namespace Script

namespace Point

variable {p q r : Point} {text : List Char}

theorem byte_walk (p : Point) (cs : List Char) : (p.walk cs).byte = p.byte + Text.byteLength cs := by
  induction cs generalizing p with
  | nil => rfl
  | cons c cs ih =>
    have hStep : (p.step c).byte = p.byte + c.utf8Size := by
      unfold step
      split
      · rename_i hBreak
        rw [hBreak]
        rfl
      · rfl
    rw [Text.byteLength_cons, walk, List.foldl_cons, ← walk, ih, hStep]
    omega

theorem Before.sliceBytes {middle rest : List Char} (h : p.Before text (middle ++ rest)) :
    Text.sliceBytes p.byte (p.walk middle).byte text = middle := by
  obtain ⟨front, rfl, rfl⟩ := h
  have hFront : (Point.walk {} front).byte = Text.byteLength front := by
    rw [byte_walk]
    exact Nat.zero_add _
  rw [Text.sliceBytes, byte_walk, Nat.add_sub_cancel_left, hFront, Text.dropBytes_byteLength_append,
    Text.takeBytes_byteLength_append]

theorem In.sliceBytes_append (hp : p.In text) (hq : q.In text) (hr : r.In text) (hpq : p.byte ≤ q.byte)
    (hqr : q.byte ≤ r.byte) :
    Text.sliceBytes p.byte q.byte text ++ Text.sliceBytes q.byte r.byte text =
      Text.sliceBytes p.byte r.byte text := by
  obtain ⟨rest, hBefore⟩ := hp
  obtain ⟨first, behind, rfl, rfl⟩ := hBefore.exists_walk hq hpq
  obtain ⟨second, last, rfl, rfl⟩ := hBefore.walk.exists_walk hr hqr
  rw [hBefore.sliceBytes, hBefore.walk.sliceBytes, ← walk_append]
  rw [← List.append_assoc] at hBefore
  exact hBefore.sliceBytes.symm

end Point

namespace Source

/-! ## Substitutions in a text -/

/-- The text between two offsets with a blank for each of some nodes. -/
def blanked (s : Source) (stop : Nat) : Nat → List Node → List Char
  | start, [] => Text.sliceBytes start stop s.text
  | start, n :: ns =>
    Text.sliceBytes start n.span.start.byte s.text ++ ' ' :: s.blanked stop n.span.stop.byte ns

def blankedText (s : Source) (n : Node) : List Char :=
  s.blanked n.span.stop.byte n.span.start.byte (substitutions n)

/-- No substitution is written already in front of itself, earlier substitutions apart. -/
def FirstWritten (s : Source) (n : Node) : Prop :=
  ∀ pre sub post, substitutions n = pre ++ sub :: post →
    ¬ Text.StandsBefore (s.textOf sub).toList (s.blanked sub.span.start.byte n.span.start.byte pre)

/-- Nodes stand one after the other between two places of the text. -/
structure Laid (s : Source) (start stop : Point) (ns : List Node) : Prop where
  begins : start.In s.text
  ends : stop.In s.text
  spans : ∀ n ∈ ns, n.span.In s.text
  first : ∀ n ∈ ns, start.byte ≤ n.span.start.byte
  forward : ∀ n ∈ ns, n.span.start.byte ≤ n.span.stop.byte
  last : ∀ n ∈ ns, n.span.stop.byte ≤ stop.byte
  apart : ns.Pairwise fun m n => m.span.stop.byte ≤ n.span.start.byte

section Laid

variable {s : Source} {start stop : Point} {sub : Node} {subs : List Node}

theorem Laid.tail (h : s.Laid start stop (sub :: subs)) : s.Laid sub.span.stop stop subs where
  begins := (h.spans sub List.mem_cons_self).stop
  ends := h.ends
  spans n hn := h.spans n (List.mem_cons_of_mem sub hn)
  first := (List.pairwise_cons.mp h.apart).1
  forward n hn := h.forward n (List.mem_cons_of_mem sub hn)
  last n hn := h.last n (List.mem_cons_of_mem sub hn)
  apart := (List.pairwise_cons.mp h.apart).2

/-- The text up to a node, its own text, and the text behind it. -/
theorem Laid.sliceBytes_cons (h : s.Laid start stop (sub :: subs)) :
    Text.sliceBytes start.byte stop.byte s.text =
      Text.sliceBytes start.byte sub.span.start.byte s.text ++ (s.textOf sub).toList ++
        Text.sliceBytes sub.span.stop.byte stop.byte s.text := by
  have hSpan := h.spans sub List.mem_cons_self
  have hFirst := h.first sub List.mem_cons_self
  have hForward := h.forward sub List.mem_cons_self
  have hLast := h.last sub List.mem_cons_self
  rw [textOf, String.toList_ofList, h.begins.sliceBytes_append hSpan.start hSpan.stop hFirst hForward]
  exact (h.begins.sliceBytes_append hSpan.stop h.ends (by omega) hLast).symm

end Laid

/-! ## Taking substitutions out -/

def takeOut (s : Source) (text : List Char) (sub : Node) : List Char :=
  Text.replaceFirst (s.textOf sub).toList [' '] text

theorem literalText_eq_foldl (s : Source) (n : Node) :
    s.literalText n =
      (substitutions n).foldl s.takeOut (Text.sliceBytes n.span.start.byte n.span.stop.byte s.text) := by
  rw [literalText, textOf, String.toList_ofList]
  rfl

section TakeOut

variable {s : Source} {start stop : Point} {sub : Node} {subs : List Node} {front target text : List Char}

theorem takeOut_of_not_standsBefore (h : ¬ Text.StandsBefore (s.textOf sub).toList front) (rest : List Char) :
    s.takeOut (front ++ (s.textOf sub).toList ++ rest) sub = front ++ ' ' :: rest := by
  rw [takeOut, Text.replaceFirst, Text.splitFirst_of_not_standsBefore h]
  simp

theorem foldl_takeOut (h : s.Laid start stop subs) (done : List Char)
    (hFirst : ∀ pre sub post, subs = pre ++ sub :: post →
      ¬ Text.StandsBefore (s.textOf sub).toList (done ++ s.blanked sub.span.start.byte start.byte pre)) :
    subs.foldl s.takeOut (done ++ Text.sliceBytes start.byte stop.byte s.text) =
      done ++ s.blanked stop.byte start.byte subs := by
  induction subs generalizing start done with
  | nil => rfl
  | cons sub subs ih =>
    have hHead := hFirst [] sub subs rfl
    rw [blanked] at hHead
    rw [List.foldl_cons, h.sliceBytes_cons, ← List.append_assoc, ← List.append_assoc,
      takeOut_of_not_standsBefore hHead, List.append_cons, ih h.tail _, blanked]
    · simp
    · intro pre next post hSubs
      have hNext := hFirst (sub :: pre) next post (congrArg (sub :: ·) hSubs)
      rw [blanked] at hNext
      simpa using hNext

/-! A substitution that stands earlier leaves a blank where the text of the template has the `$` with which
it opens, and what is taken out later does not change that. -/

def Spoilt (target text : List Char) : Prop :=
  ∃ front behind after, text = front ++ ' ' :: behind ∧ target = front ++ '$' :: after

theorem Spoilt.ne (h : Spoilt target text) : text ≠ target := by
  obtain ⟨front, behind, after, rfl, rfl⟩ := h
  simp

theorem Spoilt.takeOut (h : Spoilt target text) (hOpen : (s.textOf sub).toList.head? = some '$') :
    Spoilt target (s.takeOut text sub) := by
  obtain ⟨word, hWord⟩ := List.head?_eq_some_iff.mp hOpen
  rw [Source.takeOut, Text.replaceFirst]
  split
  · rename_i before after hFound
    have hText := Text.append_of_splitFirst hFound
    obtain ⟨front, behind, last, rfl, rfl⟩ := h
    rw [hWord, List.append_assoc, List.cons_append] at hText
    rcases List.append_eq_append_iff.mp hText with ⟨more, rfl, hMore⟩ | ⟨more, rfl, hMore⟩
    · cases more with
      | nil => cases hMore
      | cons c more =>
        -- taken out in front of the blank
        obtain ⟨rfl, -⟩ := List.cons.inj hMore
        exact ⟨before, after, more ++ '$' :: last, by simp, by simp⟩
    · cases more with
      | nil => cases hMore
      | cons c more =>
        -- taken out behind the blank
        obtain ⟨rfl, -⟩ := List.cons.inj hMore
        exact ⟨front, more ++ ' ' :: after, last, by simp, by simp⟩
  · exact h

theorem Spoilt.foldl (h : Spoilt target text) (hOpen : ∀ sub ∈ subs, (s.textOf sub).toList.head? = some '$') :
    Spoilt target (subs.foldl s.takeOut text) := by
  induction subs generalizing text with
  | nil => exact h
  | cons sub subs ih =>
    obtain ⟨hHead, hTail⟩ := List.forall_mem_cons.mp hOpen
    exact ih (h.takeOut hHead) hTail

theorem spoilt_takeOut (h : Text.StandsBefore (s.textOf sub).toList front)
    (hOpen : (s.textOf sub).toList.head? = some '$') (target rest : List Char) :
    Spoilt (front ++ target) (s.takeOut (front ++ (s.textOf sub).toList ++ rest) sub) := by
  obtain ⟨before, after, hFound, hLength⟩ := Text.splitFirst_of_standsBefore h rest
  obtain ⟨word, hWord⟩ := List.head?_eq_some_iff.mp hOpen
  have hText := Text.append_of_splitFirst hFound
  rw [takeOut, Text.replaceFirst, hFound]
  rw [List.append_assoc, List.append_assoc] at hText
  rcases List.append_eq_append_iff.mp hText with ⟨more, rfl, hMore⟩ | ⟨more, rfl, -⟩
  · cases more with
    | nil => simp at hLength
    | cons c more =>
      rw [hWord] at hMore
      obtain ⟨rfl, -⟩ := List.cons.inj hMore
      exact ⟨before, after, more ++ target, by simp, by simp⟩
  · rw [List.length_append] at hLength
    omega

theorem spoilt_foldl_takeOut (h : s.Laid start stop subs) (done : List Char)
    (hOpen : ∀ sub ∈ subs, (s.textOf sub).toList.head? = some '$') {pre post : List Node}
    (hSubs : subs = pre ++ sub :: post)
    (hEarlier : Text.StandsBefore (s.textOf sub).toList (done ++ s.blanked sub.span.start.byte start.byte pre)) :
    Spoilt (done ++ s.blanked stop.byte start.byte subs)
      (subs.foldl s.takeOut (done ++ Text.sliceBytes start.byte stop.byte s.text)) := by
  induction subs generalizing start done pre with
  | nil => simp at hSubs
  | cons first subs ih =>
    obtain ⟨hHead, hTail⟩ := List.forall_mem_cons.mp hOpen
    rw [List.foldl_cons, h.sliceBytes_cons, blanked, ← List.append_assoc, ← List.append_assoc,
      ← List.append_assoc]
    by_cases hFirst : Text.StandsBefore (s.textOf first).toList
        (done ++ Text.sliceBytes start.byte first.span.start.byte s.text)
    · exact (spoilt_takeOut hFirst hHead _ _).foldl hTail
    · rw [takeOut_of_not_standsBefore hFirst, List.append_cons _ _ (s.blanked _ _ _),
        List.append_cons _ _ (Text.sliceBytes _ _ _)]
      cases pre with
      | nil =>
        obtain ⟨rfl, -⟩ := List.cons.inj hSubs
        exact absurd hEarlier hFirst
      | cons n pre =>
        obtain ⟨rfl, hRest⟩ := List.cons.inj hSubs
        refine ih h.tail _ hTail hRest ?_
        simpa [blanked] using hEarlier

end TakeOut

/-! ## Templates of a script -/

theorem map_span_substitutions (n : Node) :
    (substitutions n).map Node.span = Node.substitutionSpans n.children := by
  have hNamed : ∀ c : Node, (c.kind == .templateSubstitution && c.isNamed) = (c.kind == .templateSubstitution) := by
    intro c
    cases hKind : c.kind == .templateSubstitution with
    | false => rfl
    | true =>
      rw [Node.isNamed, eq_of_beq hKind]
      rfl
  rw [Node.substitutionSpans, substitutions, Node.namedChildren, List.filter_filter]
  simp only [hNamed]

theorem laid_of_within {s : Source} {n : Node} (h : n.Within s.text) (hKind : n.kind = .template) :
    s.Laid n.span.start n.span.stop (substitutions n) := by
  have hOrder := h.template hKind
  rw [← map_span_substitutions] at hOrder
  refine ⟨h.span.start, h.span.stop, ?_, ?_, ?_, ?_, List.pairwise_map.mp hOrder.apart⟩
  · intro c hc
    exact (h.children c (List.mem_filter.mp (List.mem_filter.mp hc).1).1).span
  · exact fun c hc => hOrder.start c.span (List.mem_map_of_mem hc)
  · exact fun c hc => hOrder.forward c.span (List.mem_map_of_mem hc)
  · exact fun c hc => hOrder.stop c.span (List.mem_map_of_mem hc)

theorem text_parse (dialect : Dialect) (source : String) : (parse dialect source).text = source.toList := by
  unfold parse
  dsimp only
  split
  · rfl
  · rfl

theorem laid_of_mem {dialect : Dialect} {source : String} {site : Site}
    (h : site ∈ (parse dialect source).sitesOf .template) :
    (parse dialect source).Laid site.node.span.start site.node.span.stop (substitutions site.node) := by
  obtain ⟨hSite, hKind⟩ := List.mem_filter.mp h
  have hWithin := within_sites dialect source site hSite
  rw [← text_parse dialect source] at hWithin
  exact laid_of_within hWithin (eq_of_beq hKind)

theorem literalText_eq_blankedText {s : Source} {n : Node}
    (hLaid : s.Laid n.span.start n.span.stop (substitutions n)) (h : s.FirstWritten n) :
    s.literalText n = s.blankedText n := by
  rw [literalText_eq_foldl]
  exact foldl_takeOut hLaid [] h

theorem firstWritten_of_eq {s : Source} {n : Node}
    (hLaid : s.Laid n.span.start n.span.stop (substitutions n))
    (hOpen : ∀ sub ∈ substitutions n, (s.textOf sub).toList.head? = some '$')
    (h : s.literalText n = s.blankedText n) : s.FirstWritten n := by
  intro pre sub post hSubs hEarlier
  rw [literalText_eq_foldl] at h
  exact (spoilt_foldl_takeOut hLaid [] hOpen hSubs hEarlier).ne h

theorem isSome_templateSqlHit_iff {s : Source} {n : Node} :
    (s.templateSqlHit n).isSome = true ↔ hasSubstitution n = true ∧ Sql.occurs (s.literalText n) = true := by
  rw [← Bool.and_eq_true, templateSqlHit]
  split
  · rename_i hBoth
    simp [hBoth]
  · rename_i hBoth
    simp [hBoth]

/-- If each substitution of a template stands where its text is written first, the text that is searched is the template
with its substitutions blanked, and a hit is made just if it has one and a statement occurs in the rest. Where every
substitution starts with its mark, nothing else leads to the blanked text. -/
theorem template_searched_without_spans_iff (dialect : Dialect) (source : String) {site : Site}
    (hSite : site ∈ (parse dialect source).sitesOf .template) :
    ((parse dialect source).FirstWritten site.node →
      (parse dialect source).literalText site.node = (parse dialect source).blankedText site.node ∧
      (((parse dialect source).templateSqlHit site.node).isSome = true ↔
        hasSubstitution site.node = true ∧
          Sql.occurs ((parse dialect source).blankedText site.node) = true)) ∧
    ((∀ sub ∈ substitutions site.node, ((parse dialect source).textOf sub).toList.head? = some '$') →
      (parse dialect source).literalText site.node = (parse dialect source).blankedText site.node →
      (parse dialect source).FirstWritten site.node) := by
  have hLaid := laid_of_mem hSite
  constructor
  · intro hFirst
    have hText := literalText_eq_blankedText hLaid hFirst
    exact ⟨hText, by rw [isSome_templateSqlHit_iff, hText]⟩
  · exact firstWritten_of_eq hLaid

def twinSubstitutions : Source :=
  .parse .javascript "`from $\x7bx\x7d$\x7bx\x7d`"

theorem twinSubstitutions_searched :
    ∃ site ∈ twinSubstitutions.sitesOf .template, 2 ≤ (substitutions site.node).length ∧
      twinSubstitutions.FirstWritten site.node ∧
      twinSubstitutions.literalText site.node = twinSubstitutions.blankedText site.node := by
  have hTree : (twinSubstitutions.sitesOf .template).any (fun site =>
      decide (twinSubstitutions.literalText site.node = twinSubstitutions.blankedText site.node) &&
      (decide (2 ≤ (substitutions site.node).length) && (substitutions site.node).all fun sub =>
        (twinSubstitutions.textOf sub).toList.head? == some '$')) = true := by decide +kernel
  obtain ⟨site, hSite, hAll⟩ := List.any_eq_true.mp hTree
  simp only [Bool.and_eq_true, decide_eq_true_eq, List.all_eq_true, beq_iff_eq] at hAll
  obtain ⟨hText, hTwo, hOpen⟩ := hAll
  obtain ⟨hForward, hBackward⟩ := template_searched_without_spans_iff .javascript _ hSite
  have hFirst := hBackward hOpen hText
  exact ⟨site, hSite, hTwo, hFirst, (hForward hFirst).1⟩

def escapedCopy : Source :=
  .parse .javascript "`\\$\x7bfrom\x7d select $\x7bfrom\x7d`"

/-- The escaped copy is taken out instead of the substitution, whose name then ends a statement. -/
theorem escapedCopy_reported :
    ∃ site ∈ escapedCopy.sitesOf .template, (escapedCopy.templateSqlHit site.node).isSome = true ∧
      escapedCopy.literalText site.node ≠ escapedCopy.blankedText site.node ∧
      Sql.occurs (escapedCopy.blankedText site.node) = false := by
  have hTree : (escapedCopy.sitesOf .template).any (fun site =>
      (escapedCopy.templateSqlHit site.node).isSome &&
      (decide (escapedCopy.literalText site.node ≠ escapedCopy.blankedText site.node) &&
      !Sql.occurs (escapedCopy.blankedText site.node))) = true := by decide +kernel
  obtain ⟨site, hSite, hAll⟩ := List.any_eq_true.mp hTree
  simp only [Bool.and_eq_true, decide_eq_true_eq, Bool.not_eq_true'] at hAll
  exact ⟨site, hSite, hAll⟩

end Source

end Script

end WebAudit
