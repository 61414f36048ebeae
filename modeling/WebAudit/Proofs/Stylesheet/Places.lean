import WebAudit.Proofs.Stylesheet.Lookups
import WebAudit.Proofs.Text.Words

/-!
# Places of written rules

A stylesheet is written rule by rule, with blanks wherever they are allowed. Its text tells the rules apart by
braces and semicolons and the declarations by colons, none of which occurs inside a selector or a value. So the
blocks that are found are those of the rules, in their order, and the names that are looked up one after the
other are found where they were written.
-/

namespace WebAudit.Stylesheet

def isStop (c : Char) : Bool :=
  c == '{' || c == '}' || c == ';'

def isNamePart (c : Char) : Bool :=
  c == '-' || Text.isWordChar c

theorem isStop_iff {c : Char} : isStop c = true ↔ c = '{' ∨ c = '}' ∨ c = ';' := by
  simp [isStop, or_assoc]

theorem isStop_of_isBlank {c : Char} (h : Text.isBlank c = true) : isStop c = false := by
  rw [Bool.eq_false_iff, ne_eq, isStop_iff]
  rintro (rfl | rfl | rfl) <;> exact absurd h (by decide)

theorem isStop_of_isNamePart {c : Char} (h : isNamePart c = true) : isStop c = false := by
  rw [Bool.eq_false_iff, ne_eq, isStop_iff]
  rintro (rfl | rfl | rfl) <;> exact absurd h (by decide)

theorem isBlank_of_isNamePart {c : Char} (h : isNamePart c = true) : Text.isBlank c = false := by
  rw [Bool.eq_false_iff]
  intro hBlank
  rw [isNamePart, Text.isWordChar_of_isBlank hBlank, Bool.or_false, beq_iff_eq] at h
  subst h
  exact absurd hBlank (by decide)

/-! ## Comments -/

theorem blankComments_eq_self {cs : List Char} (h : ¬ ['/', '*'] <:+: cs) : blankComments cs = cs :=
  blankComments_uncommented fun body hComment =>
    h ((List.prefix_append ['/', '*'] (body ++ ['*', '/'])).isInfix.trans hComment)

/-! ## Spelling -/

inductive Gap where
  /-- The start of the text or a joint: blanks vanish. -/
  | tight
  /-- A character of a name. -/
  | plain
  /-- Blanks after a name: one is owed to what follows. -/
  | owed
deriving DecidableEq, Repr, Inhabited

/-- The normal spelling in one pass from the left to the right. -/
def respace : Gap → List Char → List Char
  | _, [] => []
  | gap, c :: cs =>
    if Text.isBlank c then respace (if gap == .tight then .tight else .owed) cs
    else if isJoint c then c :: respace .tight cs
    else if gap == .owed then ' ' :: c :: respace .plain cs
    else c :: respace .plain cs

theorem respace_blanks {bs : List Char} (h : bs.all Text.isBlank = true) (gap : Gap) : respace gap bs = [] := by
  induction bs generalizing gap with
  | nil => rfl
  | cons b bs ih =>
    rw [List.all_cons, Bool.and_eq_true] at h
    rw [respace, if_pos h.1, ih h.2]

theorem respace_tight_append {bs cs : List Char} (h : bs.all Text.isBlank = true) :
    respace .tight (bs ++ cs) = respace .tight cs := by
  induction bs with
  | nil => rfl
  | cons b bs ih =>
    rw [List.all_cons, Bool.and_eq_true] at h
    rw [List.cons_append, respace, if_pos h.1]
    exact ih h.2

theorem respace_append_blanks {bs cs : List Char} (h : bs.all Text.isBlank = true) (gap : Gap) :
    respace gap (cs ++ bs) = respace gap cs := by
  induction cs generalizing gap with
  | nil => rw [List.nil_append, respace_blanks h, respace]
  | cons c cs ih => simp only [List.cons_append, respace, ih]

def Gap.widened (gap : Gap) : Gap :=
  if gap == .tight then .tight else .owed

theorem respace_run {bs : List Char} (h : bs.all Text.isBlank = true) (hSome : bs ≠ []) (gap : Gap)
    (back : List Char) : respace gap (bs ++ back) = respace gap.widened back := by
  induction bs generalizing gap with
  | nil => exact absurd rfl hSome
  | cons b bs ih =>
    obtain ⟨hFirst, hOthers⟩ := Bool.and_eq_true_iff.mp h
    have hStep : respace gap (b :: bs ++ back) = respace gap.widened (bs ++ back) := by
      rw [List.cons_append, respace, if_pos hFirst]
      rfl
    rw [hStep]
    cases bs with
    | nil => rfl
    | cons b' bs =>
      rw [ih hOthers (List.cons_ne_nil b' bs)]
      cases gap <;> rfl

theorem isBlank_of_isJoint {j : Char} (h : isJoint j = true) : Text.isBlank j = false := by
  simp only [isJoint, Bool.or_eq_true, beq_iff_eq] at h
  rcases h with ((rfl | rfl) | rfl) | rfl <;> decide

theorem respace_joint {j : Char} (h : isJoint j = true) (gap : Gap) (back : List Char) :
    respace gap (j :: back) = j :: respace .tight back := by
  rw [respace, if_neg (by simp [isBlank_of_isJoint h]), if_pos h]

section Matches

variable {matchAt : List Char → Option (List Char × Nat)}

theorem replaceMatches_eq (covered : Nat) (cs : List Char) :
    replaceMatches matchAt covered cs = replaceMatches matchAt 0 (cs.drop covered) := by
  induction cs generalizing covered with
  | nil => rw [List.drop_nil, replaceMatches, replaceMatches]
  | cons c cs ih =>
    cases covered with
    | zero => rfl
    | succ covered => rw [replaceMatches, ih, List.drop_succ_cons]

theorem replaceMatches_of_none {c : Char} {cs : List Char} (h : matchAt (c :: cs) = none) :
    replaceMatches matchAt 0 (c :: cs) = c :: replaceMatches matchAt 0 cs := by
  rw [replaceMatches, h]

/-- A match is replaced as a whole. -/
theorem replaceMatches_of_some {found rest text : List Char} (hSome : found ≠ [])
    (h : matchAt (found ++ rest) = some (text, found.length)) :
    replaceMatches matchAt 0 (found ++ rest) = text ++ replaceMatches matchAt 0 rest := by
  cases found with
  | nil => exact absurd rfl hSome
  | cons c found =>
    rw [List.cons_append] at h ⊢
    rw [replaceMatches, h]
    dsimp only
    rw [replaceMatches_eq, List.length_cons, Nat.add_sub_cancel, List.drop_left]

end Matches

theorem takeWhile_blanks {bs : List Char} (h : bs.all Text.isBlank = true) {d : Char}
    (hd : Text.isBlank d = false) (back : List Char) : (bs ++ d :: back).takeWhile Text.isBlank = bs := by
  rw [List.takeWhile_append_of_pos (List.all_eq_true.mp h), List.takeWhile_cons_of_neg (by simp [hd]), List.append_nil]

theorem jointAt_blanks {bs : List Char} (h : bs.all Text.isBlank = true) {d : Char}
    (hd : Text.isBlank d = false) (back : List Char) :
    jointAt (bs ++ d :: back) =
      if isJoint d then some ([d], bs.length + 1 + (back.takeWhile Text.isBlank).length) else none := by
  unfold jointAt
  dsimp only
  rw [takeWhile_blanks h hd, List.drop_left]

/-- Blanks in front of a joint go with those behind it. -/
theorem tightenJoints_joint {bs : List Char} (h : bs.all Text.isBlank = true) {j : Char}
    (hj : isJoint j = true) (back : List Char) :
    tightenJoints (bs ++ j :: back) = j :: tightenJoints (Text.stripLeft back) := by
  have hBack : back.takeWhile Text.isBlank ++ Text.stripLeft back = back := List.takeWhile_append_dropWhile
  have hText : bs ++ j :: back = (bs ++ j :: back.takeWhile Text.isBlank) ++ Text.stripLeft back := by
    rw [List.append_assoc, List.cons_append, hBack]
  have hLength : (bs ++ j :: back.takeWhile Text.isBlank).length =
      bs.length + 1 + (back.takeWhile Text.isBlank).length := by
    rw [List.length_append, List.length_cons]
    omega
  have hMatch := jointAt_blanks h (isBlank_of_isJoint hj) back
  rw [if_pos hj, ← hLength, hText] at hMatch
  rw [tightenJoints, hText, replaceMatches_of_some (by simp) hMatch]
  rfl

/-- Blanks in front of anything else stay. -/
theorem tightenJoints_name {bs : List Char} (h : bs.all Text.isBlank = true) {d : Char}
    (hd : Text.isBlank d = false) (hName : isJoint d = false) (back : List Char) :
    tightenJoints (bs ++ d :: back) = bs ++ d :: tightenJoints back := by
  have hNone {bs : List Char} (h : bs.all Text.isBlank = true) : jointAt (bs ++ d :: back) = none := by
    rw [jointAt_blanks h hd, if_neg (by simp [hName])]
  induction bs with
  | nil => exact replaceMatches_of_none (hNone h)
  | cons b bs ih =>
    refine (replaceMatches_of_none (hNone h)).trans ?_
    exact congrArg (b :: ·) (ih (Bool.and_eq_true_iff.mp h).2)

theorem squeezeBlanks_cons {d : Char} (hd : Text.isBlank d = false) (back : List Char) :
    squeezeBlanks (d :: back) = d :: squeezeBlanks back := by
  refine replaceMatches_of_none ?_
  rw [blanksAt, List.takeWhile_cons_of_neg (by simp [hd])]
  rfl

theorem squeezeBlanks_run {bs : List Char} (h : bs.all Text.isBlank = true) (hSome : bs ≠ []) {d : Char}
    (hd : Text.isBlank d = false) (back : List Char) :
    squeezeBlanks (bs ++ d :: back) = ' ' :: d :: squeezeBlanks back := by
  have hMatch : blanksAt (bs ++ d :: back) = some ([' '], bs.length) := by
    unfold blanksAt
    dsimp only
    rw [takeWhile_blanks h hd, if_neg (by simpa using hSome)]
  rw [squeezeBlanks, replaceMatches_of_some hSome hMatch]
  exact congrArg (' ' :: ·) (squeezeBlanks_cons hd back)

theorem respace_tight_eq (cs : List Char) : respace .tight cs = respace .plain (Text.stripLeft cs) := by
  have hSplit : cs.takeWhile Text.isBlank ++ Text.stripLeft cs = cs := List.takeWhile_append_dropWhile
  have hHead := List.head?_dropWhile_not Text.isBlank cs
  rw [← hSplit, respace_tight_append List.all_takeWhile, hSplit]
  change respace .tight (cs.dropWhile Text.isBlank) = respace .plain (cs.dropWhile Text.isBlank)
  cases hRest : cs.dropWhile Text.isBlank with
  | nil => rfl
  | cons d back =>
    rw [hRest] at hHead
    have hd : Text.isBlank d = false := by simpa using hHead
    rw [respace, respace, hd]
    rfl

/-- A text that ends with no blank goes on, behind blanks, with something else. -/
theorem exists_name_of_endsTight {cs : List Char} (hEnd : cs.getLast?.all (!Text.isBlank ·) = true) (hSome : cs ≠ []) :
    ∃ bs d back, bs.all Text.isBlank = true ∧ Text.isBlank d = false ∧ cs = bs ++ d :: back := by
  have hSplit : cs.takeWhile Text.isBlank ++ cs.dropWhile Text.isBlank = cs := List.takeWhile_append_dropWhile
  have hHead := List.head?_dropWhile_not Text.isBlank cs
  cases hRest : cs.dropWhile Text.isBlank with
  | nil =>
    have hBlank := List.dropWhile_eq_nil_iff.mp hRest _ (List.getLast_mem hSome)
    rw [List.getLast?_eq_some_getLast hSome, Option.all_some, hBlank] at hEnd
    cases hEnd
  | cons d back =>
    rw [hRest] at hHead hSplit
    exact ⟨_, d, back, List.all_takeWhile, by simpa using hHead, hSplit.symm⟩

theorem endsTight_of_suffix {cs rest : List Char} (h : rest <:+ cs) (hEnd : cs.getLast?.all (!Text.isBlank ·) = true) :
    rest.getLast?.all (!Text.isBlank ·) = true := by
  obtain ⟨front, rfl⟩ := h
  cases rest with
  | nil => rfl
  | cons c rest =>
    rw [List.getLast?_append_of_ne_nil front (List.cons_ne_nil c rest)] at hEnd
    exact hEnd

/-- The two passes do to a text that ends with no blank what the one pass does. -/
theorem squeezeBlanks_tightenJoints {cs : List Char} (hEnd : cs.getLast?.all (!Text.isBlank ·) = true) :
    squeezeBlanks (tightenJoints cs) = respace .plain cs := by
  -- Each step passes a run of blanks, maybe empty, and what follows it; behind a joint also the blanks after it.
  induction hLength : cs.length using Nat.strong_induction_on generalizing cs with
  | _ n ih =>
    by_cases hSome : cs = []
    · subst hSome
      rfl
    obtain ⟨bs, d, back, hbs, hd, rfl⟩ := exists_name_of_endsTight hEnd hSome
    rw [List.length_append, List.length_cons] at hLength
    have hBack : back <:+ bs ++ d :: back := ⟨bs ++ [d], by simp⟩
    cases hJoint : isJoint d with
    | true =>
      have hRest : Text.stripLeft back <:+ back := List.dropWhile_suffix _
      have hShort := hRest.length_le
      rw [tightenJoints_joint hbs hJoint, squeezeBlanks_cons hd,
        ih _ (by omega) (endsTight_of_suffix (hRest.trans hBack) hEnd) rfl, ← respace_tight_eq]
      cases bs with
      | nil => exact (respace_joint hJoint _ back).symm
      | cons b bs => rw [respace_run hbs (List.cons_ne_nil b bs), respace_joint hJoint]
    | false =>
      have hNext := ih _ (by omega) (endsTight_of_suffix hBack hEnd) rfl
      rw [tightenJoints_name hbs hd hJoint]
      cases bs with
      | nil =>
        rw [List.nil_append, List.nil_append, squeezeBlanks_cons hd, hNext, respace, hd, hJoint]
        rfl
      | cons b bs =>
        have hOwed := List.cons_ne_nil b bs
        rw [squeezeBlanks_run hbs hOwed hd, hNext, respace_run hbs hOwed, respace, hd, hJoint]
        rfl

theorem endsTight_stripChars (cs : List Char) : (Text.stripChars cs).getLast?.all (!Text.isBlank ·) = true := by
  by_cases hSome : Text.stripChars cs = []
  · rw [hSome]
    rfl
  · have hLast := List.rdropWhile_last_not Text.isBlank (Text.stripLeft cs) hSome
    rw [List.getLast?_eq_some_getLast hSome, Option.all_some]
    exact (Bool.not_eq_true' _).mpr (Bool.eq_false_iff.mpr hLast)

/-- The passes over a selector are one pass. -/
theorem normalizeSelector_eq (s : String) : normalizeSelector s = String.ofList (respace .tight s.toList) := by
  obtain ⟨front, back, hFront, hBack, hText⟩ := Text.exists_blanks_stripChars s.toList
  have hSpelled : respace .tight s.toList = respace .plain (Text.stripChars s.toList) := by
    calc respace .tight s.toList
      _ = respace .tight (front ++ (Text.stripChars s.toList ++ back)) := congrArg _ hText
      _ = respace .tight (Text.stripChars s.toList) := by
        rw [respace_tight_append hFront, respace_append_blanks hBack]
      _ = respace .plain (Text.stripChars s.toList) := by rw [respace_tight_eq, Text.stripLeft_stripChars]
  rw [normalizeSelector, squeezeBlanks_tightenJoints (endsTight_stripChars _), hSpelled]

/-! ## Written stylesheets -/

/-- A declaration `name : value ;` with the blanks in front of it. -/
structure WrittenDeclaration where
  indent : List Char
  name : List Char
  gap : List Char
  value : List Char
  indentBlank : indent.all Text.isBlank = true := by decide
  nameNe : name ≠ [] := by decide
  nameParts : name.all isNamePart = true := by decide
  gapBlank : gap.all Text.isBlank = true := by decide
  valuePlain : value.all (fun c => c != ':' && !isStop c) = true := by decide

/-- A rule with the blanks in front of it, around its selector and behind its declarations. -/
structure WrittenRule where
  lead : List Char
  selector : List Char
  gap : List Char
  declarations : List WrittenDeclaration
  close : List Char
  leadBlank : lead.all Text.isBlank = true := by decide
  selectorPlain : selector.all (!isStop ·) = true := by decide
  selectorNonblank : selector.any (!Text.isBlank ·) = true := by decide
  selectorNotAt : (Text.stripLeft selector).head? ≠ some '@' := by decide
  gapBlank : gap.all Text.isBlank = true := by decide
  closeBlank : close.all Text.isBlank = true := by decide

structure WrittenSheet where
  rules : List WrittenRule
  tail : List Char
  tailBlank : tail.all Text.isBlank = true := by decide

def WrittenDeclaration.stem (d : WrittenDeclaration) : List Char :=
  d.indent ++ (d.name ++ (d.gap ++ ':' :: d.value))

def WrittenDeclaration.text (d : WrittenDeclaration) : List Char :=
  d.stem ++ [';']

namespace WrittenRule

def header (r : WrittenRule) : List Char :=
  r.lead ++ (r.selector ++ r.gap)

def body (r : WrittenRule) : List Char :=
  r.declarations.flatMap WrittenDeclaration.text ++ r.close

def text (r : WrittenRule) : List Char :=
  r.header ++ '{' :: (r.body ++ ['}'])

def block (front : List Char) (r : WrittenRule) : Block where
  selector := normalizeSelector (String.ofList r.selector)
  line := Text.newlines (front ++ r.lead ++ r.selector.takeWhile Text.isBlank) + 1
  bodyStart := (front ++ r.header).length + 1
  bodyEnd := (front ++ r.header).length + 1 + r.body.length

end WrittenRule

def WrittenSheet.text (s : WrittenSheet) : List Char :=
  s.rules.flatMap WrittenRule.text ++ s.tail

def blocksOf : List Char → List WrittenRule → List Block
  | _, [] => []
  | front, r :: rs => r.block front :: blocksOf (front ++ r.text) rs

def linesOf : List Char → List WrittenDeclaration → List Nat
  | _, [] => []
  | front, d :: ds => (Text.newlines (front ++ d.indent) + 1) :: linesOf (front ++ d.text) ds

theorem WrittenDeclaration.stem_plain (d : WrittenDeclaration) : d.stem.all (!isStop ·) = true := by
  have hIndent := List.all_eq_true.mp d.indentBlank
  have hName := List.all_eq_true.mp d.nameParts
  have hGap := List.all_eq_true.mp d.gapBlank
  have hValue := List.all_eq_true.mp d.valuePlain
  refine List.all_eq_true.mpr fun c hc => ?_
  rw [Bool.not_eq_true']
  simp only [stem, List.mem_append, List.mem_cons] at hc
  rcases hc with hc | hc | hc | rfl | hc
  · exact isStop_of_isBlank (hIndent c hc)
  · exact isStop_of_isNamePart (hName c hc)
  · exact isStop_of_isBlank (hGap c hc)
  · rfl
  · simpa using (Bool.and_eq_true_iff.mp (hValue c hc)).2

theorem plain_of_blank {bs : List Char} (h : bs.all Text.isBlank = true) : bs.all (!isStop ·) = true := by
  refine List.all_eq_true.mpr fun c hc => ?_
  rw [isStop_of_isBlank (List.all_eq_true.mp h c hc)]
  rfl

theorem WrittenRule.header_plain (r : WrittenRule) : r.header.all (!isStop ·) = true := by
  rw [header, List.all_append, List.all_append, plain_of_blank r.leadBlank, r.selectorPlain,
    plain_of_blank r.gapBlank]
  rfl

theorem WrittenRule.brace_notMem_body (r : WrittenRule) : '}' ∉ r.body := by
  have hPlain : ∀ {cs : List Char}, cs.all (!isStop ·) = true → '}' ∉ cs := by
    intro cs h hc
    exact absurd (List.all_eq_true.mp h '}' hc) (by decide)
  rw [body, List.mem_append, List.mem_flatMap]
  rintro (⟨d, -, hd⟩ | hc)
  · rw [WrittenDeclaration.text, List.mem_append, List.mem_singleton] at hd
    rcases hd with hd | hd
    · exact hPlain d.stem_plain hd
    · cases hd
  · exact hPlain (plain_of_blank r.closeBlank) hc

/-! ## Blocks -/

section Blocks

variable {front xs rest : List Char} {c : Char}

theorem blocksFrom_plain (h : xs.all (!isStop ·) = true) (offset line : Nat) (header : List Char) :
    blocksFrom offset line header (xs ++ rest) =
      blocksFrom (offset + xs.length) line (xs.reverse ++ header) rest := by
  induction xs generalizing offset header with
  | nil => rfl
  | cons x xs ih =>
    rw [List.all_cons, Bool.and_eq_true, Bool.not_eq_true'] at h
    have hStop : ¬ (x == '{' || x == '}' || x == ';') = true := by simpa [isStop] using h.1
    rw [List.cons_append, blocksFrom, if_neg hStop, ih h.2, List.length_cons, Nat.add_right_comm,
      ← Nat.add_assoc, List.reverse_cons, List.append_assoc, List.singleton_append]

/-- The blocks of what follows a text that ends between headers. -/
def blocksBehind (front rest : List Char) : List Block :=
  blocksFrom front.length (Text.newlines front + 1) [] rest

theorem blocksBehind_stop (hxs : xs.all (!isStop ·) = true) (hc : isStop c = true) :
    blocksBehind front (xs ++ c :: rest) =
      (if c == '{' then blockAt xs (Text.newlines front + 1) ((front ++ xs).length + 1) rest else none).toList ++
        blocksBehind (front ++ (xs ++ [c])) rest := by
  have hNewline : Text.newlines [c] = 0 := by
    rw [Text.newlines_eq_zero, List.mem_singleton]
    rintro rfl
    exact absurd hc (by decide)
  have hLines : Text.newlines front + 1 + Text.newlines xs = Text.newlines (front ++ (xs ++ [c])) + 1 := by
    rw [Text.newlines_append, Text.newlines_append, hNewline]
    omega
  have hReverse : Text.newlines xs.reverse = Text.newlines xs := List.count_reverse
  have hLength : (front ++ (xs ++ [c])).length = front.length + xs.length + 1 := by simp [Nat.add_assoc]
  have hStop : (c == '{' || c == '}' || c == ';') = true := hc
  unfold blocksBehind
  rw [blocksFrom_plain hxs, blocksFrom, if_pos hStop, List.append_nil, List.reverse_reverse, hReverse, hLines,
    hLength, List.length_append]

theorem blocksBehind_declaration (d : WrittenDeclaration) :
    blocksBehind front (d.text ++ rest) = blocksBehind (front ++ d.text) rest := by
  rw [WrittenDeclaration.text, List.append_assoc, List.singleton_append, blocksBehind_stop d.stem_plain (by decide)]
  rfl

theorem blocksBehind_declarations (ds : List WrittenDeclaration) :
    blocksBehind front (ds.flatMap WrittenDeclaration.text ++ rest) =
      blocksBehind (front ++ ds.flatMap WrittenDeclaration.text) rest := by
  induction ds generalizing front with
  | nil => simp
  | cons d ds ih =>
    rw [List.flatMap_cons, List.append_assoc, blocksBehind_declaration, ih, List.append_assoc]

theorem exists_nonblank {cs : List Char} (h : cs.any (!Text.isBlank ·) = true) :
    ∃ bs d ds, cs = bs ++ d :: ds ∧ (∀ b ∈ bs, Text.isBlank b = true) ∧ Text.isBlank d = false := by
  rw [← List.isSome_find?] at h
  obtain ⟨d, hd⟩ := Option.isSome_iff_exists.mp h
  obtain ⟨hBlank, bs, ds, rfl, hbs⟩ := List.find?_eq_some_iff_append.mp hd
  exact ⟨bs, d, ds, rfl, by simpa using hbs, by simpa using hBlank⟩

theorem WrittenRule.takeWhile_header (r : WrittenRule) :
    r.header.takeWhile Text.isBlank = r.lead ++ r.selector.takeWhile Text.isBlank := by
  obtain ⟨bs, d, ds, hSelector, hbs, hd⟩ := exists_nonblank r.selectorNonblank
  have hStop : ∀ rest, (bs ++ d :: rest).takeWhile Text.isBlank = bs := by
    intro rest
    rw [List.takeWhile_append_of_pos hbs, List.takeWhile_cons_of_neg (by simp [hd]), List.append_nil]
  rw [WrittenRule.header, List.takeWhile_append_of_pos (List.all_eq_true.mp r.leadBlank), hSelector, hStop,
    List.append_assoc, List.cons_append, hStop]

theorem WrittenRule.head?_header (r : WrittenRule) :
    (Text.stripLeft r.header).head? = (Text.stripLeft r.selector).head? := by
  obtain ⟨bs, d, ds, hSelector, hbs, hd⟩ := exists_nonblank r.selectorNonblank
  have hStop : ∀ rest, (bs ++ d :: rest).dropWhile Text.isBlank = d :: rest := by
    intro rest
    rw [List.dropWhile_append_of_pos hbs, List.dropWhile_cons_of_neg (by simp [hd])]
  rw [Text.stripLeft, Text.stripLeft, WrittenRule.header,
    List.dropWhile_append_of_pos (List.all_eq_true.mp r.leadBlank), hSelector, hStop, List.append_assoc,
    List.cons_append, hStop]
  rfl

theorem blockAt_header (r : WrittenRule) :
    blockAt r.header (Text.newlines front + 1) ((front ++ r.header).length + 1) (r.body ++ '}' :: rest) =
      some (r.block front) := by
  have hSpelling : normalizeSelector (String.ofList r.header) = normalizeSelector (String.ofList r.selector) := by
    rw [normalizeSelector_eq, normalizeSelector_eq, String.toList_ofList, String.toList_ofList, WrittenRule.header,
      respace_tight_append r.leadBlank, respace_append_blanks r.gapBlank]
  have hBody : (r.body ++ '}' :: rest).takeWhile (· != '}') = r.body := by
    rw [List.takeWhile_append_of_pos, List.takeWhile_cons_of_neg (by simp), List.append_nil]
    rintro c hc
    rw [bne_iff_ne]
    rintro rfl
    exact r.brace_notMem_body hc
  have hFilled : r.header.isEmpty = false := by
    obtain ⟨c, hc, -⟩ := List.any_eq_true.mp r.selectorNonblank
    rw [List.isEmpty_eq_false_iff]
    refine List.ne_nil_of_mem (a := c) ?_
    simp [WrittenRule.header, hc]
  have hHead : ((Text.stripLeft r.header).head? == some '@') = false := by
    simpa [r.head?_header] using r.selectorNotAt
  unfold blockAt
  dsimp only
  rw [hFilled, hHead, hSpelling, hBody, r.takeWhile_header]
  simp [WrittenRule.block, Text.newlines_append, Nat.add_assoc, Nat.add_comm, Nat.add_left_comm]

theorem blocksBehind_rule (r : WrittenRule) :
    blocksBehind front (r.text ++ rest) = r.block front :: blocksBehind (front ++ r.text) rest := by
  have hText : r.text ++ rest = r.header ++ '{' :: (r.body ++ '}' :: rest) := by simp [WrittenRule.text]
  rw [hText, blocksBehind_stop r.header_plain (by decide)]
  rw [if_pos (by decide), blockAt_header, WrittenRule.body, List.append_assoc, blocksBehind_declarations,
    blocksBehind_stop (plain_of_blank r.closeBlank) (by decide)]
  simp [WrittenRule.text, WrittenRule.body]

theorem blocksBehind_rules {rules : List WrittenRule} {tail : List Char} (h : tail.all Text.isBlank = true) :
    blocksBehind front (rules.flatMap WrittenRule.text ++ tail) = blocksOf front rules := by
  induction rules generalizing front with
  | nil =>
    have hEnd : blocksBehind front (tail ++ []) = [] := blocksFrom_plain (plain_of_blank h) _ _ _
    rwa [List.append_nil] at hEnd
  | cons r rules ih => rw [List.flatMap_cons, List.append_assoc, blocksBehind_rule, ih, blocksOf]

end Blocks

theorem map_selector_blocksOf (front : List Char) (rules : List WrittenRule) :
    (blocksOf front rules).map (·.selector) =
      rules.map (normalizeSelector ∘ fun r => String.ofList r.selector) := by
  induction rules generalizing front with
  | nil => rfl
  | cons r rules ih => rw [blocksOf, List.map_cons, ih, List.map_cons, WrittenRule.block, Function.comp_apply]

/-- The answers to lookups of selectors, one after the other. -/
def findBlocks : List Block → List String → List (Option Block)
  | _, [] => []
  | bs, wanted :: rest => (findBlock wanted bs).1 :: findBlocks (findBlock wanted bs).2 rest

theorem findBlocks_of_same {bs : List Block} {wanted : List String}
    (h : bs.map (·.selector) = wanted.map normalizeSelector) : findBlocks bs wanted = bs.map some := by
  induction wanted generalizing bs with
  | nil =>
    rw [List.map_nil, List.map_eq_nil_iff] at h
    rw [h]
    rfl
  | cons w wanted ih =>
    obtain ⟨b, bs, rfl, hSelector, hRest⟩ := List.map_eq_cons_iff.mp h
    have hFound : findBlock w (b :: bs) = (some b, bs) := by
      unfold findBlock
      dsimp only
      rw [List.dropWhile_cons_of_neg (by simp [hSelector])]
    rw [findBlocks, hFound, ih hRest, List.map_cons]

/-! ## Names -/

section Names

variable {name gap rest cs pre : List Char} {before : Option Char}

theorem drop_of_dropWord (h : Text.dropWord name cs = some rest) : rest = cs.drop name.length := by
  fun_induction Text.dropWord name cs with
  | case1 cs => simpa using h.symm
  | case2 => cases h
  | case3 w ws c cs hSame ih => exact ih h
  | case4 => cases h

theorem dropWord_append (name rest : List Char) : Text.dropWord name (name ++ rest) = some rest := by
  induction name with
  | nil => rfl
  | cons c name ih =>
    have hSame : Text.sameLetter c c = true := beq_self_eq_true _
    rw [List.cons_append, Text.dropWord, if_pos hSame, ih]

theorem nameLengthAt_eq_none (h : ((cs.drop name.length).dropWhile Text.isBlank).head? ≠ some ':') :
    nameLengthAt name cs = none := by
  unfold nameLengthAt
  split
  · rename_i rest hRest
    have hWhole : rest.takeWhile Text.isBlank ++ rest.dropWhile Text.isBlank = rest :=
      List.takeWhile_append_dropWhile
    have hBlanks : (rest.takeWhile Text.isBlank ++ rest.dropWhile Text.isBlank).drop
        (rest.takeWhile Text.isBlank).length = rest.dropWhile Text.isBlank := List.drop_left
    rw [hWhole] at hBlanks
    dsimp only
    rw [hBlanks, drop_of_dropWord hRest, if_neg]
    simpa using h
  · rfl

theorem nameLengthAt_append (hGap : gap.all Text.isBlank = true) :
    nameLengthAt name (name ++ (gap ++ ':' :: rest)) = some (name.length + gap.length + 1) := by
  have hBlanks : (gap ++ ':' :: rest).takeWhile Text.isBlank = gap := by
    rw [List.takeWhile_append_of_pos (List.all_eq_true.mp hGap), List.takeWhile_cons_of_neg (by decide),
      List.append_nil]
  unfold nameLengthAt
  rw [dropWord_append]
  dsimp only
  rw [hBlanks, List.drop_left]
  rfl

/-- A name does not start in front of the place where it was written: what follows it there goes on with a
character of the text in front or of the name itself, and not with a colon. -/
theorem nameLengthAt_of_early (hPre : ':' ∉ pre) (hNe : pre ≠ []) (hName : name ≠ [])
    (hParts : name.all isNamePart = true) : nameLengthAt name (pre ++ (name ++ rest)) = none := by
  have hParts := List.all_eq_true.mp hParts
  have hLength : name.length < (pre ++ name).length := by
    have hPos := List.length_pos_iff.mpr hNe
    rw [List.length_append]
    omega
  -- The last character of the name is left when as many characters as the name has are dropped.
  have hLast : name.getLast hName ∈ (pre ++ name).drop name.length := by
    apply List.mem_of_getLast?
    rw [List.getLast?_drop, if_neg (Nat.not_le.mpr hLength), List.getLast?_append,
      List.getLast?_eq_some_getLast hName, Option.some_or]
  have hNonblank : ((pre ++ name).drop name.length).any (!Text.isBlank ·) = true := by
    refine List.any_eq_true.mpr ⟨_, hLast, ?_⟩
    rw [isBlank_of_isNamePart (hParts _ (List.getLast_mem hName))]
    rfl
  obtain ⟨bs, d, ds, hLeft, hbs, hd⟩ := exists_nonblank hNonblank
  have hColon : d ≠ ':' := by
    rintro rfl
    have hMem : ':' ∈ (pre ++ name).drop name.length := by simp [hLeft]
    rcases List.mem_append.mp (List.mem_of_mem_drop hMem) with hMem | hMem
    · exact hPre hMem
    · exact absurd (hParts ':' hMem) (by decide)
  apply nameLengthAt_eq_none
  rw [← List.append_assoc, List.drop_append_of_le_length (Nat.le_of_lt hLength), hLeft, List.append_assoc,
    List.dropWhile_append_of_pos hbs, List.cons_append, List.dropWhile_cons_of_neg (by simp [hd])]
  simpa using hColon

theorem findName_eq (hPre : ':' ∉ pre) (hName : name ≠ []) (hParts : name.all isNamePart = true)
    (hGap : gap.all Text.isBlank = true) (hBefore : startsAfter (pre.getLast?.or before) = true) :
    findName name before (pre ++ (name ++ (gap ++ ':' :: rest))) =
      some (pre.length, name.length + gap.length + 1) := by
  induction pre generalizing before with
  | nil =>
    have hFound : nameLengthAt name (name ++ (gap ++ ':' :: rest)) = _ := nameLengthAt_append hGap
    obtain ⟨c, name', rfl⟩ := List.exists_cons_of_ne_nil hName
    rw [List.nil_append]
    rw [List.cons_append] at hFound ⊢
    rw [findName, if_pos (by simpa using hBefore), hFound]
    rfl
  | cons p pre ih =>
    have hEarly : nameLengthAt name (p :: pre ++ (name ++ (gap ++ ':' :: rest))) = none :=
      nameLengthAt_of_early hPre (List.cons_ne_nil p pre) hName hParts
    rw [List.mem_cons, not_or] at hPre
    have hNext : startsAfter (pre.getLast?.or (some p)) = true := by
      rw [List.getLast?_cons] at hBefore
      cases hLast : pre.getLast? <;> simp_all
    rw [List.cons_append] at hEarly ⊢
    rw [findName, hEarly, ite_self, ih hPre.2 hNext]
    rfl

end Names

/-! ## Declarations -/

/-- The lines of names that are looked up in a block one after the other, each behind the one before. -/
def declarationLines (text : List Char) (block : Block) : Nat → List String → List Nat
  | _, [] => []
  | cursor, name :: names =>
    (declarationLine text block name cursor).1 ::
      declarationLines text block (declarationLine text block name cursor).2 names

theorem startsAfter_append {cs bs : List Char} (hcs : startsAfter cs.getLast? = true)
    (hbs : bs.all Text.isBlank = true) : startsAfter (cs ++ bs).getLast? = true := by
  rw [List.getLast?_append]
  cases hLast : bs.getLast? with
  | none => exact hcs
  | some b =>
    have hBlank := List.all_eq_true.mp hbs b (List.mem_of_getLast? hLast)
    have hDash : b ≠ '-' := by
      rintro rfl
      exact absurd hBlank (by decide)
    simp [startsAfter, hDash, Text.isWordChar_of_isBlank hBlank]

section Declarations

variable {pre w post : List Char} {block : Block}

theorem getLast?_eq_before (pre rest : List Char) :
    (if pre.length = 0 then none else ((pre ++ rest).drop (pre.length - 1)).head?) = pre.getLast? := by
  rcases List.eq_nil_or_concat pre with rfl | ⟨front, c, rfl⟩
  · rfl
  · simp

theorem declarationLine_eq (d : WrittenDeclaration) (hw : ':' ∉ w) (hStart : block.bodyStart ≤ pre.length)
    (hEnd : (pre ++ (w ++ d.text)).length ≤ block.bodyEnd)
    (hBefore : startsAfter (pre ++ w).getLast? = true) :
    declarationLine (pre ++ (w ++ (d.text ++ post))) block (String.ofList d.name) pre.length =
      (Text.newlines (pre ++ (w ++ d.indent)) + 1,
        (pre ++ (w ++ (d.indent ++ (d.name ++ (d.gap ++ [':']))))).length) := by
  obtain ⟨k, hk⟩ := Nat.exists_eq_add_of_le hEnd
  have hInside : ((pre ++ (w ++ (d.text ++ post))).drop pre.length).take (block.bodyEnd - pre.length) =
      (w ++ d.indent) ++ (d.name ++ (d.gap ++ ':' :: (d.value ++ ';' :: post.take k))) := by
    have hCut : block.bodyEnd - pre.length = (w ++ d.text).length + k := by
      rw [hk, List.length_append]
      omega
    rw [List.drop_left, hCut, ← List.append_assoc, List.take_length_add_append]
    simp [WrittenDeclaration.text, WrittenDeclaration.stem]
  have hPre : ':' ∉ w ++ d.indent := by
    rw [List.mem_append, not_or]
    exact ⟨hw, fun hc => absurd (List.all_eq_true.mp d.indentBlank ':' hc) (by decide)⟩
  have hAfter : startsAfter ((w ++ d.indent).getLast?.or pre.getLast?) = true := by
    rw [← List.getLast?_append, ← List.append_assoc]
    exact startsAfter_append hBefore d.indentBlank
  have hFound : findName d.name pre.getLast?
      ((w ++ d.indent) ++ (d.name ++ (d.gap ++ ':' :: (d.value ++ ';' :: post.take k)))) = _ :=
    findName_eq hPre d.nameNe d.nameParts d.gapBlank hAfter
  have hFront : (pre ++ (w ++ (d.text ++ post))).take (pre.length + (w ++ d.indent).length) =
      pre ++ (w ++ d.indent) := by
    rw [List.take_length_add_append, WrittenDeclaration.text, WrittenDeclaration.stem, List.append_assoc,
      List.append_assoc, ← List.append_assoc w, List.take_left]
  unfold declarationLine
  dsimp only
  rw [Nat.max_eq_left hStart, getLast?_eq_before, hInside, String.toList_ofList, hFound]
  dsimp only
  rw [hFront, Prod.mk.injEq]
  refine ⟨rfl, ?_⟩
  simp only [List.length_append, List.length_singleton]
  omega

theorem declarationLines_eq (ds : List WrittenDeclaration) (hw : ':' ∉ w)
    (hStart : block.bodyStart ≤ pre.length)
    (hEnd : (pre ++ (w ++ ds.flatMap WrittenDeclaration.text)).length ≤ block.bodyEnd)
    (hBefore : startsAfter (pre ++ w).getLast? = true) :
    declarationLines (pre ++ (w ++ (ds.flatMap WrittenDeclaration.text ++ post))) block pre.length
        (ds.map fun d => String.ofList d.name) = linesOf (pre ++ w) ds := by
  induction ds generalizing pre w with
  | nil => rfl
  | cons d ds ih =>
    rw [List.flatMap_cons] at hEnd ⊢
    have hText : (pre ++ (w ++ d.text)).length ≤ block.bodyEnd := by
      simp only [List.length_append] at hEnd ⊢
      omega
    have hLine : declarationLine (pre ++ (w ++ (d.text ++ (ds.flatMap WrittenDeclaration.text ++ post)))) block
        (String.ofList d.name) pre.length = _ := declarationLine_eq d hw hStart hText hBefore
    have hValue : ':' ∉ d.value ++ [';'] := by
      rw [List.mem_append, not_or, List.mem_singleton]
      exact ⟨fun hc => absurd (List.all_eq_true.mp d.valuePlain ':' hc) (by decide), by decide⟩
    -- The next name is looked for behind the colon, so the value and the semicolon stand in front of it.
    have hNext : pre ++ (w ++ (d.text ++ (ds.flatMap WrittenDeclaration.text ++ post))) =
        (pre ++ (w ++ (d.indent ++ (d.name ++ (d.gap ++ [':']))))) ++
          ((d.value ++ [';']) ++ (ds.flatMap WrittenDeclaration.text ++ post)) := by
      simp [WrittenDeclaration.text, WrittenDeclaration.stem]
    rw [List.append_assoc, List.map_cons, declarationLines, hLine, linesOf, hNext, ih hValue]
    · simp [WrittenDeclaration.text, WrittenDeclaration.stem]
    · rw [List.length_append]
      omega
    · simp only [WrittenDeclaration.text, WrittenDeclaration.stem, List.length_append, List.length_cons,
        List.length_nil] at hEnd ⊢
      omega
    · rw [← List.append_assoc, List.getLast?_concat]
      decide

end Declarations

theorem WrittenSheet.text_eq {s : WrittenSheet} {before after : List WrittenRule} {r : WrittenRule}
    (h : s.rules = before ++ r :: after) :
    s.text = (before.flatMap WrittenRule.text ++ (r.header ++ ['{'])) ++
      ([] ++ (r.declarations.flatMap WrittenDeclaration.text ++
        (r.close ++ '}' :: (after.flatMap WrittenRule.text ++ s.tail)))) := by
  simp [WrittenSheet.text, h, WrittenRule.text, WrittenRule.body]

/-- The blocks that are found in a written stylesheet are those of its rules, each with the normal spelling of the
selector and the line of its first character. The selectors are found again in their order, and so are the names
of the declarations of each rule. -/
theorem written_places_recovered (s : WrittenSheet) (h : ¬ ['/', '*'] <:+: s.text) :
    blocks (blankComments s.text) = blocksOf [] s.rules ∧
    findBlocks (blocks (blankComments s.text)) (s.rules.map fun r => String.ofList r.selector) =
      (blocksOf [] s.rules).map some ∧
    ∀ before r after, s.rules = before ++ r :: after →
      declarationLines (blankComments s.text) (r.block (before.flatMap WrittenRule.text))
          (r.block (before.flatMap WrittenRule.text)).bodyStart (r.declarations.map fun d => String.ofList d.name) =
        linesOf (before.flatMap WrittenRule.text ++ (r.header ++ ['{'])) r.declarations := by
  have hBlocks : blocks s.text = blocksOf [] s.rules := by
    change blocksBehind [] (s.rules.flatMap WrittenRule.text ++ s.tail) = _
    exact blocksBehind_rules s.tailBlank
  rw [blankComments_eq_self h, hBlocks]
  refine ⟨rfl, findBlocks_of_same ?_, ?_⟩
  · rw [List.map_map]
    exact map_selector_blocksOf [] s.rules
  · intro before r after hRules
    have hStart : (r.block (before.flatMap WrittenRule.text)).bodyStart =
        (before.flatMap WrittenRule.text ++ (r.header ++ ['{'])).length := by
      simp only [WrittenRule.block, List.length_append, List.length_singleton]
      omega
    rw [WrittenSheet.text_eq hRules, hStart,
      declarationLines_eq r.declarations List.not_mem_nil (Nat.le_of_eq hStart), List.append_nil]
    · simp only [WrittenRule.block, WrittenRule.body, List.length_append, List.length_cons, List.length_nil]
      omega
    · rw [List.append_nil, ← List.append_assoc, List.getLast?_concat]
      decide

def echoedRule : WrittenRule where
  lead := "\n ".toList
  selector := "a  > b".toList
  gap := " ".toList
  declarations :=
    [{ indent := "\n  ".toList, name := "color".toList, gap := " ".toList, value := " red".toList },
     { indent := "\n".toList, name := "background-color".toList, gap := [], value := "blue".toList },
     { indent := [], name := "color".toList, gap := [], value := " teal".toList }]
  close := "\n".toList

def echoRule : WrittenRule where
  lead := "\n".toList
  selector := "a>b".toList
  gap := []
  declarations := [{ indent := "\n".toList, name := "color".toList, gap := [], value := "red".toList }]
  close := []

def echoedSheet : WrittenSheet where
  rules := [echoedRule, echoRule]
  tail := "\n".toList

theorem echoedSheet_places :
    ¬ ['/', '*'] <:+: echoedSheet.text ∧
    (blocks (blankComments echoedSheet.text)).map (fun b => (b.selector, b.line)) = [("a>b", 2), ("a>b", 6)] ∧
    (findBlocks (blocks (blankComments echoedSheet.text)) ["a  > b", "a>b"]).map (Option.map Block.line) =
      [some 2, some 6] ∧
    declarationLines (blankComments echoedSheet.text) (echoedRule.block []) (echoedRule.block []).bodyStart
      ["color", "background-color", "color"] = [3, 4, 4] := by
  have hComment : ¬ ['/', '*'] <:+: echoedSheet.text := by decide +kernel
  obtain ⟨hBlocks, hFound, hLines⟩ := written_places_recovered echoedSheet hComment
  have hSelectors : (echoedSheet.rules.map fun r => String.ofList r.selector) = ["a  > b", "a>b"] := by
    decide +kernel
  have hNames : (echoedRule.declarations.map fun d => String.ofList d.name) =
      ["color", "background-color", "color"] := by
    decide +kernel
  have hFirst := hLines [] echoedRule [echoRule] rfl
  rw [hSelectors] at hFound
  rw [hNames] at hFirst
  refine ⟨hComment, ?_, ?_, hFirst.trans (by decide +kernel)⟩
  · rw [hBlocks]
    decide +kernel
  · rw [hFound]
    decide +kernel

end WebAudit.Stylesheet
