import WebAudit.Script.Lexeme

/-!
# Splitting is exact

What is split off the front of a text and what is left make up the text again.
-/

namespace WebAudit.Script.Lexeme

/-- Nothing is lost or made up in splitting. -/
class Exact (split : List Char → Split) : Prop where
  append_eq {cs text rest : List Char} : split cs = some (text, rest) → text ++ rest = cs

variable {cs text rest : List Char}

theorem span_loop_append (p : Char → Bool) (cs seen : List Char) :
    (List.span.loop p cs seen).1 ++ (List.span.loop p cs seen).2 = seen.reverse ++ cs := by
  induction cs generalizing seen with
  | nil => rfl
  | cons c cs ih =>
    have hLoop : List.span.loop p (c :: cs) seen =
        cond (p c) (List.span.loop p cs (c :: seen)) (seen.reverse, c :: cs) := rfl
    rw [hLoop]
    cases p c with
    | true =>
      rw [cond_true, ih]
      simp
    | false => rfl

theorem span_append (p : Char → Bool) (cs : List Char) : (cs.span p).1 ++ (cs.span p).2 = cs :=
  span_loop_append p cs []

theorem append_of_span {p : Char → Bool} (h : cs.span p = (text, rest)) : text ++ rest = cs := by
  have hAppend := span_append p cs
  rw [h] at hAppend
  exact hAppend

instance (p : Char → Bool) : Exact (fun cs => some (cs.span p)) where
  append_eq h := append_of_span (Option.some.inj h)

instance (p : Char → Bool) : Exact (span1 p) where
  append_eq {cs text rest} h := by
    unfold span1 at h
    split at h
    · cases h
    · exact append_of_span (Option.some.inj h)

theorem append_of_dropSpelling {spelling : List Char} (h : dropSpelling spelling cs = some rest) :
    spelling ++ rest = cs := by
  induction spelling generalizing cs with
  | nil =>
    cases h
    rfl
  | cons s ss ih =>
    cases cs with
    | nil => cases h
    | cons c cs =>
      rw [dropSpelling] at h
      split at h
      · rename_i hEq
        rw [List.cons_append, ih h, hEq]
      · cases h

instance (spelling : String) : Exact (spelled spelling) where
  append_eq {cs text rest} h := by
    obtain ⟨after, hAfter, hSome⟩ := Option.map_eq_some_iff.mp h
    cases hSome
    exact append_of_dropSpelling hAfter

/-! ## Names -/

instance : Exact unicodeEscape where
  append_eq {cs text rest} h := by
    unfold unicodeEscape at h
    split at h
    · split at h
      · rename_i hSpan
        cases h
        simp [← Exact.append_eq hSpan]
      · cases h
    · split at h
      · cases h
        rfl
      · cases h
    · cases h

theorem append_of_nameTail {fuel : Nat} {seen : List Char} (h : nameTail fuel seen cs = (text, rest)) :
    text ++ rest = seen.reverse ++ cs := by
  induction fuel generalizing seen cs with
  | zero =>
    cases h
    rfl
  | succ fuel ih =>
    unfold nameTail at h
    split at h
    · split at h
      · rename_i hEscape
        rw [ih h, ← Exact.append_eq hEscape]
        simp
      · cases h
        rfl
    · split at h
      · rw [ih h]
        simp
      · cases h
        rfl
    · cases h
      rfl

instance : Exact name where
  append_eq {cs text rest} h := by
    unfold name at h
    split at h
    · split at h
      · rename_i hEscape
        rw [append_of_nameTail (Option.some.inj h), ← Exact.append_eq hEscape]
        simp
      · cases h
    · split at h
      · rw [append_of_nameTail (Option.some.inj h)]
        rfl
      · cases h
    · cases h

instance : Exact dashedName where
  append_eq {cs text rest} h := by
    unfold dashedName at h
    dsimp only at h
    split at h
    · split at h
      · split at h
        · rename_i hFront
          cases h
          rw [← append_of_span hFront, List.append_assoc, List.cons_append, span_append]
        · cases h
      · cases h
    · cases h

instance : Exact elementName where
  append_eq {cs text rest} h := by
    unfold elementName at h
    split at h
    · rename_i hDashed
      cases h
      exact Exact.append_eq hDashed
    · exact Exact.append_eq h

instance : Exact privateName where
  append_eq {cs text rest} h := by
    unfold privateName at h
    split at h
    · obtain ⟨⟨w, after⟩, hName, hSome⟩ := Option.map_eq_some_iff.mp h
      cases hSome
      rw [List.cons_append, Exact.append_eq hName]
    · cases h

/-! ## Numbers -/

theorem digitsRest_go_suffix (p : Char → Bool) (cs : List Char) : digitsRest.go p cs <:+ cs := by
  fun_induction digitsRest.go p cs with
  | case1 c cs hDigit ih => exact ih.trans ((List.suffix_cons c cs).trans (List.suffix_cons '_' (c :: cs)))
  | case2 => exact List.suffix_refl _
  | case3 c cs _ hDigit ih => exact ih.trans (List.suffix_cons c cs)
  | case4 => exact List.suffix_refl _
  | case5 => exact List.suffix_refl _

theorem suffix_of_digitsRest {p : Char → Bool} (h : digitsRest p cs = some rest) : rest <:+ cs := by
  unfold digitsRest at h
  split at h
  · rename_i c cs
    split at h
    · cases h
      exact (digitsRest_go_suffix p cs).trans (List.suffix_cons c cs)
    · cases h
  · cases h

theorem suffix_of_exponentRest (h : exponentRest cs = some rest) : rest <:+ cs := by
  unfold exponentRest at h
  split at h
  · rename_i e cs
    split at h
    · split at h
      · exact (suffix_of_digitsRest h).trans ((List.suffix_cons _ _).trans (List.suffix_cons _ _))
      · exact (suffix_of_digitsRest h).trans ((List.suffix_cons _ _).trans (List.suffix_cons _ _))
      · exact (suffix_of_digitsRest h).trans (List.suffix_cons _ _)
    · cases h
  · cases h

theorem suffix_getD {f : List Char → Option (List Char)} (hf : ∀ {rest}, f cs = some rest → rest <:+ cs) :
    (f cs).getD cs <:+ cs := by
  cases h : f cs with
  | none => exact List.suffix_refl _
  | some rest => exact hf h

theorem integerRest_afterLead_suffix (cs : List Char) : integerRest.afterLead cs <:+ cs := by
  unfold integerRest.afterLead
  split
  · rename_i ds
    cases h : digitsRest Char.isDigit ds with
    | none => exact List.suffix_refl _
    | some rest => exact (suffix_of_digitsRest h).trans (List.suffix_cons '_' ds)
  · exact suffix_getD suffix_of_digitsRest

theorem suffix_of_integerRest (h : integerRest cs = some rest) : rest <:+ cs := by
  unfold integerRest at h
  split at h
  · rename_i c cs
    split at h
    · cases h
      exact (integerRest_afterLead_suffix cs).trans
        ((List.suffix_cons c cs).trans (List.suffix_cons '0' (c :: cs)))
    · cases h
      exact List.suffix_cons '0' (c :: cs)
  · cases h
    exact List.nil_suffix
  · rename_i c cs _ _
    split at h
    · cases h
      exact (integerRest_afterLead_suffix cs).trans (List.suffix_cons c cs)
    · cases h
  · cases h

theorem suffix_of_mem_bigRests {found : Option (List Char)} (h : rest ∈ bigRests found) :
    ∃ cs, found = some cs ∧ rest <:+ cs := by
  unfold bigRests at h
  split at h
  · rename_i tail
    refine ⟨_, rfl, ?_⟩
    rcases List.mem_cons.mp h with rfl | h
    · exact List.suffix_refl _
    · rw [List.mem_singleton.mp h]
      exact List.suffix_cons 'n' tail
  · exact ⟨_, rfl, List.mem_singleton.mp h ▸ List.suffix_refl _⟩
  · cases h

theorem suffix_of_mem_bigRests_digitsRest {p : Char → Bool} (h : rest ∈ bigRests (digitsRest p cs)) :
    rest <:+ cs := by
  obtain ⟨middle, hMiddle, hRest⟩ := suffix_of_mem_bigRests h
  exact hRest.trans (suffix_of_digitsRest hMiddle)

theorem suffix_of_mem_basedRests (h : rest ∈ basedRests cs) : rest <:+ cs := by
  unfold basedRests at h
  split at h
  · rename_i b ds
    have hDigits : ∀ {p : Char → Bool}, rest ∈ bigRests (digitsRest p ds) → rest <:+ '0' :: b :: ds :=
      fun h => (suffix_of_mem_bigRests_digitsRest h).trans
        ((List.suffix_cons b ds).trans (List.suffix_cons '0' (b :: ds)))
    split at h
    · exact hDigits h
    · split at h
      · exact hDigits h
      · split at h
        · exact hDigits h
        · cases h
  · cases h

theorem suffix_of_mem_fractionRests (h : rest ∈ fractionRests cs) : rest <:+ cs := by
  unfold fractionRests at h
  split at h
  · rename_i ds
    obtain ⟨middle, hMiddle, rfl⟩ := Option.map_eq_some_iff.mp (Option.mem_toList.mp h)
    exact (suffix_getD suffix_of_exponentRest).trans
      ((suffix_of_digitsRest hMiddle).trans (List.suffix_cons '.' ds))
  · cases h

theorem suffix_of_mem_pointedRests (h : rest ∈ pointedRests cs) : rest <:+ cs := by
  unfold pointedRests at h
  split at h
  · rename_i ds hInteger
    rw [List.mem_singleton.mp h]
    exact (suffix_getD suffix_of_exponentRest).trans ((suffix_getD suffix_of_digitsRest).trans
      ((List.suffix_cons '.' ds).trans (suffix_of_integerRest hInteger)))
  · rename_i hInteger
    exact (suffix_of_exponentRest (Option.mem_toList.mp h)).trans (suffix_of_integerRest hInteger)
  · cases h

theorem suffix_of_mem_numberRests (h : rest ∈ numberRests cs) : rest <:+ cs := by
  unfold numberRests at h
  rw [List.mem_append, List.mem_append, List.mem_append] at h
  rcases h with ((h | h) | h) | h
  · exact suffix_of_mem_basedRests h
  · exact suffix_of_mem_fractionRests h
  · exact suffix_of_mem_pointedRests h
  · exact suffix_of_mem_bigRests_digitsRest h

theorem foldl_shorter_mem (r : List Char) (rs : List (List Char)) : rs.foldl shorter r ∈ r :: rs := by
  induction rs generalizing r with
  | nil => exact List.mem_cons_self
  | cons r' rs ih =>
    have hShorter : shorter r r' = r ∨ shorter r r' = r' := by
      unfold shorter
      split
      · exact .inr rfl
      · exact .inl rfl
    rw [List.foldl_cons]
    rcases List.mem_cons.mp (ih (shorter r r')) with hHead | hTail
    · rcases hShorter with hSame | hSame
      · rw [hHead, hSame]
        exact List.mem_cons_self
      · rw [hHead, hSame]
        exact List.mem_cons_of_mem r List.mem_cons_self
    · exact List.mem_cons_of_mem r (List.mem_cons_of_mem r' hTail)

theorem take_append_of_suffix (h : rest <:+ cs) : cs.take (cs.length - rest.length) ++ rest = cs := by
  obtain ⟨front, rfl⟩ := h
  simp

instance : Exact number where
  append_eq {cs text rest} h := by
    unfold number at h
    split at h
    · cases h
    · rename_i r rs hRests
      cases h
      refine take_append_of_suffix (suffix_of_mem_numberRests ?_)
      rw [hRests]
      exact foldl_shorter_mem r rs

/-! ## Insides of strings, templates and patterns -/

instance (quote : Char) : Exact (stringFragment quote) where
  append_eq {cs text rest} h := by
    unfold stringFragment at h
    exact Exact.append_eq h

instance : Exact escape where
  append_eq {cs text rest} h := by
    unfold escape at h
    split at h
    · split at h
      · split at h
        · cases h
          rfl
        · cases h
      · cases h
      · obtain ⟨⟨esc, rest⟩, hEscape, hSome⟩ := Option.map_eq_some_iff.mp h
        cases hSome
        rw [List.cons_append, Exact.append_eq hEscape]
      · split at h <;> cases h <;> rfl
      · split at h <;> cases h <;> rfl
      · split at h
        · cases h
          rw [List.cons_append]
          exact congrArg ('\\' :: ·) (List.prefix_iff_eq_append.mp
            ((List.takeWhile_prefix _).trans (List.take_prefix 3 _)))
        · cases h
          rfl
      · cases h
    · cases h

theorem append_of_templateChars_finish {seen : List Char}
    (h : templateChars.finish seen cs = some (text, rest)) : text ++ rest = seen.reverse ++ cs := by
  unfold templateChars.finish at h
  split at h
  · cases h
  · cases h
    rfl

theorem append_of_templateChars {seen : List Char} (h : templateChars seen cs = some (text, rest)) :
    text ++ rest = seen.reverse ++ cs := by
  fun_induction templateChars seen cs with
  | case1 => cases h
  | case2 => exact append_of_templateChars_finish h
  | case3 => exact append_of_templateChars_finish h
  | case4 seen c cs _ _ ih =>
    rw [ih h]
    simp

instance : Exact (templateChars []) where
  append_eq h := append_of_templateChars h

theorem append_of_patternClass {seen : List Char} (h : patternClass seen cs = some (text, rest)) :
    text ++ rest = seen.reverse ++ cs := by
  fun_induction patternClass seen cs with
  | case1 => cases h
  | case2 =>
    cases h
    simp
  | case3 => cases h
  | case4 seen c cs _ ih =>
    rw [ih h]
    simp
  | case5 => cases h
  | case6 seen c cs _ _ _ ih =>
    rw [ih h]
    simp

theorem append_of_patternBody {fuel : Nat} {seen : List Char}
    (h : patternBody fuel seen cs = (text, rest)) : text ++ rest = seen.reverse ++ cs := by
  induction fuel generalizing seen cs with
  | zero =>
    cases h
    rfl
  | succ fuel ih =>
    unfold patternBody at h
    split at h
    · split at h
      · rename_i hClass
        rw [ih h]
        simp [append_of_patternClass hClass]
      · cases h
        rfl
    · split at h
      · cases h
        rfl
      · rw [ih h]
        simp
    · split at h
      · cases h
        rfl
      · rw [ih h]
        simp
    · cases h
      rfl

instance : Exact pattern where
  append_eq {cs text rest} h := by
    unfold pattern at h
    split at h
    · cases h
    · exact append_of_patternBody (Option.some.inj h)

/-! ## Insides of elements -/

instance : Exact elementText where
  append_eq {cs text rest} h := by
    unfold elementText at h
    dsimp only at h
    split at h
    · cases h
      exact span_append _ cs
    · cases h

theorem append_of_closeReference {front ds after : List Char} {most : Nat}
    (h : closeReference front ds after most = some (text, rest)) : text ++ rest = front ++ (ds ++ after) := by
  unfold closeReference at h
  split at h
  · split at h
    · cases h
    · cases h
      simp
  · cases h

instance : Exact characterReference where
  append_eq {cs text rest} h := by
    unfold characterReference at h
    split at h
    · rw [append_of_closeReference h, span_append]
      rfl
    · rw [append_of_closeReference h, span_append]
      rfl
    · rw [append_of_closeReference h, span_append]
      rfl
    · rw [append_of_closeReference h, span_append]
      rfl
    · cases h

theorem append_of_attributeFragment {quote : Char} {seen : List Char}
    (h : attributeFragment quote seen cs = (text, rest)) : text ++ rest = seen.reverse ++ cs := by
  fun_induction attributeFragment quote seen cs with
  | case1 => cases h; rfl
  | case2 => cases h; rfl
  | case3 seen c cs _ _ ih =>
    rw [ih h]
    simp
  | case4 => cases h; rfl
  | case5 seen c cs _ _ ih =>
    rw [ih h]
    simp
  | case6 => cases h; rfl

instance (quote : Char) : Exact (attributeText quote) where
  append_eq {cs text rest} h := by
    unfold attributeText at h
    split at h
    · cases h
    · exact append_of_attributeFragment (Option.some.inj h)

/-! ## Comments -/

theorem suffix_of_blockCommentRest (h : blockCommentRest cs = some rest) : rest <:+ cs := by
  fun_induction blockCommentRest cs with
  | case1 rest' =>
    cases h
    exact (List.suffix_cons '/' rest).trans (List.suffix_cons '*' _)
  | case2 c cs _ ih => exact (ih h).trans (List.suffix_cons c cs)
  | case3 => cases h

instance : Exact comment where
  append_eq {cs text rest} h := by
    unfold comment at h
    split at h
    · exact append_of_span (Option.some.inj h)
    · rename_i body
      obtain ⟨after, hAfter, hSome⟩ := Option.map_eq_some_iff.mp h
      cases hSome
      exact take_append_of_suffix ((suffix_of_blockCommentRest hAfter).trans
        ((List.suffix_cons '*' body).trans (List.suffix_cons '/' ('*' :: body))))
    · cases h

instance : Exact htmlComment where
  append_eq {cs text rest} h := by
    unfold htmlComment at h
    split at h
    · exact append_of_span (Option.some.inj h)
    · cases h

end WebAudit.Script.Lexeme
