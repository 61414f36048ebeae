import WebAudit.Url.Join

/-!
# Addresses that are never refused

An address is refused for what its host contains: a bracket, or a character that turns into a delimiter.
An address without such characters has parts, and can be resolved against any base that has none either.
-/

namespace WebAudit.Url

/-- No character of the address can be a reason to refuse it. -/
def Sober (text : String) : Prop :=
  ∀ c ∈ text.toList, c ≠ '[' ∧ c ≠ ']' ∧ delimiterLike.contains c.toNat = false

instance (text : String) : Decidable (Sober text) :=
  List.decidableBAll _ _

/-! ## Where a host comes from -/

theorem clean_subset (cs : List Char) : clean cs ⊆ cs := by
  intro c hc
  exact (List.dropWhile_sublist _).subset (List.mem_filter.mp hc).1

theorem splitScheme_subset (fallback cs : List Char) : (splitScheme fallback cs).2 ⊆ cs := by
  unfold splitScheme
  dsimp only
  split
  · exact List.drop_subset _ cs
  · exact List.Subset.refl cs

theorem splitHost_subset (cs : List Char) : (splitHost cs).1 ⊆ cs := by
  unfold splitHost
  split
  · rename_i rest
    intro c hc
    exact List.mem_cons_of_mem _ (List.mem_cons_of_mem _ ((List.takeWhile_sublist _).subset hc))
  · exact List.nil_subset _

/-! ## Acceptance -/

variable {netloc : List Char}

theorem checkBrackets_eq_ok (h : ∀ c ∈ netloc, c ≠ '[' ∧ c ≠ ']') : checkBrackets netloc = .ok () := by
  have hOpen : netloc.contains '[' = false := by
    simpa using fun hMem => (h _ hMem).1 rfl
  have hClose : netloc.contains ']' = false := by
    simpa using fun hMem => (h _ hMem).2 rfl
  unfold checkBrackets
  rw [hOpen, hClose]

theorem checkDelimiters_eq_ok (h : ∀ c ∈ netloc, delimiterLike.contains c.toNat = false) :
    checkDelimiters netloc = .ok () := by
  unfold checkDelimiters
  rw [if_neg]
  rw [List.any_eq_true]
  rintro ⟨c, hc, hLike⟩
  exact absurd hLike (by rw [h c hc]; exact Bool.false_ne_true)

theorem Sober.parse {text : String} (h : Sober text) (fallback : List Char) :
    ∃ u, parse text fallback = .ok u := by
  have hHost : ∀ c ∈ (splitHost (splitScheme fallback (clean text.toList)).2).1,
      c ≠ '[' ∧ c ≠ ']' ∧ delimiterLike.contains c.toNat = false := fun c hc =>
    h c (clean_subset _ (splitScheme_subset _ _ (splitHost_subset _ hc)))
  have hBrackets := checkBrackets_eq_ok fun c hc => ⟨(hHost c hc).1, (hHost c hc).2.1⟩
  have hDelimiters := checkDelimiters_eq_ok fun c hc => (hHost c hc).2.2
  unfold Url.parse
  dsimp only
  rw [hBrackets, hDelimiters]
  exact ⟨_, rfl⟩

/-- Sober addresses can be resolved against sober bases. -/
theorem Sober.join {base text : String} (hBase : Sober base) (hText : Sober text) :
    ∃ url, join base text = .ok url := by
  obtain ⟨b, hb⟩ := hBase.parse []
  obtain ⟨u, hu⟩ := hText.parse b.scheme
  unfold Url.join
  rw [hb]
  dsimp only [bind, Except.bind]
  rw [hu]
  dsimp only [pure, Except.pure]
  -- once both are in parts, every way through ends with an address
  repeat' split
  all_goals exact ⟨_, rfl⟩

end WebAudit.Url
