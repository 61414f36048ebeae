import WebAudit.Proofs.Analysis.Hits
import WebAudit.Proofs.Finding.Outline
import WebAudit.Proofs.Run.Progress

/-!
# Reported findings are well formed

Findings are made in two ways only: of a hit in a record, and of a cycle or an unused file. Both keep line,
extent and snippet within their bounds and make an id of the rule and a digest. Sorting leaves them as they
are, and separating their ids makes another id of the same form.
-/

namespace WebAudit

/-! ## Parts of findings -/

theorem Text.length_truncate_le {limit : Int} (hLimit : 3 ≤ limit) (s : String) :
    ((truncate limit s).length : Int) ≤ limit := by
  unfold truncate
  dsimp only
  split
  · rwa [← String.length_toList]
  · rw [String.length_ofList, takeUpTo, if_pos (by omega), List.length_append, List.length_take]
    simp only [List.length_cons, List.length_nil]
    omega

theorem Hit.length_snippetIn_le (h : Hit) (record : Record) : ((h.snippetIn record).length : Int) ≤ 500 := by
  have hCut := @Text.length_truncate_le Snippet.maxLength (by decide)
  unfold snippetIn
  split
  · exact hCut _
  · split
    · exact hCut _
    · unfold Snippet.around
      split
      · decide
      · exact hCut _

theorem Digest.Sha256.mem_of_mem_hex {message : List UInt8} {c : Char} (h : c ∈ hex message) :
    c ∈ "0123456789abcdef".toList := by
  have hDigit : ∀ d < 16, Nat.digitChar d ∈ "0123456789abcdef".toList := by decide
  obtain ⟨word, -, hc⟩ := List.mem_flatMap.mp h
  obtain ⟨i, -, rfl⟩ := List.mem_map.mp hc
  exact hDigit _ (Nat.mod_lt _ (by decide))

namespace Finding

/-- What holds of every finding, wherever it comes from. -/
structure WellFormed (f : Finding) : Prop where
  line : 1 ≤ f.line
  endLine : ∀ stop, f.endLine = some stop → f.line ≤ stop
  snippet : f.snippet.length ≤ 500
  status : f.status.name = "open"
  id : ∃ digest : String, f.id = f.ruleId ++ "-" ++ digest ∧ digest.length = 16 ∧
    ∀ c ∈ digest.toList, c ∈ "0123456789abcdef".toList

theorem exists_digest (path ruleId : String) (line : Int) (salt : String) :
    ∃ digest : String, makeId path ruleId line salt = ruleId ++ "-" ++ digest ∧ digest.length = 16 ∧
      ∀ c ∈ digest.toList, c ∈ "0123456789abcdef".toList := by
  refine ⟨digest (key path ruleId line salt), rfl, length_digest _, ?_⟩
  intro c hc
  rw [digest, String.toList_ofList] at hc
  exact Digest.Sha256.mem_of_mem_hex (List.mem_of_mem_take hc)

theorem WellFormed.withRank {f : Finding} (h : f.WellFormed) (rank : Nat) : (f.withRank rank).WellFormed := by
  unfold Finding.withRank
  split
  · exact h
  · exact { h with id := exists_digest _ _ _ _ }

end Finding

/-! ## Findings of records and of imports -/

theorem Hit.Extends.wellFormed {hit : Hit} {rule : Rule} {record : Record} {f : Finding} (hExtends : hit.Extends)
    (h : hit.finding? rule record = some f) :
    f.WellFormed ∧ f.concern = rule.concern ∧ f.concern.name ∈ f.tags ∧ record.kind.name ∈ f.tags := by
  unfold Hit.finding? at h
  dsimp only at h
  split at h
  · cases h
  · rename_i hLine
    cases h
    refine ⟨⟨Int.not_lt.mp hLine, ?_, ?_, rfl, Finding.exists_digest _ _ _ _⟩, rfl, ?_, ?_⟩
    · intro stop hStop
      obtain ⟨stop, hEnd, rfl⟩ := Option.map_eq_some_iff.mp hStop
      have hOrder := hExtends stop hEnd
      dsimp only [Hit.reportedLine]
      omega
    · exact Int.ofNat_le.mp (hit.length_snippetIn_le record)
    · exact mem_sortTags.mpr (List.mem_append_right _ List.mem_cons_self)
    · exact mem_sortTags.mpr (List.mem_append_right _ (List.mem_cons_of_mem _ List.mem_cons_self))

theorem Imports.wellFormed_finding (rule : Rule) (path : String) (line : Int) (description : String)
    {snippet : String} (hSnippet : snippet.length ≤ 500) :
    (finding rule path line description snippet).WellFormed where
  line := Int.le_max_right _ _
  endLine _ h := by cases h
  snippet := hSnippet
  status := rfl
  id := Finding.exists_digest _ _ _ _

theorem Imports.wellFormed_findings {batch : Batch} {paths patterns : List String} {f : Finding}
    (hf : f ∈ findings batch paths patterns) : f.WellFormed := by
  unfold findings at hf
  rcases List.mem_append.mp hf with hf | hf
  · obtain ⟨c, -, rfl⟩ := List.mem_map.mp hf
    apply wellFormed_finding
    exact Int.ofNat_le.mp (Text.length_truncate_le (by decide) _)
  · obtain ⟨path, -, rfl⟩ := List.mem_map.mp hf
    apply wellFormed_finding
    decide

/-! ## Whole runs -/

namespace Run

open Collect (Supply Ledger World)

/-- Every finding that a run reports is well formed and of a selected concern. Those that are not about imports
are of merged records, and their tags name concern and kind. Nothing that was found in a merged record is left
out. -/
theorem reported_findings_wellFormed (world : World) (request : Request) {report : Report}
    (h : execute world request = .ok report) :
    ∃ supply ledger merged, Collect.openSource world request.options request.source = .ok (supply, ledger) ∧
      ((request.plan world).start supply ledger).merged request.isCancelled = merged ∧
      (∀ o ∈ merged, ∀ g ∈ o.findings, ∃ f ∈ report.findings, f.withoutId = g.withoutId) ∧
      ∀ f ∈ report.findings, f.WellFormed ∧ request.toggles.isEnabled f.concern = true ∧
        (f.ruleId = Imports.circularDependency.id ∨ f.ruleId = Imports.unusedFile.id ∨
          ∃ o ∈ merged, (∃ g ∈ o.findings, f.withoutId = g.withoutId) ∧
            f.concern.name ∈ f.tags ∧ o.record.kind.name ∈ f.tags) := by
  obtain ⟨supply, ledger, merged, hOpen, hMerged, hAnalyzes, hFindings⟩ := findings_of_execute h
  refine ⟨supply, ledger, merged, hOpen, hMerged, ?_, ?_⟩
  · intro o ho g hg
    rw [hFindings]
    exact exists_reported (List.mem_append_left _ (List.mem_flatMap.mpr ⟨o, ho, hg⟩))
  · intro f hf
    rw [hFindings] at hf
    obtain ⟨g, hg, rank, rfl⟩ := exists_found hf
    have hSame := g.withoutId_withRank rank
    have hConcern : (g.withRank rank).concern = g.concern := (congrArg Finding.concern hSame :)
    have hTags : (g.withRank rank).tags = g.tags := (congrArg Finding.tags hSame :)
    have hRule : (g.withRank rank).ruleId = g.ruleId := (congrArg Finding.ruleId hSame :)
    rw [hConcern, hTags, hRule]
    rcases List.mem_append.mp hg with hg | hg
    · obtain ⟨o, ho, hg⟩ := List.mem_flatMap.mp hg
      obtain ⟨rule, -, hOn, hit, hExtends, hFinding⟩ := Record.yields_of_analyze (hAnalyzes o ho) g hg
      obtain ⟨hWell, hOf, hConcernTag, hKindTag⟩ := hExtends.wellFormed hFinding
      exact ⟨hWell.withRank rank, hOf ▸ hOn, .inr (.inr ⟨o, ho, ⟨g, hg, hSame⟩, hConcernTag, hKindTag⟩)⟩
    · split at hg
      · rename_i hOn
        have hQuality := Imports.concern_findings hg
        refine ⟨(Imports.wellFormed_findings hg).withRank rank, ?_, ?_⟩
        · rw [hQuality]
          exact (Bool.and_eq_true_iff.mp hOn).2
        · rcases Imports.isOf_findings hg with hOf | hOf
          · exact .inl hOf.ruleId
          · exact .inr (.inl hOf.ruleId)
      · cases hg

theorem plainRequest_findings_wellFormed :
    ∃ report, execute scriptedWeb plainRequest = .ok report ∧
      ∃ f ∈ report.findings, f.ruleId = "missing-csp" ∧ f.WellFormed ∧
        plainRequest.toggles.isEnabled f.concern = true := by
  obtain ⟨report, hReport⟩ := collects_plainRequest.returns
  obtain ⟨fetched, hOwes⟩ := owes_plainRequest
  obtain ⟨supply, ledger, merged, hOpen, hMerged, hReported, hAll⟩ :=
    reported_findings_wellFormed scriptedWeb plainRequest hReport
  cases openSource_plainRequest.symm.trans hOpen
  have hNever : ∀ reports, plainRequest.isCancelled reports = false := fun _ => rfl
  obtain ⟨b, hWork, hPerm⟩ := hOwes.work rfl (plainRequest.inFlight_pos scriptedWeb) hNever
  obtain ⟨-, hAnalyzes, -⟩ := goesOn_of_work hWork
  rw [hMerged] at hPerm hAnalyzes
  obtain ⟨o, ho, hRecord⟩ := List.mem_map.mp (hPerm.mem_iff.mpr List.mem_cons_self)
  have hAnalyze : scriptedPage.analyze {} 100 false = .ok o := hRecord ▸ hAnalyzes o ho
  have hFirst : ((scriptedPage.analyze {} 100 false).toOption.bind fun o => o.findings.head?.map (·.ruleId)) =
      some "missing-csp" := by
    decide +kernel
  rw [hAnalyze] at hFirst
  obtain ⟨g, hHead, hRule⟩ := Option.map_eq_some_iff.mp hFirst
  obtain ⟨f, hf, hSame⟩ := hReported o ho g (List.mem_of_head? hHead)
  obtain ⟨hWell, hOn, -⟩ := hAll f hf
  exact ⟨report, hReport, f, hf, (congrArg Finding.ruleId hSame :).trans hRule, hWell, hOn⟩

end Run

end WebAudit
