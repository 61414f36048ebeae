import WebAudit.Proofs.Analysis.Selection
import WebAudit.Proofs.Finding.Snippet
import WebAudit.Proofs.Script.CallHits

/-!
# The line that a snippet marks

A finding about a call has the line that newlines give it, and its snippet marks the line with that number
among those that every line break ends. The two are the same line as long as no other line break occurs up
to the call; a form feed in front of it is enough to mark a wrong one.
-/

namespace WebAudit

namespace Record

variable {record : Record} {toggles : Toggles} {nesting : Nat} {followAssets : Bool} {o : Outcome} {f : Finding}

/-! ## Where findings come from -/

theorem isOf_complaint {rule : Rule} {issue : Issue} (h : record.complaint rule issue = .ok f) :
    f.IsOf rule := by
  unfold complaint at h
  dsimp only at h
  split at h
  · rename_i hFinding
    cases h
    exact Hit.isOf_finding? hFinding
  · contradiction

theorem isOf_parseFindings {parsed : Except ParseFault (Option Parsed)} {complaints : List Finding}
    (h : record.parseFindings parsed toggles = .ok complaints) :
    ∀ f ∈ complaints, f.IsOf syntaxError ∨ f.IsOf analysisError := by
  unfold parseFindings at h
  split at h
  · rename_i rule issue hIssue
    split at h
    · cases hComplaint : record.complaint rule issue with
      | error fault =>
        rw [hComplaint] at h
        contradiction
      | ok f =>
        rw [hComplaint] at h
        cases h
        have hOf := isOf_complaint hComplaint
        rcases rule_of_parseIssue? hIssue with rfl | rfl
        · exact List.forall_mem_singleton.mpr (.inl hOf)
        · exact List.forall_mem_singleton.mpr (.inr hOf)
    · cases h
      simp
  · cases h
    simp

theorem isOf_failedOutcome {fault : AnalysisFault} {events : List Event}
    (h : record.failedOutcome fault events toggles = .ok o) : ∀ f ∈ o.findings, f.IsOf analysisError := by
  unfold failedOutcome at h
  dsimp only at h
  split at h
  · cases hComplaint : record.complaint analysisError ⟨1, none, "Analysis failed: " ++ fault.message⟩ with
    | error fault =>
      rw [hComplaint] at h
      contradiction
    | ok f =>
      rw [hComplaint] at h
      cases h
      exact List.forall_mem_singleton.mpr (isOf_complaint hComplaint)
  · cases h
    simp

theorem source_of_finding (h : record.analyze toggles nesting followAssets = .ok o) (hf : f ∈ o.findings) :
    f.IsOf syntaxError ∨ f.IsOf analysisError ∨
      f ∈ (record.structuralInspection record.parse toggles).findings ∨
      f ∈ (record.lexicalInspection toggles nesting).findings := by
  unfold analyze at h
  dsimp only at h
  cases hComplaints : record.parseFindings record.parse toggles with
  | error fault =>
    rw [hComplaints] at h
    exact .inr (.inl (isOf_failedOutcome h f hf))
  | ok complaints =>
    cases hAssets : record.assetsOf record.parse followAssets with
    | error fault =>
      rw [hComplaints, hAssets] at h
      exact .inr (.inl (isOf_failedOutcome h f hf))
    | ok assets =>
      rw [hComplaints, hAssets] at h
      cases h
      simp only [Inspection.join, List.flatMap_cons, List.flatMap_nil, List.append_nil,
        List.mem_append] at hf
      rcases hf with hf | hf | hf
      · rcases isOf_parseFindings hComplaints f hf with hOf | hOf
        · exact .inl hOf
        · exact .inr (.inl hOf)
      · exact .inr (.inr (.inl hf))
      · exact .inr (.inr (.inr hf))

/-- A finding of a rule for calls in a script is made of a hit that points into the script. -/
theorem exists_callHit (hKind : record.kind = .script) (h : record.analyze toggles nesting followAssets = .ok o)
    (hf : f ∈ o.findings) (hRule : f.ruleId ∈ Script.callRules.map (·.id)) :
    ∃ hit : Hit, ∃ rule, hit.PointsInto record.content.toList ∧ hit.finding? rule record = some f := by
  rcases source_of_finding h hf with hOf | hOf | hf | hf
  · rw [hOf.ruleId] at hRule
    exact absurd hRule (by decide)
  · rw [hOf.ruleId] at hRule
    exact absurd hRule (by decide)
  · have hParse : record.parse =
        .ok (some (.script (Script.Source.parse record.dialect record.content))) := by
      rw [Record.parse, hKind]
    rw [hParse] at hf
    obtain ⟨d, hd, hf⟩ := exists_detector hf
    obtain ⟨hit, hHit, hFinding⟩ := Detector.exists_hit hf
    rw [(Hit.isOf_finding? hFinding).ruleId] at hRule
    exact ⟨hit, d.rule, Script.pointsInto_callRules (Script.within_sites _ _) record d hd hRule hit hHit,
      hFinding⟩
  · have hLexical : ∀ rule ∈ Catalogue.lexical .script, rule.id ∉ Script.callRules.map (·.id) := by
      decide
    unfold lexicalInspection at hf
    split at hf
    · contradiction
    · obtain ⟨d, hd, hOf⟩ := isOf_inspect hf
      rw [hKind] at hd
      rw [hOf.ruleId] at hRule
      exact absurd hRule (hLexical d.rule (List.mem_map_of_mem hd))

/-! ## The marked line -/

theorem line_of_finding? {hit : Hit} {rule : Rule} (h : hit.finding? rule record = some f) :
    f.line = hit.reportedLine record ∧ f.snippet = hit.snippetIn record := by
  unfold Hit.finding? at h
  dsimp only at h
  split at h
  · contradiction
  · cases h
    exact ⟨rfl, rfl⟩

/-- An uncut snippet of a finding about a call has one marked row. It shows the line with the number of the
finding among those that any line break ends; that is the line between newlines, up to a carriage return at
its end, if no line up to it is broken by anything else. -/
theorem snippet_marks_reported_line (hKind : record.kind = .script)
    (h : record.analyze toggles nesting followAssets = .ok o) (hf : f ∈ o.findings)
    (hRule : f.ruleId ∈ Script.callRules.map (·.id))
    (hFits : Snippet.Fits record.lines (f.line - record.lineOffset) record.lineOffset) :
    ∃ (k : Nat) (line shown : String), f.line = k + 1 + record.lineOffset ∧
      (Text.cutAt '\n' record.content)[k]? = some line ∧ record.lines[k]? = some shown ∧
      (Text.cutAt '\n' f.snippet).filter Snippet.isMarked =
        [">>> " ++ toString f.line ++ ": " ++ shown] ∧
      ((∀ l ∈ (Text.cutAt '\n' record.content).take (k + 1), Text.Unbroken l.toList) →
        shown.toList = Text.chomp line.toList) := by
  obtain ⟨hit, rule, hPoints, hFinding⟩ := exists_callHit hKind h hf hRule
  obtain ⟨hLine, hSnippet⟩ := line_of_finding? hFinding
  obtain ⟨pre, post, hText, hPost, hHit⟩ := hPoints.line
  obtain ⟨piece, line, hPiece, hShown, hSame⟩ := Text.exists_line_at hText hPost
  have hReported : f.line = hit.line + record.lineOffset := by
    rw [hLine, Hit.reportedLine]
    omega
  have hAround : f.snippet = Snippet.around record.lines hit.line record.lineOffset := by
    rw [hSnippet, Hit.snippetIn, hPoints.snippet, hPoints.wholeFile]
    rfl
  have hFits : Snippet.Fits record.lines hit.line record.lineOffset := by
    rwa [hReported, Int.add_sub_cancel] at hFits
  have hIndex : (hit.line - 1).toNat = Text.newlines pre := by
    omega
  refine ⟨Text.newlines pre, piece, line, by rw [hReported, hHit], hPiece, hShown, ?_, hSame⟩
  rw [hAround, hReported]
  exact Snippet.filter_around (Text.newline_notMem_lines record.content) hFits (by omega) (by rwa [hIndex])

/-- Two lines that end in different ways, and a form feed behind them. -/
def pagedScript : Record where
  path := "a.js"
  content := "// a\r\neval(x)\n\x0c"
  kind := .script
  sizeBytes := 15

theorem pagedScript_marks_call :
    ∃ o f, pagedScript.analyze .allOn 100 = .ok o ∧ f ∈ o.findings ∧ f.ruleId ∈ Script.callRules.map (·.id) ∧
      Snippet.Fits pagedScript.lines (f.line - pagedScript.lineOffset) pagedScript.lineOffset ∧
      (∀ l ∈ (Text.cutAt '\n' pagedScript.content).take 2, Text.Unbroken l.toList) ∧
      (Text.cutAt '\n' f.snippet).filter Snippet.isMarked = [">>> 2: eval(x)"] := by
  have hRun : ((pagedScript.analyze .allOn 100).toOption.map fun o =>
      o.findings.map fun f => (f.ruleId, f.line)) = some [("dynamic-eval", 2)] := by
    decide +kernel
  have hUnbroken : ∀ l ∈ (Text.cutAt '\n' pagedScript.content).take 2, Text.Unbroken l.toList := by
    decide +kernel
  cases hOk : pagedScript.analyze .allOn 100 with
  | error fault =>
    rw [hOk] at hRun
    cases hRun
  | ok o =>
    rw [hOk] at hRun
    obtain ⟨f, hFindings, hPair⟩ := List.map_eq_singleton_iff.mp (Option.some.inj hRun)
    obtain ⟨hId, hLine⟩ := Prod.mk.inj hPair
    have hMem : f ∈ o.findings := by
      rw [hFindings]
      exact List.mem_singleton_self f
    have hRule : f.ruleId ∈ Script.callRules.map (·.id) := by
      rw [hId]
      decide
    have hFits : Snippet.Fits pagedScript.lines (f.line - pagedScript.lineOffset) pagedScript.lineOffset := by
      rw [hLine]
      decide +kernel
    obtain ⟨k, line, shown, hNumber, hPiece, -, hMarked, hSame⟩ :=
      snippet_marks_reported_line rfl hOk hMem hRule hFits
    have hIndex : k = 1 := by
      have hOffset : pagedScript.lineOffset = 0 := rfl
      omega
    subst hIndex
    have hText : line = "eval(x)" := Option.some.inj (hPiece.symm.trans (by decide +kernel))
    have hShown : shown = "eval(x)" := by
      apply String.toList_inj.mp
      rw [hSame hUnbroken, hText]
      decide +kernel
    refine ⟨o, f, rfl, hMem, hRule, hFits, hUnbroken, ?_⟩
    rw [hMarked, hLine, hShown]
    decide +kernel

/-- The form feed ends a line for the snippet but not for the call behind it. -/
def formFeedScript : Record where
  path := "a.js"
  content := "// a\x0cb\neval(x)"
  kind := .script
  sizeBytes := 14

theorem formFeed_moves_mark :
    ((formFeedScript.analyze .allOn 100).toOption.map fun o =>
      o.findings.map fun f => (f.ruleId, f.line, (Text.cutAt '\n' f.snippet).filter Snippet.isMarked)) =
        some [("dynamic-eval", 2, [">>> 2: b"])] ∧
    Snippet.Fits formFeedScript.lines 2 formFeedScript.lineOffset ∧
    (Text.cutAt '\n' formFeedScript.content)[1]? = some "eval(x)" := by
  decide +kernel

end Record

end WebAudit
