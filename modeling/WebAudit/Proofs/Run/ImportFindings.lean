import WebAudit.Proofs.Analysis.FollowedAssets
import WebAudit.Proofs.Run.Tally

/-!
# Imports in a run and in a batch

A run keeps the imports that the analysis of each record brings, and apart from them the paths of all script
files. A batch of records is parsed for its imports alone. Both lead to the same graph: the imports are put
under the same paths in the same order, and these paths are those of the script files.
-/

namespace WebAudit

theorem Table.mem_keys_put {α : Type} {table : List (String × α)} {key x : String} {value : α} :
    x ∈ Table.keys (Table.put key value table) ↔ x ∈ Table.keys table ∨ x = key := by
  induction table with
  | nil => simp [Table.put, Table.keys]
  | cons entry rest ih =>
    obtain ⟨k, v⟩ := entry
    rw [Table.put]
    split
    · rename_i hKey
      subst hKey
      simp only [Table.keys, List.map_cons, List.mem_cons]
      tauto
    · simp only [Table.keys, List.map_cons, List.mem_cons] at ih ⊢
      rw [ih, or_assoc]

namespace Record

variable {record : Record} {toggles : Toggles} {nesting : Nat} {follow : Bool} {o : Outcome}

theorem parse_script (hFile : record.isScriptFile = true) :
    record.parse =
      .ok (some (.script (Script.Source.parse (scriptDialect record.path) record.content))) := by
  unfold isScriptFile at hFile
  simp only [Bool.and_eq_true, Bool.not_eq_true', beq_iff_eq] at hFile
  have hDialect : record.dialect = scriptDialect record.path := by
    rw [dialect, isInline, hFile.1, Bool.false_and, if_neg Bool.false_ne_true]
  unfold parse
  rw [hFile.2, hDialect]

theorem kind_of_parse_script {source : Script.Source}
    (h : record.parse = .ok (some (.script source))) : record.kind = .script := by
  unfold parse at h
  split at h
  · assumption
  · split at h <;> cases h
  · split at h <;> cases h
  · cases h

theorem importsOf_parse (hQuality : toggles.isEnabled .quality = true) :
    record.importsOf record.parse toggles =
      if record.isScriptFile then
        some (Imports.targetsOf (Script.Source.parse (scriptDialect record.path) record.content))
      else none := by
  split
  · rename_i hFile
    have hPart : record.synthetic = false := by
      simpa using (Bool.and_eq_true_iff.mp hFile).1
    rw [parse_script hFile, importsOf, hPart, hQuality]
    rfl
  · rename_i hFile
    unfold importsOf
    split
    · rename_i source hParse
      have hPart : record.synthetic = true := by
        simpa [isScriptFile, kind_of_parse_script hParse] using hFile
      rw [hPart]
      rfl
    · rfl

theorem Placed.imports_of_analyze (hPlaced : record.Placed) (hQuality : toggles.isEnabled .quality = true)
    (h : record.analyze toggles nesting follow = .ok o) : o.imports =
      if record.isScriptFile then
        some (Imports.targetsOf (Script.Source.parse (scriptDialect record.path) record.content))
      else none := by
  obtain ⟨sound, hImports, hFound, hLost, -⟩ := hPlaced.exists_outcome toggles nesting
  cases hAssets : record.assetsOf record.parse follow with
  | ok assets =>
    have hSame := Except.ok.inj ((hFound follow assets hAssets).symm.trans h)
    rw [← hSame, ← importsOf_parse hQuality]
    exact hImports
  | error fault =>
    -- only a page can be lost
    have hKind : record.kind = .markup := by
      by_contra hOther
      rw [assetsOf_eq_nil hOther] at hAssets
      cases hAssets
    obtain ⟨lost, hOutcome, hNone, -⟩ := hPlaced.failedOutcome_eq fault sound.events toggles
    have hSame := Except.ok.inj (((hLost follow fault hAssets).trans hOutcome).symm.trans h)
    rw [if_neg (by simp [isScriptFile, hKind]), ← hSame]
    exact hNone

end Record

/-! ## Merging and adding side by side -/

structure Tally.Mirrors (t : Tally) (batch : Imports.Batch) : Prop where
  imports : t.imports = batch
  paths : ∀ path, path ∈ t.scriptPaths ↔ path ∈ Table.keys batch

namespace Tally.Mirrors

variable {t : Tally} {batch : Imports.Batch} {toggles : Toggles} {nesting : Nat} {follow : Bool}

theorem merge (h : t.Mirrors batch) {r : Record} (hPlaced : r.Placed)
    (hQuality : toggles.isEnabled .quality = true) {o : Outcome} (hOutcome : r.analyze toggles nesting follow = .ok o) :
    (t.merge o).Mirrors (Imports.addRecord batch r) := by
  have hRecord : o.record = r := (Record.analyze_cases hOutcome).1
  have hImports := hPlaced.imports_of_analyze hQuality hOutcome
  have hAdded : Imports.addRecord batch r =
      if r.isScriptFile then
        Table.put r.path (Imports.targetsOf (Script.Source.parse (scriptDialect r.path) r.content)) batch
      else batch := by
    unfold Imports.addRecord Record.isScriptFile
    simp only [Bool.and_comm, beq_eq_decide]
  rw [hAdded]
  split
  · rename_i hFile
    rw [if_pos hFile] at hImports
    constructor
    · rw [imports_merge, Outcome.importItem?, hImports, hRecord, h.imports]
      rfl
    · intro path
      rw [scriptPaths_merge, hRecord, if_pos hFile, Table.mem_keys_put, List.mem_append, h.paths,
        List.mem_singleton]
  · rename_i hFile
    rw [if_neg hFile] at hImports
    constructor
    · rw [imports_merge, Outcome.importItem?, hImports, ← h.imports]
      rfl
    · intro path
      rw [scriptPaths_merge, hRecord, if_neg hFile, List.append_nil, h.paths]

theorem foldl_merge (h : t.Mirrors batch) (hQuality : toggles.isEnabled .quality = true)
    {records : List Record} (hPlaced : ∀ r ∈ records, r.Placed) {outcomes : List Outcome}
    (hOutcomes : List.Forall₂ (fun r o => r.analyze toggles nesting follow = .ok o) records outcomes) :
    (outcomes.foldl Tally.merge t).Mirrors (records.foldl Imports.addRecord batch) := by
  induction hOutcomes generalizing t batch with
  | nil => exact h
  | cons hOutcome _ ih =>
    obtain ⟨hHead, hTail⟩ := List.forall_mem_cons.mp hPlaced
    exact ih (h.merge hHead hQuality hOutcome) hTail

theorem findings_eq (h : t.Mirrors batch) :
    Imports.findings t.imports t.scriptPaths = Imports.findings batch (Table.keys batch) := by
  have hGraph : Imports.graphOf t.imports t.scriptPaths = Imports.graphOf batch (Table.keys batch) :=
    Imports.graphOf_congr (fun path => by rw [h.imports]) h.paths
  unfold Imports.findings
  rw [hGraph]

end Tally.Mirrors

/-- The records of a batch can all be analyzed, and the imports that their outcomes bring to a tally lead to
the findings that the batch itself leads to. -/
theorem tallied_imports_eq_batch_imports (toggles : Toggles) (hQuality : toggles.isEnabled .quality = true)
    (nesting : Nat) (follow : Bool) (records : List Record) (hOffsets : ∀ r ∈ records, 0 ≤ r.lineOffset) :
    ∃ outcomes, records.mapM (fun r => r.analyze toggles nesting follow) = .ok outcomes ∧
      Imports.findings (outcomes.foldl Tally.merge {}).imports (outcomes.foldl Tally.merge {}).scriptPaths =
        Imports.findingsOfRecords records := by
  have hStart : Tally.Mirrors {} [] := ⟨rfl, fun _ => Iff.rfl⟩
  rcases mapM_cases (fun r => r.analyze toggles nesting follow) records with
    ⟨outcomes, hOk, hOutcomes⟩ | ⟨r, hr, fault, hFault, -⟩
  · refine ⟨outcomes, hOk, ?_⟩
    exact (hStart.foldl_merge hQuality hOffsets hOutcomes).findings_eq
  · have hPlaced : r.Placed := hOffsets r hr
    obtain ⟨o, -, hOutcome, -⟩ := hPlaced.analyze toggles nesting follow
    exact nomatch hFault.symm.trans hOutcome

/-- Two files with one path, of which the second counts and has an error, a page that cannot be followed, and
a script that belongs to it. -/
def patchedBatch : List Record :=
  let script (path content : String) : Record := { path, content, kind := .script, sizeBytes := content.utf8ByteSize }
  [script "a.js" "import 'c.js'", script "b.js" "import 'a.js'", script "a.js" "import 'b.js';)",
   Record.refusedPage, { script "page.html" "import 'b.js'" with lineOffset := 3, synthetic := true }]

theorem patchedBatch_imports_agree :
    Toggles.isEnabled {} .quality = true ∧ (∀ r ∈ patchedBatch, 0 ≤ r.lineOffset) ∧
    patchedBatch.foldl Imports.addRecord [] = [("a.js", [("b.js", 1)]), ("b.js", [("a.js", 1)])] ∧
    ∃ outcomes, patchedBatch.mapM (fun r => r.analyze {} 100 true) = .ok outcomes ∧
      Imports.findings (outcomes.foldl Tally.merge {}).imports (outcomes.foldl Tally.merge {}).scriptPaths =
        Imports.findingsOfRecords patchedBatch := by
  have hOffsets : ∀ r ∈ patchedBatch, 0 ≤ r.lineOffset := by
    simp [patchedBatch, Record.refusedPage]
  have hBatch : patchedBatch.foldl Imports.addRecord [] =
      [("a.js", [("b.js", 1)]), ("b.js", [("a.js", 1)])] := by
    decide +kernel
  exact ⟨rfl, hOffsets, hBatch, tallied_imports_eq_batch_imports {} rfl 100 true patchedBatch hOffsets⟩

end WebAudit
