import Mathlib.Data.Set.Finite.List
import Mathlib.Order.WellFounded
import WebAudit.Imports.Findings
import WebAudit.Proofs.Imports.Completeness

/-!
# Files that no entry point needs

A file that is not reached from an entry point is never left unmentioned. Going back along the edges
that close no cycle must come to an end, since without the others the graph is acyclic. It ends at a
file that nothing imports, which is reported as unused, or behind an edge that closes a cycle. The files
reported as unused are exactly those whose name no pattern stands for and that no other file imports.
-/

namespace WebAudit

namespace Text.Glob

/-- What a pattern stands for: any text for a star, one fitting character for every other piece. -/
inductive StandsFor : List GlobPiece → List Char → Prop
  | nil : StandsFor [] []
  | star (skipped : List Char) {ps : List GlobPiece} {cs : List Char} (h : StandsFor ps cs) :
    StandsFor (.star :: ps) (skipped ++ cs)
  | one {p : GlobPiece} {c : Char} {ps : List GlobPiece} {cs : List Char} (hPiece : p ≠ .star)
    (hFits : fits p c = true) (h : StandsFor ps cs) : StandsFor (p :: ps) (c :: cs)

theorem matchesPieces_star_append {ps : List GlobPiece} {cs : List Char}
    (h : matchesPieces ps cs = true) (skipped : List Char) :
    matchesPieces (.star :: ps) (skipped ++ cs) = true := by
  induction skipped with
  | nil => cases cs <;> simp [matchesPieces, h]
  | cons c skipped ih => simp [matchesPieces, ih]

theorem standsFor_of_matchesPieces {ps : List GlobPiece} {cs : List Char}
    (h : matchesPieces ps cs = true) : StandsFor ps cs := by
  fun_induction matchesPieces ps cs with
  | case1 => exact .nil
  | case2 => cases h
  | case3 ps ih => exact .star [] (ih h)
  | case4 ps c cs ihHere ihNext =>
    rcases Bool.or_eq_true_iff.mp h with hHere | hNext
    · exact .star [] (ihHere hHere)
    · -- the star goes on behind this character
      have hRest := ihNext hNext
      generalize hPieces : GlobPiece.star :: ps = pieces at hRest
      cases hRest with
      | nil => cases hPieces
      | star skipped hStands =>
        cases hPieces
        exact .star (c :: skipped) hStands
      | one hPiece => exact absurd (List.cons.inj hPieces).1.symm hPiece
  | case5 => cases h
  | case6 ps cs p c hPiece ih =>
    obtain ⟨hFits, hRest⟩ := Bool.and_eq_true_iff.mp h
    exact .one hPiece hFits (ih hRest)

theorem matchesPieces_iff {ps : List GlobPiece} {cs : List Char} :
    matchesPieces ps cs = true ↔ StandsFor ps cs := by
  constructor
  · exact standsFor_of_matchesPieces
  · intro h
    induction h with
    | nil => simp [matchesPieces]
    | star skipped _ ih => exact matchesPieces_star_append ih skipped
    | one hPiece hFits _ ih => simp [matchesPieces, hFits, ih]

end Text.Glob

namespace Imports

def NamesUnused (findings : List Finding) (file : String) : Prop :=
  ∃ f ∈ findings, f.ruleId = "unused-file" ∧ f.path = file

def NamesCycleThrough (g : Graph) (findings : List Finding) (file : String) : Prop :=
  ∃ c ∈ g.cycles, file ∈ c.files ∧ c.finding ∈ findings ∧ c.finding.ruleId = "circular-dependency"

namespace Graph

variable {g : Graph}

/-- In an acyclic graph every set of files has one that no other of them leads to. -/
theorem Acyclic.exists_first (h : g.Acyclic) {files : List String} {P : String → Prop}
    (hSome : ∃ file ∈ files, P file) :
    ∃ file ∈ files, P file ∧ ∀ other ∈ files, P other → ¬ g.Joins other file := by
  let Before (a b : {file // file ∈ files}) : Prop := Relation.TransGen g.Joins a.1 b.1
  have : IsTrans _ Before := ⟨fun _ _ _ => Relation.TransGen.trans⟩
  have : Std.Irrefl Before := ⟨fun a => h a.1⟩
  have : Finite {file // file ∈ files} := List.finite_toSet files
  obtain ⟨file, hFile, hP⟩ := hSome
  obtain ⟨⟨first, hFirst⟩, hPFirst, hMin⟩ :=
    (Finite.wellFounded_of_trans_of_irrefl Before).has_min {a | P a.1} ⟨⟨file, hFile⟩, hP⟩
  refine ⟨first, hFirst, hPFirst, ?_⟩
  intro other hOther hPOther hJoins
  exact hMin ⟨other, hOther⟩ hPOther (.single hJoins)

theorem isTarget_iff {file : String} :
    g.isTarget file = true ↔ ∃ e ∈ g.edges, e.target = file := by
  simp [isTarget]

theorem mem_unused_iff {patterns : List String} {file : String} :
    file ∈ g.unused patterns ↔ file ∈ g.files ∧ (∀ e ∈ g.edges, e.target ≠ file) ∧
      isEntryPoint file patterns = false := by
  rw [unused, List.mem_filter, Bool.and_eq_true, Bool.not_eq_true', Bool.not_eq_true',
    Bool.eq_false_iff, Ne, isTarget_iff]
  simp only [not_exists, not_and, Ne]

/-- The way back from a file ends at a file that nothing imports, or at one with a closing edge. -/
theorem Proper.exists_unused_or_closing (hProper : g.Proper) {file : String}
    (hFile : file ∈ g.files) :
    ∃ root ∈ g.files, g.Reaches root file ∧
      ((∀ e ∈ g.edges, e.target ≠ root) ∨ ∃ e ∈ g.closings, e.source = root) := by
  obtain ⟨first, hFirst, hReach, hMin⟩ := hProper.acyclic_without_closings.exists_first
    (P := fun root => g.Reaches root file) ⟨file, hFile, Relation.ReflTransGen.refl⟩
  by_cases hTarget : ∃ e ∈ g.edges, e.target = first
  · obtain ⟨e, hEdge, rfl⟩ := hTarget
    have hSource := hProper.source_mem_files hEdge
    have hReachSource : g.Reaches e.source file := .head ⟨e, hEdge, rfl, rfl⟩ hReach
    refine ⟨e.source, hSource, hReachSource, .inr ⟨e, ?_, rfl⟩⟩
    by_contra hOpen
    exact hMin e.source hSource hReachSource ⟨e, mem_edges_without.mpr ⟨hEdge, hOpen⟩, rfl, rfl⟩
  · exact ⟨first, hFirst, hReach, .inl fun e hEdge hEq => hTarget ⟨e, hEdge, hEq⟩⟩

end Graph

theorem Cycle.RunsThrough.source_mem_files {g : Graph} {c : Cycle} {first : String}
    {rest : List String} (h : c.RunsThrough g first rest) : c.closing.source ∈ c.files := by
  rw [h.files]
  exact List.mem_append_left _ (List.mem_cons_of_mem _ (List.mem_of_getLast? h.source))

/-- A file of the batch that no entry point reaches is reached from a file that is reported as unused,
or from one on a reported cycle. -/
theorem dead_file_is_traced (batch : Batch) (paths patterns : List String) {file : String}
    (hFile : file ∈ paths)
    (hDead : ∀ entry ∈ paths, isEntryPoint entry patterns = true →
      ¬ (graphOf batch paths).Reaches entry file) :
    ∃ root ∈ paths, (graphOf batch paths).Reaches root file ∧
      (NamesUnused (findings batch paths patterns) root ∨
        NamesCycleThrough (graphOf batch paths) (findings batch paths patterns) root) := by
  have hProper := proper_graphOf batch paths
  obtain ⟨root, hRoot, hReach, hCause⟩ :=
    hProper.exists_unused_or_closing (mem_files_graphOf.mpr hFile)
  have hRootPath := mem_files_graphOf.mp hRoot
  refine ⟨root, hRootPath, hReach, ?_⟩
  rcases hCause with hUntargeted | ⟨e, hClosing, rfl⟩
  · have hEntry : isEntryPoint root patterns = false :=
      Bool.eq_false_iff.mpr fun hEntry => hDead root hRootPath hEntry hReach
    have hUnused := Graph.mem_unused_iff.mpr ⟨hRoot, hUntargeted, hEntry⟩
    exact .inl ⟨unusedFinding root, List.mem_append_right _ (List.mem_map_of_mem hUnused), rfl, rfl⟩
  · obtain ⟨c, hc, rfl⟩ := List.mem_map.mp hClosing
    obtain ⟨first, rest, hRuns⟩ := hProper.cycles_runThrough c hc
    exact .inr ⟨c, hc, hRuns.source_mem_files, List.mem_append_left _ (List.mem_map_of_mem hc), rfl⟩

/-- The entry point of the tangled batch imports nothing, so its cycles are traced. -/
theorem tangledBatch_dead_file :
    "c.js" ∈ ["index.js", "c.js", "a.js", "b.js"] ∧
    (∀ entry ∈ ["index.js", "c.js", "a.js", "b.js"], isEntryPoint entry = true →
      ¬ (graphOf tangledBatch ["index.js", "c.js", "a.js", "b.js"]).Reaches entry "c.js") ∧
    ∃ root ∈ ["index.js", "c.js", "a.js", "b.js"],
      (graphOf tangledBatch ["index.js", "c.js", "a.js", "b.js"]).Reaches root "c.js" ∧
      (NamesUnused (findings tangledBatch ["index.js", "c.js", "a.js", "b.js"]) root ∨
        NamesCycleThrough (graphOf tangledBatch ["index.js", "c.js", "a.js", "b.js"])
          (findings tangledBatch ["index.js", "c.js", "a.js", "b.js"]) root) := by
  have hFile : "c.js" ∈ ["index.js", "c.js", "a.js", "b.js"] := by decide
  have hDead : ∀ entry ∈ ["index.js", "c.js", "a.js", "b.js"], isEntryPoint entry = true →
      ¬ (graphOf tangledBatch ["index.js", "c.js", "a.js", "b.js"]).Reaches entry "c.js" := by
    intro entry hEntry hName hReach
    have hIndex : entry = "index.js" := by
      have hOnly : ∀ file ∈ ["index.js", "c.js", "a.js", "b.js"], isEntryPoint file = true →
          file = "index.js" := by decide +kernel
      exact hOnly entry hEntry hName
    subst hIndex
    rcases Relation.ReflTransGen.cases_head hReach with hEq | ⟨next, ⟨e, hEdge, hSource, _⟩, _⟩
    · exact absurd hEq (by decide)
    · have hMem := (mem_edges_graphOf.mp hEdge).2.2.2
      rw [hSource] at hMem
      exact List.not_mem_nil hMem
  exact ⟨hFile, hDead, dead_file_is_traced tangledBatch _ entryPatterns hFile hDead⟩

/-! ## Exactly the unused files -/

def unusedPaths (findings : List Finding) : List String :=
  (findings.filter fun f => f.ruleId = "unused-file").map (·.path)

theorem unusedPaths_findings (batch : Batch) (paths patterns : List String) :
    unusedPaths (findings batch paths patterns) = (graphOf batch paths).unused patterns := by
  have hCycles (cycles : List Cycle) :
      (cycles.map Cycle.finding).filter (fun f => f.ruleId = "unused-file") = [] := by
    rw [List.filter_eq_nil_iff]
    intro f hf
    obtain ⟨c, -, rfl⟩ := List.mem_map.mp hf
    have hRule : c.finding.ruleId = "circular-dependency" := rfl
    rw [hRule]
    decide
  have hUnused (files : List String) :
      (files.map unusedFinding).filter (fun f => f.ruleId = "unused-file") = files.map unusedFinding := by
    rw [List.filter_eq_self]
    intro f hf
    obtain ⟨file, -, rfl⟩ := List.mem_map.mp hf
    exact decide_eq_true rfl
  rw [unusedPaths, findings, List.filter_append, hCycles, hUnused, List.nil_append, List.map_map]
  exact List.map_id _

def Batch.targets (batch : Batch) (source : String) : List String :=
  Table.keys ((batch.lookup source).getD [])

theorem untargeted_iff {batch : Batch} {paths : List String} {path : String} (hPath : path ∈ paths) :
    (∀ e ∈ (graphOf batch paths).edges, e.target ≠ path) ↔
      ∀ other ∈ paths, other ≠ path → path ∉ batch.targets other := by
  constructor
  · intro h other hOther hNe hTarget
    obtain ⟨⟨target, line⟩, hMem, rfl⟩ := List.mem_map.mp hTarget
    exact h ⟨other, target, line⟩ (mem_edges_graphOf.mpr ⟨hOther, hPath, hNe.symm, hMem⟩) rfl
  · rintro h e hEdge rfl
    obtain ⟨hSource, -, hNe, hMem⟩ := mem_edges_graphOf.mp hEdge
    exact h e.source hSource hNe.symm (List.mem_map_of_mem hMem)

theorem isEntryPoint_eq_false_iff {path : String} {patterns : List String} :
    isEntryPoint path patterns = false ↔ ∀ pattern ∈ patterns,
      ¬ Text.Glob.StandsFor (Text.Glob.pieces pattern.toList)
        (Text.lower (Text.baseName path)).toList := by
  simp only [isEntryPoint, List.any_eq_false, Text.matchesGlob, Text.Glob.matchesPieces_iff]

/-- The files reported as unused are, each once and in ascending order, the files of the batch whose name
in lower case no pattern stands for and that no other file of the batch imports. -/
theorem unused_findings_exact (batch : Batch) (paths patterns : List String) :
    (unusedPaths (findings batch paths patterns)).Pairwise (· < ·) ∧
    ∀ path, path ∈ unusedPaths (findings batch paths patterns) ↔
      path ∈ paths ∧
      (∀ pattern ∈ patterns, ¬ Text.Glob.StandsFor (Text.Glob.pieces pattern.toList)
        (Text.lower (Text.baseName path)).toList) ∧
      ∀ other ∈ paths, other ≠ path → path ∉ batch.targets other := by
  rw [unusedPaths_findings]
  constructor
  · rw [Graph.unused, files_graphOf]
    exact (pairwise_sortTags paths).filter _
  · intro path
    rw [Graph.mem_unused_iff, mem_files_graphOf, isEntryPoint_eq_false_iff]
    constructor
    · rintro ⟨hPath, hUntargeted, hEntry⟩
      exact ⟨hPath, hEntry, (untargeted_iff hPath).mp hUntargeted⟩
    · rintro ⟨hPath, hEntry, hUnlisted⟩
      exact ⟨hPath, (untargeted_iff hPath).mpr hUnlisted, hEntry⟩

/-- A file that imports itself only, and one that only a file outside imports. -/
def loneBatch : Batch :=
  [("Index.js", [("a.js", 1)]), ("self.js", [("self.js", 2)]), ("outside.js", [("lone.js", 1)])]

def lonePaths : List String :=
  ["self.js", "lone.js", "a.js", "Index.js", "lone.js"]

theorem loneBatch_unused_exact :
    unusedPaths (findings loneBatch lonePaths) = ["lone.js", "self.js"] := by
  obtain ⟨hAscending, hExact⟩ := unused_findings_exact loneBatch lonePaths entryPatterns
  have hUnused : ∀ path ∈ lonePaths,
      (isEntryPoint path = false ∧ ∀ other ∈ lonePaths, other ≠ path → path ∉ loneBatch.targets other) ↔
        path ∈ ["lone.js", "self.js"] := by decide +kernel
  refine hAscending.eq_of_mem_iff (by decide) ?_
  intro path
  rw [hExact, ← isEntryPoint_eq_false_iff]
  constructor
  · rintro ⟨hPath, hCause⟩
    exact (hUnused path hPath).mp hCause
  · intro hNamed
    have hSubset : ["lone.js", "self.js"] ⊆ lonePaths := by decide
    have hPath := hSubset hNamed
    exact ⟨hPath, (hUnused path hPath).mpr hNamed⟩

end Imports

end WebAudit
