import WebAudit.Finding.Detector
import WebAudit.Imports.Cycle
import WebAudit.Script.Query
import WebAudit.Script.Repair
import WebAudit.Classify
import WebAudit.Text.FileName
import WebAudit.Text.Glob
import WebAudit.Text.Quoted

/-!
# Findings about imports

Circles of imports are reported, and files that nothing imports. Entry points are run and not imported; they
are known by their names.
-/

namespace WebAudit.Imports

def entryPatterns : List String := ["index.*", "main.*", "app.*"]

def isEntryPoint (path : String) (patterns : List String := entryPatterns) : Bool :=
  let name := Text.lower (Text.baseName path)
  patterns.any (Text.matchesGlob · name)

def Graph.isTarget (g : Graph) (file : String) : Bool :=
  g.edges.any (·.target == file)

/-- The files that no edge leads to, entry points apart. -/
def Graph.unused (g : Graph) (patterns : List String := entryPatterns) : List String :=
  g.files.filter fun file => !g.isTarget file && !isEntryPoint file patterns

/-! ## Findings -/

def circularDependency : Rule where
  id := "circular-dependency"
  concern := .quality
  severity := .medium
  title := "Circular dependency"
  description := "Files import each other in a circle."
  impact := "Circular imports cause partially initialized modules and brittle load order."
  recommendation := "Move the shared code into a module both files can import."
  remediation := Step.numbered
    [("Extract shared code", "Move what both modules need into a third module.", none),
     ("Invert the dependency",
      "Pass the dependency in as a parameter instead of importing it.", none)]
  tags := ["dependencies", "architecture"]

def unusedFile : Rule where
  id := "unused-file"
  concern := .quality
  severity := .low
  title := "Unused file"
  description := "No other analyzed file imports this file."
  impact := "Dead files add maintenance cost and confuse readers."
  recommendation := "Delete the file, or import it where it is meant to be used."
  tags := ["dependencies", "dead-code"]

/-- A finding of a rule about imports; the id is made with the line as it was recorded. -/
def finding (rule : Rule) (path : String) (line : Int) (description snippet : String) :
    Finding where
  id := Finding.makeId path rule.id line
  ruleId := rule.id
  title := rule.title
  description
  severity := rule.severity
  concern := rule.concern
  path
  line := max line 1
  snippet
  impact := rule.impact
  recommendation := rule.recommendation
  remediation := rule.remediation
  tags := sortTags (rule.tags ++ [rule.concern.name, ContentKind.script.name])

def Cycle.chain (c : Cycle) : String :=
  " → ".intercalate c.files

def Cycle.finding (c : Cycle) : Finding :=
  let e := c.closing
  Imports.finding circularDependency e.source e.line ("Circular import chain: " ++ c.chain)
    (Text.truncate Snippet.maxLength
      (e.source ++ ":" ++ toString e.line ++ " imports " ++ Text.quote e.target ++ " (" ++ c.chain ++
        ")"))

def unusedFinding (path : String) : Finding :=
  finding unusedFile path 1 ("No other analyzed file imports " ++ path ++ ".") ""

/-- The findings about the imports of a batch: its cycles, then its unused files. -/
def findings (batch : Batch) (paths : List String) (patterns : List String := entryPatterns) :
    List Finding :=
  let g := graphOf batch paths
  g.cycles.map Cycle.finding ++ (g.unused patterns).map unusedFinding

/-! ## Records -/

def targetsOf (source : Script.Source) : Targets :=
  source.importTargets.map fun (name, line) => (name, (line : Int))

/-- Takes the imports of a script file into a batch; a file with the same path is replaced. -/
def addRecord (batch : Batch) (record : Record) : Batch :=
  if record.kind = .script && !record.synthetic then
    let source := Script.Source.parse (scriptDialect record.path) record.content
    Table.put record.path (targetsOf source) batch
  else batch

/-- The findings about the imports of the script files among some records. -/
def findingsOfRecords (records : List Record) : List Finding :=
  let batch := records.foldl addRecord []
  findings batch (Table.keys batch)

end WebAudit.Imports
