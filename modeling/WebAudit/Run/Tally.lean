import WebAudit.Analysis.Outcome

/-!
# What a run has found so far

The outcomes of records are merged one by one. Only whole files are counted; records that were
derived from a page contribute their findings.
-/

namespace WebAudit

structure Tally where
  findings : List Finding := []
  /-- The imports of script files by path. -/
  imports : Imports.Batch := []
  scriptPaths : List String := []
  /-- How many files of a kind were analyzed. -/
  kinds : ContentKind → Nat := fun _ => 0
  filesAnalyzed : Nat := 0
  totalLines : Nat := 0

namespace Tally

def count (t : Tally) (r : Record) : Tally :=
  { t with
    filesAnalyzed := t.filesAnalyzed + 1
    totalLines := t.totalLines + r.lineCount
    kinds := fun kind => if kind = r.kind then t.kinds kind + 1 else t.kinds kind
    scriptPaths := if r.kind = .script then t.scriptPaths ++ [r.path] else t.scriptPaths }

/-- Takes an outcome in; imports of a file with the same path are replaced. -/
def merge (t : Tally) (o : Outcome) : Tally :=
  let t := if o.record.synthetic then t else t.count o.record
  { t with
    findings := t.findings ++ o.findings
    imports := match o.imports with
      | some targets => Table.put o.record.path targets t.imports
      | none => t.imports }

def withImports (t : Tally) : Tally :=
  { t with findings := t.findings ++ Imports.findings t.imports t.scriptPaths }

end Tally

end WebAudit
