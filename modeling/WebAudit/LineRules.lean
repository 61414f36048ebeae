import WebAudit.Finding.Detector
import WebAudit.Json.Decode
import WebAudit.Text.Blank

/-!
# Rules for lines of text

These rules need no parsed form. They judge whole files, and they apply whether a file could be
parsed or not.
-/

namespace WebAudit.LineRules

def undocumentedFile : Rule where
  id := "undocumented-file"
  concern := .documentation
  severity := .low
  title := "Missing documentation"
  description := "This file lacks comments describing its purpose."
  impact := "Undocumented code is harder to understand and maintain."
  recommendation := "Add a header comment explaining what the file is for."
  remediation := Step.numbered
    [("Add file header documentation",
      "Add a comment block at the top of the file explaining its purpose.",
      some "/**\n * @fileoverview What this module does and who uses it.\n */")]
  tags := ["maintainability"]

def invalidJson : Rule where
  id := "invalid-json"
  concern := .quality
  severity := .high
  title := "Invalid JSON"
  description := "The file is not valid JSON."
  impact := "Tools reading this file will fail to load it."
  recommendation := "Fix the syntax error reported by the decoder."
  tags := ["json", "syntax"]

def jsonTabIndent : Rule where
  id := "json-tab-indent"
  concern := .quality
  severity := .low
  title := "Tabs in JSON"
  description := "The file contains tab characters."
  impact := "Mixed indentation makes diffs noisy."
  recommendation := "Indent JSON with spaces."
  tags := ["json", "style"]

def longLine : Rule where
  id := "long-line"
  concern := .quality
  severity := .low
  title := "Long line"
  description := "A line is longer than the recommended maximum."
  impact := "Long lines are hard to read and review."
  recommendation := "Wrap lines at 120 characters."
  tags := ["style"]

def emptyFile : Rule where
  id := "empty-file"
  concern := .quality
  severity := .low
  title := "Empty file"
  description := "The file has no content."
  impact := "Empty files add clutter and may indicate something went missing."
  recommendation := "Remove the file or add its intended content."
  tags := ["housekeeping"]

/-! ## Checks -/

def commentMarks : ContentKind → Option (List String)
  | .script => some ["//", "/*"]
  | .stylesheet => some ["/*", "//"]
  | .markup => some ["<!--", "//", "/*"]
  | _ => none

def shortFile : Nat := 10

def startsComment (marks : List String) (line : String) : Bool :=
  marks.any fun mark => mark.toList.isPrefixOf (Text.stripChars line.toList)

def missingComments (lines : List String) (record : Record) : Report :=
  match commentMarks record.kind with
  | none => {}
  | some marks =>
    if lines.length ≤ shortFile || lines.any (startsComment marks) then {}
    else
      { hits := [{ wholeFile := true
                   description := some ("This file has " ++ toString lines.length ++
                     " lines and no comments describing its purpose.") }] }

/-- The fault of a text that is no JSON. A text that cannot be read for its size or nesting makes the
check fail. -/
def jsonFault (nesting : Nat) (_lines : List String) (record : Record) : Report :=
  let content := record.content
  if Text.isAllBlank content then {}
  else
    match Json.decode nesting content with
    | .ok _ => {}
    | .error (.malformed cause rest) =>
      let (line, column) := Json.place content rest
      { hits := [{ line
                   column := some (column - 1 : Nat)
                   description := some ("The file is not valid JSON: " ++ cause.message ++ " (line " ++
                     toString line ++ ", column " ++ toString column ++ ").") }] }
    | .error .tooDeep => { failure := some "maximum recursion depth exceeded" }
    | .error .tooLong => { failure := some "Exceeds the limit for integer string conversion" }

def firstTab (lines : List String) (_record : Record) : Report :=
  match lines.findIdx? (·.toList.contains '\t') with
  | some i => { hits := [{ line := i + 1 }] }
  | none => {}

def maxLineLength : Nat := 120

def longLines (lines : List String) (_record : Record) : Report :=
  { hits := lines.zipIdx.filterMap fun (line, i) =>
      if line.length ≤ maxLineLength then none
      else
        some { line := i + 1
               description := some ("Line is " ++ toString line.length ++ " characters long (limit " ++
                 toString maxLineLength ++ ").") } }

def noContent (_lines : List String) (record : Record) : Report :=
  if record.content.isEmpty then { hits := [{ wholeFile := true }] } else {}

/-! ## Detectors -/

def detector (υ : Type) (rule : Rule) (check : List String → Record → Report) : Detector υ :=
  ⟨rule, .lexical check⟩

variable (υ : Type) (nesting : Nat)

def detectors : ContentKind → List (Detector υ)
  | .script | .stylesheet | .markup => [detector υ undocumentedFile missingComments]
  | .structuredData => [detector υ invalidJson (jsonFault nesting), detector υ jsonTabIndent firstTab]
  | .prose => [detector υ longLine longLines]
  | .plainText => [detector υ emptyFile noContent]
  | .unsupported => []

def rules : List Rule :=
  [undocumentedFile, invalidJson, jsonTabIndent, longLine, emptyFile]

end WebAudit.LineRules
