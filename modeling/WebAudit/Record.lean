import WebAudit.Text.Lines
import WebAudit.Text.Slice

/-!
# Source records

A record is one text to analyze: a file, an archive entry, a page, or a block cut out of a page.
-/

namespace WebAudit

/-- The structural family of a text. -/
inductive ContentKind where
  | script
  | stylesheet
  | markup
  | structuredData
  | prose
  | plainText
  | unsupported
deriving DecidableEq, Repr, Inhabited

namespace ContentKind

def name : ContentKind → String
  | script => "script"
  | stylesheet => "stylesheet"
  | markup => "markup"
  | structuredData => "structured-data"
  | prose => "prose"
  | plainText => "plain-text"
  | unsupported => "unsupported"

def all : List ContentKind :=
  [script, stylesheet, markup, structuredData, prose, plainText, unsupported]

def ofName? (s : String) : Option ContentKind :=
  all.find? (·.name == s)

end ContentKind

structure Record where
  /-- Relative to the root of the analysis, or the address of a page. -/
  path : String
  content : String
  kind : ContentKind
  sizeBytes : Nat
  /-- Added to every line that is reported. -/
  lineOffset : Int := 0
  /-- Derived from another record. -/
  synthetic : Bool := false
  origin : Option String := none
  metadata : List (String × String) := []
deriving DecidableEq, Repr, Inhabited

namespace Record

def lines (r : Record) : List String :=
  Text.lines r.content

def lineCount (r : Record) : Nat :=
  r.lines.length

def inlineMark : String × String := ("embedded", "inline")

/-- Whether the record is a script or style block of a page. -/
def isInline (r : Record) : Bool :=
  r.synthetic && r.metadata.lookup inlineMark.1 == some inlineMark.2

end Record

end WebAudit
