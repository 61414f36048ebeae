import WebAudit.Issue
import WebAudit.Stylesheet.Locator
import WebAudit.Stylesheet.Sheet
import WebAudit.Text.Digit
import WebAudit.Text.Slice

/-!
# Parsed stylesheets

The style rules of a stylesheet in order, each with its line and the lines of its declarations. In
plain stylesheets the messages of the reader are issues; in other dialects they are dropped.
-/

namespace WebAudit.Stylesheet

structure Declaration where
  name : String
  value : String
  important : Bool := false
  line : Nat := 1
deriving DecidableEq, Repr, Inhabited

structure StyleRule where
  selectorText : String
  selectors : List String := []
  declarations : List Declaration := []
  line : Nat := 1
  /-- The query of the innermost media rule around it. -/
  media : Option String := none
deriving DecidableEq, Repr, Inhabited

structure Document where
  rules : List StyleRule := []
  issues : List Issue := []
deriving DecidableEq, Repr, Inhabited

/-! ## Lines -/

/-- Declarations with their lines, each looked for after the one before. -/
def locateAll (text : List Char) (block : Block) : Nat → List Property → List Declaration
  | _, [] => []
  | cursor, p :: ps =>
    let (line, cursor) := declarationLine text block p.name cursor
    ⟨p.name, p.value, p.important, line⟩ :: locateAll text block cursor ps

def locateRule (text : List Char) (selectors : List String) (properties : List Property)
    (media : Option String) (block : Option Block) : StyleRule where
  selectorText := ", ".intercalate selectors
  selectors
  declarations :=
    match block with
    | some b => locateAll text b b.bodyStart properties
    | none => properties.map fun p => ⟨p.name, p.value, p.important, 1⟩
  line := (block.map (·.line)).getD 1
  media

/-- The style rules in order, each with the query around it. -/
def SheetRule.flatten (media : Option String) :
    SheetRule → List (List String × List Property × Option String)
  | .style selectors properties => [(selectors, properties, media)]
  | .media query rules => flattenAll (some query) rules
where
  flattenAll (media : Option String) :
      List SheetRule → List (List String × List Property × Option String)
    | [] => []
    | r :: rs => r.flatten media ++ flattenAll media rs

/-- Looks up rules in order; a rule that is found moves the search behind it. -/
def locateRules (text : List Char) :
    List Block → List (List String × List Property × Option String) → List StyleRule
  | _, [] => []
  | blocks, (selectors, properties, media) :: rest =>
    let (block, blocks) := findBlock (", ".intercalate selectors) blocks
    locateRule text selectors properties media block :: locateRules text blocks rest

/-! ## Issues -/

def digitsValue (cs : List Char) : Nat :=
  cs.foldl (fun n c => 10 * n + (Text.digitValue? c).getD 0) 0

/-- The line and column in `[line:column:` at the start of a text. -/
def placeAt (cs : List Char) : Option (Nat × Nat) :=
  match cs with
  | '[' :: rest =>
    let line := rest.takeWhile Text.isDecimalDigit
    match rest.drop line.length with
    | ':' :: rest =>
      let column := rest.takeWhile Text.isDecimalDigit
      if !line.isEmpty && !column.isEmpty && (rest.drop column.length).head? == some ':' then
        some (digitsValue line, digitsValue column)
      else none
    | _ => none
  | _ => none

def placeIn : List Char → Option (Nat × Nat)
  | [] => none
  | c :: cs => placeAt (c :: cs) <|> placeIn cs

/-- A message as an issue; one that names no place is put on the first line. -/
def issueOf (message : String) : Issue :=
  match placeIn message.toList with
  | some (line, column) => ⟨line, some ((column : Int) - 1), message⟩
  | none => ⟨1, none, message⟩

/-! ## Documents -/

/-- Whether a path is that of a plain stylesheet; a text without a path counts as one. -/
def isPlain (path : String) : Bool :=
  path.isEmpty || Text.endsWith (Text.lower path) ".css"

/-- Why a stylesheet has no document. -/
inductive Fault where
  /-- It has no rule, and this is the first issue. -/
  | malformed (issue : Issue)
  | brokenOff (cause : Breakdown)
deriving DecidableEq, Repr, Inhabited

/-- The document of rules that were read and the messages about them. A plain stylesheet with
messages and without any rule is refused with the first message. -/
def documentOf (source path : String) (rules : List SheetRule) (messages : List String) :
    Except Issue Document :=
  let text := blankComments source.toList
  let rules := locateRules text (blocks text) (SheetRule.flatten.flattenAll none rules)
  let issues := if isPlain path then messages.map issueOf else []
  match rules, issues with
  | [], first :: _ => if Text.isAllBlank source then .ok { rules, issues } else .error first
  | _, _ => .ok { rules, issues }

def parse (source path : String) : Except Fault Document :=
  match read source with
  | .error cause => .error (.brokenOff cause)
  | .ok (rules, messages) => (documentOf source path rules messages).mapError .malformed

end WebAudit.Stylesheet
