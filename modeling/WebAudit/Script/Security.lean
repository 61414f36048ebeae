import WebAudit.Finding.Detector
import WebAudit.Script.Query
import WebAudit.Script.Sql
import WebAudit.Text.Lowercase

/-!
# Security checks for scripts
-/

namespace WebAudit.Script

def Node.hit (n : Node) (title description : Option String := none) : Hit :=
  { line := n.line, column := some n.column, endLine := some n.endLine
    endColumn := some n.endColumn, title, description }

def Node.startHit (n : Node) (title description : Option String := none) : Hit :=
  { line := n.line, column := some n.column, title, description }

def Call.hit (c : Call) (title description : Option String := none) : Hit :=
  c.site.node.hit title description

namespace Source

/-! ## Code from strings -/

def globalReceivers : List (Option String) := [none, some "window", some "globalThis"]

def timers : List String := ["setTimeout", "setInterval"]

def evalHit (c : Call) : Option Hit :=
  if !globalReceivers.contains c.receiver then none
  else if c.name == "eval" then some (c.hit (some "Use of eval()"))
  else if timers.contains c.name then
    match c.arguments.head?.map Node.kind with
    | some .string | some .template =>
      some (c.hit (some (c.name ++ "() called with a string"))
        (some (c.name ++ "() receives source code as a string, which is evaluated like eval() " ++
          "when the timer fires.")))
    | _ => none
  else none

def functionConstructorHit (s : Source) (n : Node) : Option Hit :=
  if (n.child? .constructor).any (s.textOf · == "Function") then
    some (n.hit (some "Use of the Function constructor")
      (some ("new Function(...) compiles a string into executable code and is equivalent to " ++
        "eval().")))
  else none

def dynamicEval (s : Source) : List Hit :=
  s.calls.filterMap evalHit ++ (s.sitesOf .new).filterMap (s.functionConstructorHit ·.node)

/-! ## Markup from strings -/

def memberProperty (s : Source) (n : Option Node) : Option String :=
  match n with
  | some n => if n.kind == .member then (n.child? .property).map s.textOf else none
  | none => none

def markupProperties : List String := ["innerHTML", "outerHTML"]

def markupAssignmentHit (s : Source) (n : Node) : Option Hit :=
  match s.memberProperty (n.child? .left) with
  | some property =>
    if markupProperties.contains property then
      some (n.hit none (some ("Markup is assigned to ." ++ property ++ " without sanitization.")))
    else none
  | none => none

def markupCallHit (c : Call) : Option Hit :=
  if ["write", "writeln"].contains c.name && c.receiver == some "document" then
    some (c.hit none (some ("document." ++ c.name ++ "() injects raw markup into the page.")))
  else if c.name == "insertAdjacentHTML" && c.receiver.isSome then
    some (c.hit none (some "insertAdjacentHTML() parses its argument as markup."))
  else none

def elementMarkupHit (s : Source) (n : Node) : Option Hit :=
  if n.namedChildren.head?.any (s.textOf · == "dangerouslySetInnerHTML") then
    some (n.hit none (some "dangerouslySetInnerHTML bypasses React's escaping."))
  else none

def markupWrites (s : Source) : List Hit :=
  (s.sitesOf .assignment).filterMap (s.markupAssignmentHit ·.node) ++
  (s.sitesOf .augmentedAssignment).filterMap (s.markupAssignmentHit ·.node) ++
  s.calls.filterMap markupCallHit ++
  (s.sitesOf .elementAttribute).filterMap (s.elementMarkupHit ·.node)

/-! ## Secrets -/

def secretWords : List String := ["password", "secret", "api_key"]

/-- A literal that mentions a secret must be longer than this. -/
def secretLength : Nat := 8

def secretHit (l : StringLiteral) : Option Hit :=
  if l.value.length ≤ secretLength then none
  else
    (secretWords.find? (Text.contains · (Text.lower l.value))).map fun word =>
      { line := l.line, column := some l.column
        description := some ("A string literal mentioning " ++ Text.quote word ++
          " looks like an embedded credential.") }

def hardcodedSecrets (s : Source) : List Hit :=
  s.stringLiterals.filterMap secretHit

/-! ## Statements built from values -/

def isConcatenation (n : Node) : Bool :=
  n.kind == .binary && (n.child? .operator).any (·.kind == .token "+")

/-- The parts of a concatenation that are no concatenations themselves, parentheses apart. -/
def operandsFrom : Nat → List Node → List Node
  | 0, _ => []
  | _ + 1, [] => []
  | fuel + 1, n :: pending =>
    if isConcatenation n then
      operandsFrom fuel ((n.child? .left).toList ++ (n.child? .right).toList ++ pending)
    else if n.kind == .parenthesized then
      match n.namedChildren with
      | [inner] => operandsFrom fuel (inner :: pending)
      | _ => n :: operandsFrom fuel pending
    else n :: operandsFrom fuel pending

def operands (n : Node) : List Node :=
  operandsFrom (2 * n.size + 1) [n]

def substitutions (n : Node) : List Node :=
  n.namedChildren.filter (·.kind == .templateSubstitution)

def hasSubstitution (n : Node) : Bool :=
  !(substitutions n).isEmpty

def literalText (s : Source) (n : Node) : List Char :=
  (substitutions n).foldl (fun text sub => Text.replaceFirst (s.textOf sub).toList [' '] text)
    (s.textOf n).toList

def templateSqlHit (s : Source) (n : Node) : Option Hit :=
  if hasSubstitution n && Sql.occurs (s.literalText n) then
    some (n.hit none
      (some "An SQL statement is built by interpolating values into a template string."))
  else none

def bringsValue (n : Node) : Bool :=
  match n.kind with
  | .string | .number => false
  | .template => hasSubstitution n
  | _ => true

def isOutermost (site : Site) : Bool :=
  isConcatenation site.node && !site.parent?.any isConcatenation

def concatenationSqlHit (s : Source) (site : Site) : Option Hit :=
  if isOutermost site then
    let parts := operands site.node
    if parts.any (fun n => n.kind == .string && Sql.occurs (s.textOf n).toList) &&
        parts.any bringsValue then
      some (site.node.hit none
        (some "An SQL statement is built by concatenating values into a string."))
    else none
  else none

def sqlInjections (s : Source) : List Hit :=
  (s.sitesOf .template).filterMap (s.templateSqlHit ·.node) ++
  (s.sitesOf .binary).filterMap s.concatenationSqlHit

end Source

end WebAudit.Script
