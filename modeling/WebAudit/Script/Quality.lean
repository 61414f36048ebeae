import WebAudit.Number.Magnitude
import WebAudit.Script.Security

/-!
# Quality checks for scripts
-/

namespace WebAudit.Script.Source

/-! ## Complexity -/

def complexityLimit : Nat := 10

def severeComplexity : Nat := 20

def averageLimit : Nat := 8

def complexityHit (d : Definition) : Option Hit :=
  let complexity := d.site.node.complexity
  if complexity ≤ complexityLimit then none
  else
    some {
      line := d.site.node.line
      column := some d.site.node.column
      endLine := some d.site.node.endLine
      severity := some (if severeComplexity < complexity then .high else .medium)
      title := some ("High cyclomatic complexity (" ++ toString complexity ++ ") in " ++ d.name)
      description := some ("Function " ++ d.name ++ " has a cyclomatic complexity of " ++
        toString complexity ++ ", above the limit of " ++ toString complexityLimit ++ ".") }

def complexFunctions (s : Source) : List Hit :=
  s.definitions.filterMap complexityHit

def averageComplexity (s : Source) : List Hit :=
  let count := s.definitions.length
  let total := s.definitions.foldl (fun total d => total + d.site.node.complexity) 0
  if total ≤ averageLimit * count then []
  else
    let average := (Number.Magnitude.ofQuotient total count).fixed 1
    [{ wholeFile := true
       title := some ("High average complexity (" ++ average ++ ")")
       description := some ("The " ++ toString count ++ " functions in this file have an average " ++
         "cyclomatic complexity of " ++ average ++ ", above " ++ toString averageLimit ++ ".") }]

def maxParameters : Nat := 5

def excessParameters (s : Source) : List Hit :=
  s.definitions.filterMap fun d =>
    if d.parameters ≤ maxParameters then none
    else
      some (d.site.node.startHit none (some ("Function " ++ d.name ++ " takes " ++
        toString d.parameters ++ " parameters (limit " ++ toString maxParameters ++ ").")))

/-! ## Single constructs -/

def legacyDeclarations (s : Source) : List Hit :=
  (s.sitesOf .variableDeclaration).filterMap fun site =>
    if site.node.children.head?.any (·.kind == .token "var") then some site.node.startHit else none

def debugStatements (s : Source) : List Hit :=
  (s.calls.filterMap fun c =>
    if c.receiver == some "console" then
      some (c.hit none (some ("console." ++ c.name ++ "() left in the code.")))
    else none) ++
  (s.sitesOf .debuggerStatement).map fun site =>
    site.node.startHit (some "Debugger statement")
      (some "A debugger statement pauses execution when devtools are open.")

def explicitAny (s : Source) : List Hit :=
  if s.dialect.isTyped then
    (s.sitesOf .predefinedType).filterMap fun site =>
      if s.textOf site.node == "any" then some site.node.startHit else none
  else []

def suppressedTypes (s : Source) : List Hit :=
  s.comments.filterMap fun n =>
    if Text.contains "@ts-ignore" (s.textOf n) then some n.startHit else none

def maxCharacters : Nat := 10000

def largeFile (s : Source) : List Hit :=
  let size := s.text.length
  if size ≤ maxCharacters then []
  else
    [{ wholeFile := true
       description := some ("The file is " ++ toString size ++ " characters long (limit " ++
         toString maxCharacters ++ ").") }]

/-! ## Errors that nothing handles -/

/-- Whether a call takes the failure of what it is called on: `catch`, or `then` with a second
argument. -/
def takesFailure (s : Source) (call : Node) : Bool :=
  match s.memberProperty (call.child? .callee) with
  | some "catch" => true
  | some "then" => 2 ≤ (((call.child? .arguments).map Node.contents).getD []).length
  | _ => false

def handlesFailure (s : Source) (call : Node) : List Node → Bool
  | member :: next :: above =>
    s.takesFailure call ||
    (member.kind == .member && call.role == some .object && next.kind == .call &&
      handlesFailure s next above)
  | _ => s.takesFailure call

def mayFail (c : Call) : Option String :=
  if c.receiver.isNone && c.name == "fetch" then some "fetch()"
  else if c.receiver == some "JSON" && c.name == "parse" then some "JSON.parse()"
  else if c.receiver == some "axios" then some ("axios." ++ c.name ++ "()")
  else if c.name == "then" && c.receiver.isSome then some "A promise chain"
  else none

def awaited (site : Site) : Option Site :=
  match site.children.find? (·.node.isNamed) with
  | some child => if child.node.kind == .call then some child else none
  | none => none

/-- Calls that can fail, with what is said of them, in the order of the text. -/
def failureCandidates (s : Source) : List (Site × String) :=
  let calls := s.calls.filterMap fun c => (mayFail c).map (c.site, ·)
  let awaits := (s.sitesOf .await).filterMap fun site =>
    (awaited site).map (·, "An awaited call")
  (calls ++ awaits).mergeSort fun a b => a.1.node.span.start.byte ≤ b.1.node.span.start.byte

def isHandled (s : Source) (site : Site) : Bool :=
  site.insideTry || s.handlesFailure site.node site.above

def oncePerLine (seen : List Nat) : List (Site × String) → List (Site × String)
  | [] => []
  | c :: cs =>
    let line := c.1.node.line
    if seen.contains line then oncePerLine seen cs else c :: oncePerLine (line :: seen) cs

def unhandledFailures (s : Source) : List Hit :=
  (oncePerLine [] (s.failureCandidates.filter (!s.isHandled ·.1))).map fun (site, what) =>
    site.node.hit none
      (some (what ++ " can fail, and no try/catch or .catch() handles the error."))

end WebAudit.Script.Source
