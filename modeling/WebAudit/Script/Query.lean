import WebAudit.Script.Source

/-!
# Finding constructs in a script

Calls, imports, string literals, function definitions and comments, and what surrounds them.
-/

namespace WebAudit.Script

structure Call where
  site : Site
  name : String
  /-- The text of the object whose method is called. -/
  receiver : Option String
  arguments : List Node

/-- A module that a script names. -/
structure Import where
  module : String
  dynamic : Bool
  line : Nat
deriving DecidableEq, Repr

structure StringLiteral where
  value : String
  line : Nat
  column : Nat
deriving DecidableEq, Repr

structure Definition where
  site : Site
  name : String
  parameters : Nat

namespace Node

def line (n : Node) : Nat := n.span.start.row + 1
def column (n : Node) : Nat := n.span.start.column
def endLine (n : Node) : Nat := n.span.stop.row + 1
def endColumn (n : Node) : Nat := n.span.stop.column

def contents (n : Node) : List Node :=
  n.namedChildren.filter (·.kind != .comment)

def branching (n : Node) : Nat :=
  if n.kind.isBranch then 1
  else if n.kind == .binary then
    match (n.child? .operator).map kind with
    | some (.token "&&") | some (.token "||") | some (.token "??") => 1
    | _ => 0
  else 0

/-- One more than the number of branch points in the subtree. -/
def complexity (n : Node) : Nat :=
  n.subtree.foldl (fun total node => total + branching node) 1

end Node

namespace Site

/-- Whether a loop above has `current` in the range of its body. -/
def insideLoopFrom (current : Node) : List Node → Bool
  | [] => false
  | p :: above =>
    (p.kind.isLoop && (p.child? .body).any (·.span.covers current.span)) || insideLoopFrom p above

def insideLoop (s : Site) : Bool :=
  insideLoopFrom s.node s.above

/-- Whether a `try` above has `current` in its body, functions in between apart. -/
def insideTryFrom (current : Node) : List Node → Bool
  | [] => false
  | p :: above =>
    if current.kind.isFunction then false
    else (p.kind == .tryStatement && current.role == some .body) || insideTryFrom p above

/-- Whether a site runs inside a `try` block. A function defined in the block is called later, so the
search ends at functions. -/
def insideTry (s : Site) : Bool :=
  insideTryFrom s.node s.above

end Site

namespace Source

def callAt (s : Source) (site : Site) : Option Call :=
  match site.node.child? .callee with
  | none => none
  | some callee =>
    let arguments := ((site.node.child? .arguments).map Node.contents).getD []
    if callee.kind == .member then
      let name := s.textOf ((callee.child? .property).getD callee)
      some ⟨site, name, (callee.child? .object).map s.textOf, arguments⟩
    else some ⟨site, s.textOf callee, none, arguments⟩

def calls (s : Source) : List Call :=
  (s.sitesOf .call).filterMap s.callAt

def plainString? (s : Source) (n : Node) : Option String :=
  if n.kind == .string then
    match n.children.filter (·.kind == .stringFragment) with
    | [fragment] => some (s.textOf fragment)
    | _ => none
  else none

def staticImports (s : Source) (k : Kind) : List Import :=
  (s.sitesOf k).filterMap fun site =>
    match (site.node.child? .source).bind s.plainString? with
    | some module => if module.isEmpty then none else some ⟨module, false, site.node.line⟩
    | none => none

/-- Calls of `require` and `import` that name a module. -/
def dynamicImports (s : Source) : List Import :=
  s.calls.filterMap fun call =>
    if call.receiver.isNone && (call.name == "require" || call.name == "import") then
      match call.arguments.head?.bind s.plainString? with
      | some module => if module.isEmpty then none else some ⟨module, true, call.site.node.line⟩
      | none => none
    else none

def imports (s : Source) : List Import :=
  (s.staticImports .importStatement ++ s.staticImports .exportStatement ++ s.dynamicImports).mergeSort
    fun a b => a.line ≤ b.line

def addTarget (targets : List (String × Nat)) (i : Import) : List (String × Nat) :=
  if i.module.startsWith "." || i.module.startsWith "/" || targets.any (·.1 == i.module) then targets
  else targets ++ [(i.module, i.line)]

/-- Modules named neither relatively nor absolutely, each with its first line. -/
def importTargets (s : Source) : List (String × Nat) :=
  s.imports.foldl addTarget []

def stringLiterals (s : Source) : List StringLiteral :=
  ((s.sitesOf .stringFragment).map fun site =>
    (⟨s.textOf site.node, site.node.line, site.node.column⟩ : StringLiteral)).mergeSort
    fun a b => a.line < b.line || (a.line == b.line && a.column ≤ b.column)

/-- The name of a function: its own, or that of the variable, target or key it is given to. -/
def definitionName (s : Source) (site : Site) : String :=
  match site.node.child? .name with
  | some name => s.textOf name
  | none =>
    let given : Option Node := do
      let parent ← site.parent?
      match parent.kind with
      | .variableDeclarator => parent.child? .name
      | .assignment => parent.child? .left
      | .pair => parent.child? .key
      | _ => none
    (given.map s.textOf).getD "<anonymous>"

def parameterCount (n : Node) : Nat :=
  match n.child? .parameters with
  | some ps => ps.contents.length
  | none => if (n.child? .parameter).isSome then 1 else 0

def definitions (s : Source) : List Definition :=
  (s.sites.filter (·.node.kind.isFunction)).map fun site =>
    ⟨site, s.definitionName site, parameterCount site.node⟩

def comments (s : Source) : List Node :=
  (s.sitesOf .comment).map Site.node

end Source

end WebAudit.Script
