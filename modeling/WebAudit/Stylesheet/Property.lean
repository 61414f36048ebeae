import WebAudit.Stylesheet.Unknown
import WebAudit.Stylesheet.Value

/-!
# Properties

A property is a name, a value and the mark `!important`. One that cannot be read is left out of its
rule; a mark that cannot be read is left out of its property.
-/

namespace WebAudit.Stylesheet

structure Property where
  name : String
  value : String
  important : Bool := false
deriving DecidableEq, Repr, Inhabited

def isIgnored (t : Token) : Bool :=
  t.kind == .space || t.kind == .comment || t.kind == .eof

/-- The name in the tokens before the colon, and whether it stands there alone. -/
def nameFrom : Nat → Option String → List Token → Noted (Option String × Bool)
  | 0, name, _ => pure (name, true)
  | _, name, [] => pure (name, true)
  | fuel + 1, name, t :: ts => do
    if isIgnored t then nameFrom fuel name ts
    else if t.kind == .ident && name.isNone then nameFrom fuel (some (normalWord t.text)) ts
    else if t.kind == .at .other then
      if name.isSome then breakOff .strayAtWord
      nameFrom fuel name (← passUnknown t ts)
    else
      if t.kind == .ident then noteAt "Property: Unexpected ident." t else noteStray t
      let (name, _) ← nameFrom fuel name ts
      pure (name, false)

def readName (ts : List Token) : Noted (Option String) := do
  let (name, alone) ← nameFrom ts.length none ts
  match name, ts with
  | none, t :: _ =>
    noteAt ("Property: No name found: " ++ Token.textOf ts) t
    pure none
  | name, _ => pure (if alone then name else none)

/-- What may stand next in a priority. -/
inductive PriorityDue where
  | mark
  | word
  | nothing
deriving DecidableEq, Repr, Inhabited

/-- The word after the exclamation mark, and whether nothing else stands there. -/
def priorityFrom : Nat → PriorityDue → List Token → Noted (Option String × Bool)
  | 0, _, _ => pure (none, true)
  | _, _, [] => pure (none, true)
  | fuel + 1, due, t :: ts => do
    if isIgnored t then priorityFrom fuel due ts
    else if due == .mark && t.isChar '!' then priorityFrom fuel .word ts
    else if due == .word && t.kind == .ident then
      let (_, alone) ← priorityFrom fuel .nothing ts
      pure (some (normalWord t.text), alone)
    else if t.kind == .at .other then
      if due == .nothing then breakOff .strayAtWord
      priorityFrom fuel due (← passUnknown t ts)
    else
      if t.kind == .ident then noteAt "Property: Unexpected ident." t
      else if t.kind == .char then noteAt "Property: Unexpected char." t
      else noteStray t
      let (word, _) ← priorityFrom fuel due ts
      pure (word, false)

def readPriority (ts : List Token) : Noted Bool := do
  match ← priorityFrom ts.length .mark ts with
  | (some word, true) =>
    if word == "important" then pure true
    else
      note ("Property: No CSS priority value: " ++ word)
      pure false
  | _ => pure false

def readProperty (setting : Setting) (ts : List Token) : Noted (Option Property) := do
  let (nameRun, rest) := Run.propertyName.split ts
  let (valueRun, rest) := Run.propertyValue.split rest
  let (priorityRun, _) := Run.toSemicolon.split rest
  match splitLast nameRun with
  | (_, none) =>
    note ("Property: No property name found: " ++ Token.textOf ts)
    pure none
  | (name, some colon) =>
    let mut ok := true
    if !colon.isChar ':' then
      ok := false
      noteAt ("Property: No \":\" after name found: " ++ Token.textOf ts) colon
    else if name.isEmpty then
      ok := false
      noteAt ("Property: No property name found: " ++ Token.textOf ts) colon
    if valueRun.isEmpty then
      ok := false
      noteAt ("Property: No property value found: " ++ Token.textOf ts) colon
    if ok then
      let marked := valueRun.getLast?.any (·.isChar '!')
      let mark := if marked then valueRun.drop (valueRun.length - 1) else []
      let name ← readName name
      let value ← readValue setting (if marked then valueRun.dropLast else valueRun)
      let important ← readPriority (mark ++ priorityRun)
      match name, value with
      | some name, some value => pure (some { name, value, important })
      | _, _ => pure none
    else pure none

/-- The properties of a block. A semicolon too many is passed over, and so is an unknown statement;
any other token that begins no property is passed over up to the next semicolon or exclamation
mark. -/
def readProperties (setting : Setting) : Nat → List Token → Noted (List Property)
  | 0, _ => pure []
  | _, [] => pure []
  | fuel + 1, t :: ts => do
    if isIgnored t || t.isChar ';' then readProperties setting fuel ts
    else if t.kind == .ident then
      let (run, rest) := Run.toSemicolon.splitFrom t ts
      let body := if run.getLast?.any (·.isChar ';') then run.dropLast else run
      let property ← readProperty setting body
      if property.isNone then
        note ("CSSStyleDeclaration: Syntax Error in Property: " ++ Token.textOf body)
      let more ← readProperties setting fuel rest
      pure (property.toList ++ more)
    else if t.kind == .at .other then
      readProperties setting fuel (← passUnknown t ts)
    else
      let (run, rest) := Run.propertyValue.split ts
      noteAt ("CSSStyleDeclaration: Unexpected token, ignoring upto " ++
        Text.quote (Token.textOf (t :: run)) ++ ".") t
      readProperties setting fuel rest

end WebAudit.Stylesheet
