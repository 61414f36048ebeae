import WebAudit.Stylesheet.Selector
import WebAudit.Stylesheet.Statement

/-!
# The rules of a stylesheet

Style rules, alone or in media rules, and the messages about what could not be read. Some statements
have their place at the beginning of a stylesheet; what they declare holds for the rules after them.
-/

namespace WebAudit.Stylesheet

inductive SheetRule where
  | style (selectors : List String) (properties : List Property)
  | media (query : String) (rules : List SheetRule)
deriving Repr, Inhabited

/-! ## Style rules -/

/-- A style rule; it is left out if its selectors cannot be read or if it has no block. -/
def readStyle (setting : Setting) (ts : List Token) : Noted (Option SheetRule) := do
  let (headRun, rest) := Run.head.split ts
  let (blockRun, rest) := Run.block.split rest
  let all := Text.quote (Token.textOf ts)
  match rest, splitLast headRun with
  | trail :: _, _ =>
    noteAt ("CSSStyleRule: Trailing content: " ++ Token.textOf ts) trail
    pure none
  | [], (_, none) =>
    note ("CSSStyleRule: No selector found: " ++ all)
    pure none
  | [], (selector, some brace) =>
    if headRun.head?.any (Text.startsWith ·.text "@") then
      note ("CSSStyleRule: No style rule: " ++ all)
      pure none
    else
      let mut ok := true
      if !brace.isChar '{' then
        ok := false
        noteAt ("CSSStyleRule: No start \x7b of style declaration found: " ++ all) brace
      else if selector.isEmpty then
        ok := false
        noteAt ("CSSStyleRule: No selector found: " ++ all ++ ".") brace
      let selectors ← readSelectors setting selector
      match blockRun.getLast? with
      | none =>
        note ("CSSStyleRule: No style declaration or \"\x7d\" found: " ++ all)
        pure none
      | some last =>
        if isClosed (some last) then
          let body := blockBody blockRun (some last)
          let properties ← readProperties setting body.length body
          pure (if ok && !selectors.isEmpty then some (.style selectors properties) else none)
        else
          note ("CSSStyleRule: No \"\x7d\" after style declaration found: " ++ all)
          pure none

/-! ## Media rules -/

/-- The end of the block of a media rule: what it holds, what closes it, and what follows. The end of
the text closes it too. -/
def mediaBody (ts : List Token) : List Token × Option Token × List Token :=
  let (run, rest) := Run.block.split ts
  match splitLast run with
  | (body, some last) =>
    if last.kind == .eof then (run, some ⟨.char, "\x7d", 0, 0⟩, rest) else (body, some last, rest)
  | (body, none) => (body, none, rest)

/-- Statements that a media rule cannot hold, as they are written. -/
def outsideOnly : List String := ["@charset ", "@font-face", "@import", "@namespace"]

/-- The query of a media rule, if it can be read, and the tokens from the block on. A rule may have a
name between the two. -/
def readMediaHead (all : List Token) : Noted (Option String × Option (List Token)) := do
  let (queryRun, rest) := Run.mediaHead.split (all.drop 1)
  let (query, last) := splitLast queryRun
  let named := last.any (·.kind == .string)
  let media ← if named || last.any (·.isChar '{') then readMedia query else pure none
  if named then
    let (nameRun, rest) := Run.head.split rest
    let (name, last) := splitLast nameRun
    let alone ← nothingBefore name.length name
    if !alone then note ("CSSMediaRule: Syntax Error: " ++ Token.textOf all)
    pure (if alone then media else none, if last.any (·.isChar '{') then some rest else none)
  else pure (media, if last.any (·.isChar '{') then some rest else none)

mutual

def readMediaRule (setting : Setting) : Nat → List Token → Noted (Option SheetRule)
  | 0, _ => pure none
  | fuel + 1, ts => do
    match ← readMediaHead ts with
    | (_, none) =>
      note ("CSSMediaRule: No \"\x7b\" found: " ++ Token.textOf ts)
      pure none
    | (media, some rest) =>
      let (body, last, trail) := mediaBody rest
      if !last.any (·.isChar '}') then
        noteAt? "CSSMediaRule: No \"\x7d\" found." last
        pure none
      else if !trail.isEmpty then
        noteAt? "CSSMediaRule: Trailing content found." trail.head?
        pure none
      else
        let rules ← readMediaRules setting fuel body
        pure (media.map (.media · rules))

def readMediaRules (setting : Setting) : Nat → List Token → Noted (List SheetRule)
  | 0, _ => pure []
  | _, [] => pure []
  | fuel + 1, t :: ts => do
    if isIgnored t then readMediaRules setting fuel ts
    else
      let (run, rest) := Run.statement.splitFrom t ts
      let rule ← match t.kind with
        | .at .variables => readStyle setting run
        | .at _ => do
          if outsideOnly.contains t.text then
            noteAt ("CSSMediaRule: This rule is not allowed in CSSMediaRule - ignored: " ++
              Token.textOf run ++ ".") t
            pure none
          else if t.text == "@media" then readMediaRule setting fuel run
          else if t.text == "@page" then do
            let _ ← readPage run
            pure none
          else do
            let _ ← readUnknown (2 * run.length + 2) run
            pure none
        | _ => readStyle setting run
      let more ← readMediaRules setting fuel rest
      pure (rule.toList ++ more)

end

/-! ## Stylesheets -/

/-- The statements and rules of a stylesheet, as far as their order matters. -/
inductive Entry where
  | charset
  | import
  | namespace
  | values
  | comment
  | unknown
  | rule
deriving DecidableEq, Repr, Inhabited

/-- How far a stylesheet has come: statements that name the character set come first, imports second,
declarations third and rules last. -/
structure SheetState where
  /-- None directly after a mark of an enclosing page. -/
  stage : Option Nat := some 0
  /-- What has been kept, latest first. -/
  entries : List Entry := []
  setting : Setting := {}
  /-- Latest first. -/
  rules : List SheetRule := []
deriving Inhabited

namespace SheetState

def moved (s : SheetState) (stage : Nat) : SheetState := { s with stage := some stage }

/-- Whatever precedes it, the first place is gone. -/
def passed (s : SheetState) : SheetState := s.moved (max 1 (s.stage.getD 0))

def keep (s : SheetState) (e : Entry) : SheetState := { s with entries := e :: s.entries }

def keepIf (s : SheetState) (e : Entry) (ok : Bool) : SheetState := if ok then s.keep e else s

def isPast (s : SheetState) (stage : Nat) : Noted Bool :=
  match s.stage with
  | some n => pure (stage < n)
  | none => breakOff .noStage

/-- Notes that a statement stands behind others it should precede; true if it does not. -/
def precedes (s : SheetState) (what found : String) (others : List Entry) : Noted Bool := do
  if s.entries.any others.contains then
    note ("CSSStylesheet: Cannot insert " ++ what ++ " here, found " ++ found ++
      " or CSSStyleRule before index " ++ toString s.entries.length ++ ".")
    pure false
  else pure true

def takeCharset (s : SheetState) (t : Token) (run : List Token) : Noted SheetState := do
  let ok ← readCharset run
  if ← s.isPast 0 then
    noteAt "CSSStylesheet: CSSCharsetRule only allowed at beginning of stylesheet." t
    pure (s.moved 1)
  else pure ((s.keepIf .charset ok).moved 1)

def takeImport (s : SheetState) (t : Token) (run : List Token) : Noted SheetState := do
  let ok ← readImport run
  if ← s.isPast 1 then
    noteAt "CSSStylesheet: CSSImportRule not allowed here." t
    pure (s.moved 1)
  else if ok then
    let first ← s.precedes "@import" "@namespace, @variables, @media, @page"
      [.namespace, .values, .unknown, .rule]
    pure ((s.keepIf .import first).moved 1)
  else pure (s.moved 1)

def takeNamespace (s : SheetState) (t : Token) (run : List Token) : Noted SheetState := do
  let declared ← readNamespace run
  if ← s.isPast 2 then
    noteAt "CSSStylesheet: CSSNamespaceRule not allowed here." t
    pure (s.moved 2)
  else
    match declared with
    | none => pure (s.moved 2)
    | some (mark, uri) =>
      let isNew := (s.setting.address? mark).isNone
      let first ← if isNew then
          s.precedes "@namespace" "@variables, @media, @page" [.values, .rule]
        else pure false
      let s := s.keepIf .namespace first
      pure ({ s with setting := s.setting.declareSpace mark uri first }.moved 2)

def takeVariables (s : SheetState) (t : Token) (run : List Token) : Noted SheetState := do
  let declared ← readVariables s.setting run
  if ← s.isPast 2 then
    noteAt "CSSStylesheet: CSSVariablesRule not allowed here." t
    pure (s.moved 2)
  else
    match declared with
    | none => pure (s.moved 2)
    | some pairs =>
      let first ← s.precedes "@variables" "@media, @page" [.rule]
      let s := s.keepIf .values first
      let values := if first then pairs.reverse ++ s.setting.values else s.setting.values
      pure ({ s with setting := { s.setting with values } }.moved 2)

def takeUnknown (s : SheetState) (t : Token) (ts run : List Token) :
    Noted (SheetState × List Token) := do
  let rest := (Run.statement.splitFrom t ts).2
  if marginNames.contains t.text then
    noteAt "CSSStylesheet: MarginRule out CSSPageRule." t
    let _ ← readMargin (run.drop 1)
    pure ((s.keep .unknown).passed, rest)
  else
    let ok ← readUnknown (2 * run.length + 2) run
    pure ((s.keepIf .unknown ok).passed, rest)

def takeRule (s : SheetState) (rule : Option SheetRule) : SheetState :=
  match rule with
  | some rule => { s.keep .rule with rules := rule :: s.rules }.moved 3
  | none => s.moved 3

end SheetState

def readRules : Nat → SheetState → List Token → Noted SheetState
  | 0, s, _ => pure s
  | _, s, [] => pure s
  | fuel + 1, s, t :: ts => do
    let (run, rest) := Run.statement.splitFrom t ts
    match t.kind with
    | .space => readRules fuel s.passed ts
    | .comment => readRules fuel (s.keep .comment).passed ts
    | .eof => readRules fuel s ts
    | .cdo | .cdc => readRules fuel { s with stage := none } ts
    | .at .charset => readRules fuel (← s.takeCharset t run) rest
    | .at .import => readRules fuel (← s.takeImport t run) rest
    | .at .namespace => readRules fuel (← s.takeNamespace t run) rest
    | .at .variables => readRules fuel (← s.takeVariables t run) rest
    | .at .fontFace => readRules fuel ((s.keepIf .rule (← readFontFace run)).moved 3) rest
    | .at .page => readRules fuel ((s.keepIf .rule (← readPage run)).moved 3) rest
    | .at .media => readRules fuel (s.takeRule (← readMediaRule s.setting (run.length + 1) run)) rest
    | .at .other =>
      let (s, rest) ← s.takeUnknown t ts run
      readRules fuel s rest
    | _ => readRules fuel (s.takeRule (← readStyle s.setting run)) rest

def read (source : String) : Except Breakdown (List SheetRule × List String) := do
  let ts := tokens source.toList
  let (s, messages) ← (readRules (ts.length + 1) {} ts).run []
  pure (s.rules.reverse, messages)

end WebAudit.Stylesheet
