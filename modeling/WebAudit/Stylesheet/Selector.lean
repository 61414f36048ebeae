import WebAudit.Stylesheet.Value
import WebAudit.Text.Slice

/-!
# Selectors

A selector is read token by token; what may come next depends on what stands before and on whether
an attribute, a negation or a function is open. A token that does not fit is noted and passed over.
Names are written with the mark of their namespace.
-/

namespace WebAudit.Stylesheet

/-! ## Pieces of a selector -/

/-- A selector is made of tokens, some of them joined to one piece. -/
inductive PieceKind where
  | classOf
  | pseudoClass
  | pseudoElement
  | negation
  | universal
  | namespaceMark
  | plain (kind : TokenKind)
deriving DecidableEq, Repr, Inhabited

structure Piece where
  kind : PieceKind
  token : Token
deriving DecidableEq, Repr, Inhabited

/-- Joins a token to the piece before it, if the two make one piece. -/
def joined (last : Piece) (t : Token) : Option Piece :=
  let before := last.token.text
  let text := before ++ t.text
  let pseudo := if Text.startsWith before "::" then PieceKind.pseudoElement else .pseudoClass
  let colon := Text.startsWith before ":"
  if t.isChar ':' && before == ":" then some ⟨last.kind, { t with text }⟩
  else if t.kind == .ident && before == "." then some ⟨.classOf, { t with text }⟩
  else if t.kind == .ident && colon && !Text.endsWith before "(" then some ⟨pseudo, { t with text }⟩
  else if t.kind == .function && before == ":" && t.text == "not(" then
    some ⟨.negation, { t with text, column := last.token.column }⟩
  else if t.kind == .function && colon then some ⟨pseudo, { t with text }⟩
  else if t.isChar '*' && last.kind == .namespaceMark then some ⟨.universal, { t with text }⟩
  else if t.isChar '|' && (last.kind == .plain .ident || last.kind == .universal) &&
      !before.toList.contains '|' then
    some ⟨.namespaceMark, { t with text }⟩
  else none

def pieceOf (t : Token) : Piece :=
  if t.isChar '*' then ⟨.universal, t⟩
  else if t.isChar '|' then ⟨.namespaceMark, t⟩
  else ⟨.plain t.kind, t⟩

def piecesFrom : List Piece → List Token → List Piece
  | done, [] => done
  | [], t :: ts => piecesFrom [pieceOf t] ts
  | last :: done, t :: ts =>
    match joined last t with
    | some piece => piecesFrom (piece :: done) ts
    | none => piecesFrom (pieceOf t :: last :: done) ts

def pieces (ts : List Token) : List Piece :=
  (piecesFrom [] ts).reverse

/-! ## What may come next -/

inductive Expect where
  /-- The start of a compound selector. -/
  | start
  /-- The start of a compound selector, or a combinator. -/
  | startOrCombinator
  /-- The start of a selector inside of a function. -/
  | argument
  /-- More of a compound selector, or a combinator. -/
  | more
  | combinator
  | elementName
  | negated
  | negationEnd
  | attributeStart
  | attributeName
  | attributeOperator
  | attributeValue
  | attributeEnd
  | expressionStart
  | expression
deriving DecidableEq, Repr, Inhabited

namespace Expect

def type (e : Expect) : Bool :=
  e == start || e == startOrCombinator || e == argument || e == negated

def simple (e : Expect) : Bool :=
  e.type || e == more

def negation (e : Expect) : Bool :=
  e == start || e == startOrCombinator || e == argument || e == more

def combine (e : Expect) : Bool :=
  e == startOrCombinator || e == more || e == combinator || e == attributeOperator

def openAttribute (e : Expect) : Bool :=
  e.simple || e == attributeStart || e == attributeName

end Expect

/-- What is open at a place of a selector. -/
inductive Context where
  | attribute
  | negation
  | function (element : Bool)
  /-- A function whose argument is a selector. -/
  | matching
deriving DecidableEq, Repr, Inhabited

/-- A part of a selector as it is written back. -/
inductive Part where
  | text (s : String)
  | blank
  | combinator (s : String)
deriving DecidableEq, Repr, Inhabited

def Part.written : Part → String
  | text s => s
  | blank => " "
  | combinator s => " " ++ s ++ " "

structure SelectorState where
  setting : Setting := {}
  expect : Expect := .start
  /-- Innermost first. -/
  context : List Context := []
  /-- Latest first. -/
  parts : List Part := []
  /-- The namespace mark in front of a name. -/
  mark : Option String := none
  wellFormed : Bool := true
deriving Inhabited

namespace SelectorState

def isMatching (s : SelectorState) : Bool :=
  s.context.head? == some .matching

def isFunction (s : SelectorState) : Bool :=
  match s.context with
  | .function _ :: _ => true
  | _ => s.isMatching

def inNegation (s : SelectorState) : Bool :=
  s.context.head? == some .negation

def inAttribute (s : SelectorState) : Bool :=
  s.context.head? == some .attribute

def push (s : SelectorState) (text : String) (expect : Expect) : SelectorState :=
  { s with parts := .text text :: s.parts, expect }

def reject (s : SelectorState) (message : String) (t : Token) : Noted SelectorState := do
  noteAt ("Selector: " ++ message) t
  pure { s with wellFormed := false }

def unexpected (s : SelectorState) (what : String) (t : Token) : Noted SelectorState :=
  s.reject ("Unexpected " ++ what ++ ".") t

def afterSimple (s : SelectorState) : Expect :=
  if s.inNegation then .negationEnd else .more

def putCombinator (s : SelectorState) (part : Part) (expect : Expect) : SelectorState :=
  match s.parts with
  | .blank :: rest => { s with parts := part :: rest, expect }
  | parts => { s with parts := part :: parts, expect }

def pushMarked (s : SelectorState) (mark : Option String) (name : String) (t : Token)
    (expect : Expect) : Noted SelectorState :=
  let setting := s.setting
  let write (space : Namespace) : SelectorState := s.push (setting.nameText space name) expect
  match mark with
  | none => pure (write (((setting.address? "").map .address).getD .unset))
  | some "*" => pure (write .any)
  | some "" => pure (write (.address ""))
  | some mark =>
    match setting.address? mark with
    | some uri => pure (write (.address uri))
    | none => do
      note ("Prefix " ++ mark ++ " not found.")
      let s ← s.reject ("No namespaceURI found for prefix " ++ Text.quote mark) t
      pure { s with expect }

/-- A name with the mark in front of it. An attribute without a mark is in no namespace. -/
def pushName (s : SelectorState) (ofAttribute : Bool) (t : Token) (expect : Expect) :
    Noted SelectorState :=
  let mark := s.mark.map fun mark => String.ofList mark.toList.dropLast
  let s := { s with mark := none }
  if ofAttribute && (mark.getD "").isEmpty then pure (s.push t.text expect)
  else s.pushMarked mark t.text t expect

def pushUniversal (s : SelectorState) (t : Token) (expect : Expect) : Noted SelectorState :=
  let mark := t.text.toList.takeWhile (· != '|')
  if mark.length < t.text.length then s.pushMarked (some (String.ofList mark)) "*" t expect
  else s.pushMarked none "*" t expect

/-- Closes a parenthesis; a blank in front of it is dropped. -/
def close (s : SelectorState) (expect : Expect) : SelectorState :=
  let parts := match s.parts with
    | .blank :: rest => rest
    | parts => parts
  { s with parts := .text ")" :: parts, expect, context := s.context.drop 1 }

def takeSpace (s : SelectorState) : SelectorState :=
  if s.isFunction then
    match s.parts with
    | [] => s
    | .combinator _ :: _ | .text "-" :: _ | .blank :: _ => s
    | parts => { s with parts := .blank :: parts }
  else if !s.inAttribute && s.expect.combine then
    { s with parts := .blank :: s.parts, expect := .startOrCombinator }
  else s

def takeIdent (s : SelectorState) (t : Token) : Noted SelectorState :=
  if s.inAttribute && (s.expect == .attributeStart || s.expect == .attributeName) then
    s.pushName true t .attributeOperator
  else if s.inAttribute && s.expect == .attributeValue then pure (s.push t.text .attributeEnd)
  else if s.inNegation then s.pushName false t .negationEnd
  else if s.isMatching then s.pushName false t .more
  else if s.isFunction then pure (s.push t.text .expression)
  else if s.expect.type || s.expect == .elementName then s.pushName false t .more
  else s.unexpected "IDENT" t

def takeString (s : SelectorState) (t : Token) : Noted SelectorState :=
  let text := quoted (unquote t.text.toList)
  if s.inAttribute && s.expect == .attributeValue then pure (s.push text .attributeEnd)
  else if s.isFunction then pure (s.push text .expression)
  else s.unexpected "STRING" t

def takeOperator (s : SelectorState) (t : Token) : Noted SelectorState :=
  if s.inAttribute && s.expect.combine then pure (s.push t.text .attributeValue)
  else s.unexpected t.kind.name t

def takeExpression (s : SelectorState) (t : Token) : Noted SelectorState :=
  if s.isFunction then pure (s.push t.text .expression)
  else s.unexpected t.kind.name t

def matchingFunctions : List String := [":is(", ":where(", ":has(", ":any("]

def oldElements : List String := [":first-line", ":first-letter", ":before", ":after"]

def takePseudo (s : SelectorState) (element : Bool) (t : Token) : Noted SelectorState :=
  if s.expect.simple then
    let text := normalWord t.text
    let element := element || oldElements.contains text
    if matchingFunctions.contains text then
      pure { s.push text .argument with context := .matching :: s.context }
    else if Text.endsWith text "(" then
      pure { s.push text .expressionStart with context := .function element :: s.context }
    else if s.inNegation then pure (s.push text .negationEnd)
    else pure (s.push text (if element then .combinator else .more))
  else s.reject "Unexpected start of pseudo." t

def takeChar (s : SelectorState) (t : Token) : Noted SelectorState :=
  if t.isChar ']' && s.inAttribute &&
      (s.expect == .attributeOperator || s.expect == .attributeEnd) then
    let s := { s with context := s.context.drop 1 }
    pure (s.push "]" s.afterSimple)
  else if t.isChar ')' && s.inNegation && s.expect == .negationEnd then
    pure (s.close .startOrCombinator)
  else if (t.isChar '+' || t.isChar '-') && s.isFunction then
    if t.isChar '+' then pure (s.putCombinator (.combinator "+") .expression)
    else pure (s.push t.text .expression)
  else if t.isChar ')' && s.isFunction && (s.isMatching || s.expect == .expression) then
    let element := s.context.head? == some (.function true)
    pure (s.close (if element then .combinator else .startOrCombinator))
  else if t.isChar '[' && s.expect.openAttribute then
    pure { s.push "[" .attributeStart with context := .attribute :: s.context }
  else if t.isChar '=' && s.inAttribute && s.expect.combine then pure (s.push "=" .attributeValue)
  else if (t.isChar '+' || t.isChar '>' || t.isChar '~') && s.expect.combine then
    pure (s.putCombinator (.combinator t.text) .start)
  else if t.isChar ',' then s.reject "Single selector only." t
  else s.unexpected "CHAR" t

def take (s : SelectorState) (p : Piece) : Noted SelectorState :=
  let t := p.token
  match p.kind with
  | .classOf =>
    if s.expect.simple then pure (s.push t.text s.afterSimple) else s.unexpected "class" t
  | .universal =>
    if s.expect.type then s.pushUniversal t s.afterSimple else s.unexpected "universal" t
  | .pseudoClass => s.takePseudo false t
  | .pseudoElement => s.takePseudo true t
  | .negation =>
    if s.expect.negation then
      pure { s.push (normalWord t.text) .negated with context := .negation :: s.context }
    else s.unexpected "negation" t
  | .namespaceMark =>
    if s.inAttribute && s.expect == .attributeStart then
      pure { s with mark := some t.text, expect := .attributeName }
    else if s.expect.type then pure { s with mark := some t.text, expect := .elementName }
    else s.unexpected "namespace prefix" t
  | .plain kind =>
    match kind with
    | .space => pure s.takeSpace
    | .comment => pure { s with parts := .text t.text :: s.parts }
    | .eof => pure s
    | .hash =>
      if s.expect.simple then pure (s.push t.text s.afterSimple) else s.unexpected "HASH" t
    | .ident => s.takeIdent t
    | .string => s.takeString t
    | .number | .dimension => s.takeExpression t
    | .includes | .dashMatch | .startMatch | .endMatch | .substringMatch => s.takeOperator t
    | .at .other => s.unexpected "ATKEYWORD" t
    | .char => s.takeChar t
    | _ => do
      noteStray t
      pure { s with wellFormed := false }

def text (s : SelectorState) : String :=
  let parts := match s.parts with
    | .blank :: rest => rest
    | parts => parts
  String.join (parts.reverse.map (·.written))

end SelectorState

/-! ## Selectors and lists of them -/

def readSelector (setting : Setting) (ts : List Token) : Noted (Option String) := do
  if ts.isEmpty then
    note "Selector: No selectorText given."
    pure none
  else
    let s ← (pieces ts).foldlM SelectorState.take ({ setting } : SelectorState)
    let mut ok := s.wellFormed
    if !s.context.isEmpty || s.parts.isEmpty then
      ok := false
      note ("Selector: Invalid or incomplete selector: " ++ Token.textOf ts)
    if s.expect == .elementName then
      ok := false
      note ("Selector: No element name found: " ++ Token.textOf ts)
    if s.expect == .start && !s.parts.isEmpty then
      ok := false
      note ("Selector: Cannot end with combinator: " ++ Token.textOf ts)
    pure (if ok then some s.text else none)

/-- The selectors between commas, `none` for one that cannot be read, and whether the list ends
where another one is due. -/
def selectorItems (setting : Setting) : Nat → List Token → Noted (List (Option String) × Bool)
  | 0, _ => pure ([], true)
  | fuel + 1, ts => do
    if ts.isEmpty then pure ([], true)
    else
      let (run, rest) := Run.listItem.split ts
      let comma := run.getLast?.any (·.isChar ',')
      let item := if comma then run.dropLast else run
      let selector ← readSelector setting item
      if selector.isNone then note ("SelectorList: Invalid Selector: " ++ Token.textOf item)
      if comma then
        let (more, isOpen) ← selectorItems setting fuel rest
        pure (selector :: more, isOpen)
      else pure ([selector], false)

/-- The selectors of a rule; none at all if one of them cannot be read. -/
def readSelectors (setting : Setting) (ts : List Token) : Noted (List String) := do
  let (items, isOpen) ← selectorItems setting (ts.length + 1) ts
  if isOpen then
    note ("SelectorList: Unknown Syntax: " ++ Text.quote (Token.textOf ts))
    pure []
  else pure ((items.mapM id).getD [])

end WebAudit.Stylesheet
