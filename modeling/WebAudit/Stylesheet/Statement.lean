import WebAudit.Stylesheet.Media
import WebAudit.Stylesheet.Property
import WebAudit.Text.Charset

/-!
# Statements beside rules

The statements of a stylesheet that hold no style rules. They are read for what they declare and for
the messages about them.
-/

namespace WebAudit.Stylesheet

/-! ## Character set -/

def checkCharset (name : String) : Noted Bool := do
  match tokens name.toList with
  | [t, _] =>
    if t.kind != .ident then
      note ("CSSCharsetRule: Syntax Error in encoding value " ++ Text.quote name ++ ".")
      pure false
    else if Text.isKnownCharset name then pure true
    else
      note ("CSSCharsetRule: Unknown (Python) encoding " ++ Text.quote name ++ ".")
      pure false
  | _ =>
    note ("CSSCharsetRule: Syntax Error in encoding value " ++ Text.quote name ++ ".")
    pure false

/-- Reads the statement that names the character set, and tells whether it is well formed. -/
def readCharset (ts : List Token) : Noted Bool := do
  let all := Text.quote (Token.textOf ts)
  let name := ts[1]?
  if name.any (·.text.isEmpty) then breakOff .noCharsetName
  let text := String.ofList (unquote ((name.map (·.text)).getD "").toList)
  let named := name.any (·.kind == .string) && !text.isEmpty
  if !named then note ("CSSCharsetRule: no encoding found; " ++ all ++ ".")
  let ended := ts[2]?.any (·.isChar ';') && ts[3]?.all (·.kind == .eof)
  if !ended then note ("CSSCharsetRule: Syntax Error: " ++ all ++ ".")
  if named && ended then checkCharset text else pure false

/-! ## Namespaces -/

/-- What may come next in a statement that declares a namespace or imports. -/
inductive StatementDue where
  | markOrAddress
  | address
  | queries
  | semicolon
  | nothing
deriving DecidableEq, Repr, Inhabited

structure Declared where
  due : StatementDue
  mark : String := ""
  address : Option String := none
  wellFormed : Bool := true
deriving DecidableEq, Repr, Inhabited

namespace Declared

def reject (d : Declared) (message : String) (t : Token) : Noted Declared := do
  noteAt message t
  pure { d with wellFormed := false }

def stray (d : Declared) (t : Token) : Noted Declared := do
  noteStray t
  pure { d with wellFormed := false }

def takesAddress (d : Declared) : Bool :=
  d.due == .markOrAddress || d.due == .address

end Declared

def addressText (t : Token) : String :=
  let cs := t.text.toList
  String.ofList (if t.kind == .uri then addressOf cs else unquote cs)

def namespaceFrom : Nat → Declared → List Token → Noted Declared
  | 0, d, _ => pure d
  | _, d, [] => pure d
  | fuel + 1, d, t :: ts => do
    match t.kind with
    | .space | .comment => namespaceFrom fuel d ts
    | .eof => namespaceFrom fuel { d with due := .nothing } ts
    | .at .other =>
      if d.due == .nothing then namespaceFrom fuel (← d.reject "Expected EOF." t) ts
      else namespaceFrom fuel d (← passUnknown t ts)
    | kind =>
      let d ←
        if kind == .ident then
          if d.due == .markOrAddress then pure { d with mark := t.text, due := .address }
          else d.reject "CSSNamespaceRule: Unexpected ident." t
        else if kind == .string || kind == .uri then
          if d.takesAddress then pure { d with address := some (addressText t), due := .semicolon }
          else if kind == .string then d.reject "CSSNamespaceRule: Unexpected string." t
          else d.reject "CSSNamespaceRule: Unexpected URI." t
        else if kind == .char then
          if d.due == .semicolon && t.isChar ';' then pure { d with due := .nothing }
          else d.reject "CSSNamespaceRule: Unexpected char." t
        else d.stray t
      namespaceFrom fuel d ts

/-- The mark and the address that a statement declares, if it is well formed. -/
def readNamespace (ts : List Token) : Noted (Option (String × String)) := do
  let d ← namespaceFrom ts.length { due := .markOrAddress } (ts.drop 1)
  if d.address.isNone then
    note ("CSSNamespaceRule: No namespace URI found: " ++ Token.textOf ts)
  let ended := d.due == .semicolon || d.due == .nothing
  if !ended then note ("CSSNamespaceRule: No \";\" found: " ++ Token.textOf ts)
  match d.address with
  | some uri => pure (if d.wellFormed && ended then some (d.mark, uri) else none)
  | none => pure none

/-! ## Imports -/

def importQueries (all : List Token) (d : Declared) (t : Token) (ts : List Token) :
    Noted (Declared × List Token) := do
  let (run, rest) := Run.importQueries.split ts
  match splitLast (t :: run) with
  | (queries, some last) =>
    let mut d := d
    if !last.isChar ';' && last.kind != .eof && last.kind != .string then
      d ← d.reject ("CSSImportRule: No \";\" found: " ++ Token.textOf all) t
    if (← readMedia queries).isNone then
      d ← d.reject ("CSSImportRule: Invalid MediaList: " ++ Token.textOf all) t
    pure ({ d with due := if last.kind == .string then .semicolon else .nothing }, rest)
  | (_, none) => pure (d, rest)

def importFrom (all : List Token) : Nat → Declared → List Token → Noted Declared
  | 0, d, _ => pure d
  | _, d, [] => pure d
  | fuel + 1, d, t :: ts => do
    match t.kind with
    | .space | .comment => importFrom all fuel d ts
    | .eof => importFrom all fuel { d with due := .nothing } ts
    | .at .other =>
      if d.due == .nothing then importFrom all fuel (← d.reject "Expected EOF." t) ts
      else importFrom all fuel d (← passUnknown t ts)
    | .ident =>
      if d.due == .queries then
        let (d, rest) ← importQueries all d t ts
        importFrom all fuel d rest
      else importFrom all fuel (← d.reject "CSSImportRule: Unexpected ident." t) ts
    | kind =>
      let d ←
        if kind == .string || kind == .uri then
          if d.due == .address then pure { d with address := some (addressText t), due := .queries }
          else if kind == .uri then d.reject "CSSImportRule: Unexpected URI." t
          else if d.due == .queries then pure { d with due := .semicolon }
          else d.reject "CSSImportRule: Unexpected string." t
        else if kind == .char then
          if (d.due == .queries || d.due == .semicolon) && t.isChar ';' then
            pure { d with due := .nothing }
          else d.reject "CSSImportRule: Unexpected char." t
        else d.stray t
      importFrom all fuel d ts

def readImport (ts : List Token) : Noted Bool := do
  let d ← importFrom ts ts.length { due := .address } (ts.drop 1)
  let found := !(d.address.getD "").isEmpty
  if !found then note ("CSSImportRule: No href found: " ++ Token.textOf ts)
  if d.due != .nothing then note ("CSSImportRule: No \";\" found: " ++ Token.textOf ts)
  pure (d.wellFormed && found && d.due == .nothing)

/-! ## Blocks -/

/-- Notes what stands in front of a block that nothing may precede; true if nothing does. -/
def nothingBefore : Nat → List Token → Noted Bool
  | 0, _ => pure true
  | _, [] => pure true
  | fuel + 1, t :: ts => do
    if isIgnored t then nothingBefore fuel ts
    else if t.kind == .at .other then nothingBefore fuel (← passUnknown t ts)
    else
      noteStray t
      let _ ← nothingBefore fuel ts
      pure false

/-- A block as it is read: the tokens in it, with the end of the text if that ends it. -/
def blockBody (run : List Token) (last : Option Token) : List Token :=
  if last.any (·.kind == .eof) then run else run.dropLast

/-- Whether a block is closed, by a brace or by the end of the text. -/
def isClosed (last : Option Token) : Bool :=
  last.any fun t => t.isChar '}' || t.kind == .eof

/-- A statement cut at its braces. -/
structure Cut where
  before : List Token
  brace : Option Token
  body : List Token
  last : Option Token
  trail : Option Token

def cut (ts : List Token) : Cut :=
  let (headRun, rest) := Run.head.split ts
  let (blockRun, rest) := Run.block.split rest
  let (before, brace) := splitLast headRun
  let last := blockRun.getLast?
  ⟨before, brace, blockBody blockRun last, last, rest.head?⟩

def noteAt? (message : String) : Option Token → Noted Unit
  | some t => noteAt message t
  | none => note message

def readFontFace (ts : List Token) : Noted Bool := do
  let all := Text.quote (Token.textOf ts)
  let c := cut (ts.drop 1)
  let starts := c.brace.any (·.isChar '{')
  if !starts then
    noteAt? ("CSSFontFaceRule: No start \x7b of style declaration found: " ++ all) c.brace
  let alone ← nothingBefore c.before.length c.before
  if !isClosed c.last then
    note ("CSSFontFaceRule: No \"\x7d\" after style declaration found: " ++ all)
  if c.trail.isSome then noteAt? "CSSFontFaceRule: Trailing content found." c.trail
  let _ ← readProperties {} c.body.length c.body
  pure (starts && alone && isClosed c.last && c.trail.isNone)

/-! ## Variables -/

def declaredPairs : Option String → List Item → List (String × String)
  | _, [] => []
  | name, i :: rest =>
    match i.kind, name with
    | .comment, _ => declaredPairs name rest
    | .word, _ => declaredPairs (some (normalWord i.text)) rest
    | _, some name => (name, i.text) :: declaredPairs none rest
    | _, none => declaredPairs none rest

/-- The variables that a statement declares, if it is well formed. -/
def readVariables (setting : Setting) (ts : List Token) : Noted (Option (List (String × String))) := do
  let all := Text.quote (Token.textOf ts)
  let c := cut (ts.drop 1)
  let starts := c.brace.any (·.isChar '{')
  if !starts then
    noteAt? ("CSSVariablesRule: No start \x7b of variable declaration found: " ++ all) c.brace
  let alone ← nothingBefore c.before.length c.before
  if !isClosed c.last then
    note ("CSSVariablesRule: No \"\x7d\" after variables declaration found: " ++ all)
  if c.trail.isSome then noteAt? "CSSVariablesRule: Trailing content found." c.trail
  let r ← readWhole setting .declarations c.body
  if starts && alone && isClosed c.last && c.trail.isNone then
    pure (some (if r.wellFormed then declaredPairs none r.items else []))
  else pure none

/-! ## Pages -/

/-- What may come next in the selector of a page. -/
inductive PageDue where
  | name
  /-- A pseudo page directly after the name. -/
  | pseudo
  | pseudoAfterBlank
  | nothing
deriving DecidableEq, Repr, Inhabited

def pageFrom : Nat → PageDue → List Token → Noted Bool
  | 0, _, _ => pure true
  | _, _, [] => pure true
  | fuel + 1, due, t :: ts => do
    let reject (message : String) : Noted Bool := do
      noteAt ("CSSPageRule selectorText: " ++ message) t
      let _ ← pageFrom fuel due ts
      pure false
    match t.kind with
    | .space => pageFrom fuel (if due == .pseudo then .pseudoAfterBlank else due) ts
    | .comment => pageFrom fuel due ts
    | .eof => pageFrom fuel .nothing ts
    | .at .other =>
      if due == .nothing then
        noteAt "Expected EOF." t
        let _ ← pageFrom fuel due ts
        pure false
      else pageFrom fuel due (← passUnknown t ts)
    | .ident =>
      if due == .name then
        if normalWord t.text == "auto" then noteAt "CSSPageRule selectorText: Invalid pagename." t
        pageFrom fuel .pseudo ts
      else reject ("Unexpected IDENT: " ++ Text.quote t.text)
    | .char =>
      if t.isChar ':' && (due == .name || due == .pseudo) then
        match ts with
        | [] =>
          noteAt "CSSPageRule selectorText: No IDENT found." t
          pure true
        | u :: us =>
          if u.kind == .ident then pageFrom fuel .nothing us
          else
            noteAt ("CSSPageRule selectorText: Expected IDENT but found: " ++ Text.quote u.text) t
            pageFrom fuel due us
      else reject ("Unexpected CHAR: " ++ Text.quote t.text)
    | _ =>
      noteStray t
      let _ ← pageFrom fuel due ts
      pure false

def marginNames : List String :=
  ["@top-left-corner", "@top-left", "@top-center", "@top-right", "@top-right-corner",
    "@bottom-left-corner", "@bottom-left", "@bottom-center", "@bottom-right",
    "@bottom-right-corner", "@left-top", "@left-middle", "@left-bottom", "@right-top",
    "@right-middle", "@right-bottom"]

def isMargin (t : Token) : Bool :=
  t.kind == .at .other && marginNames.contains (normalWord t.text)

def readMargin (ts : List Token) : Noted (List Token) := do
  let rest := ts.dropWhile isIgnored
  match rest with
  | [] => pure []
  | t :: rest =>
    if t.isChar '{' then
      let isBrace (t : Token) : Bool := t.isChar '{' || t.isChar '}'
      let body := rest.takeWhile (!isBrace ·)
      match rest.drop body.length with
      | [] => pure []
      | u :: rest =>
        if u.isChar '}' then
          let _ ← readProperties {} body.length body
        else
          note ("MarginRule: Missing token for production CLOSE: " ++ u.shown)
        pure rest
    else
      note ("MarginRule: Missing token for production OPEN: " ++ t.shown)
      pure rest

/-- Reads the margins in the block of a page; the other tokens are left. -/
def withoutMargins : Nat → List Token → Noted (List Token)
  | 0, ts => pure ts
  | _, [] => pure []
  | fuel + 1, t :: ts => do
    if isMargin t then withoutMargins fuel (← readMargin ts)
    else pure (t :: (← withoutMargins fuel ts))

def readPage (ts : List Token) : Noted Bool := do
  let all := Text.quote (Token.textOf ts)
  let c := cut (ts.drop 1)
  let starts := c.brace.any (·.isChar '{')
  if !starts then
    noteAt? ("CSSPageRule: No start \x7b of style declaration found: " ++ all) c.brace
  else if c.trail.isSome then noteAt? "CSSPageRule: Trailing content found." c.trail
  let selected ← pageFrom c.before.length .name c.before
  if isClosed c.last then
    let body ← withoutMargins c.body.length c.body
    let _ ← readProperties {} body.length body
  else
    note ("CSSPageRule: No \"\x7d\" after style declaration found: " ++ all)
  pure (starts && c.trail.isNone && selected && isClosed c.last)

end WebAudit.Stylesheet
