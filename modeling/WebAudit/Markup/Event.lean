import WebAudit.Markup.Reference
import WebAudit.Text.Blank
import WebAudit.Text.Lowercase
import WebAudit.Text.Lines
import WebAudit.Text.Quoted

/-!
# Events of a page

A page is read as a row of events: tags that open and close, text, and parts that are not text. The
reader takes nearly anything. Where the text breaks off inside a construct, the construct is read
again as text once it is known that nothing follows. Only a marked section with an unknown keyword is
rejected.
-/

namespace WebAudit.Markup

structure Tag where
  name : String
  /-- Each name once; of two values for one name the last counts. -/
  attributes : List (String × String) := []
  line : Nat := 1
  /-- The number of characters in front of the tag. -/
  offset : Nat := 0
deriving DecidableEq, Repr, Inhabited

inductive Event where
  | opened (tag : Tag) (selfClosing : Bool)
  | closed (name : String)
  | text (cs : List Char)
  /-- A section of literal text. -/
  | section (cs : List Char)
  /-- A comment, a declaration or a processing instruction. -/
  | hidden
deriving DecidableEq, Repr, Inhabited

/-- Why a page cannot be read. -/
inductive Rejection where
  | unknownKeyword (keyword : String)
  | expectedName (near : String)
deriving DecidableEq, Repr, Inhabited

namespace Rejection

def cause : Rejection → String
  | unknownKeyword keyword => "unknown status keyword " ++ Text.quote keyword ++ " in marked section"
  | expectedName near => "expected name token at " ++ Text.quote near

def message (r : Rejection) : String :=
  "The markup you provided was rejected by the parser. Trying a different parser or a different " ++
  "encoding may help.\n\nOriginal exception(s) from parser:\n AssertionError: " ++ r.cause

end Rejection

/-! ## Places -/

structure Place where
  offset : Nat := 0
  line : Nat := 1
deriving DecidableEq, Repr, Inhabited

def Place.after (p : Place) (cs : List Char) : Place :=
  ⟨p.offset + cs.length, p.line + Text.newlines cs⟩

/-! ## Start tags -/

def isTagNameChar (c : Char) : Bool :=
  !(c == '\t' || c == '\n' || c == '\r' || c == '\x0c' || c == ' ' || c == '/' || c == '>' ||
    c == '\x00')

/-- The length of a run of blanks and of slashes that close no tag. -/
def fillerLength : List Char → Nat
  | '/' :: '>' :: _ => 0
  | c :: cs => if c == '/' || Text.isBlank c then fillerLength cs + 1 else 0
  | [] => 0

def startsAttribute (before : Char) : Bool :=
  before == '\'' || before == '"' || before == '/' || Text.isBlank before

/-- The value of an attribute, the character before what follows it, and the length of both from the
end of the name on. -/
structure AttributeValue where
  value : List Char := []
  last : Char
  length : Nat
deriving Inhabited

/-- A value in quotation marks after `skipped` characters. -/
def quotedValue (skipped : Nat) (mark : Char) (cs : List Char) : Option AttributeValue :=
  match cs with
  | c :: body =>
    let value := body.takeWhile (· != mark)
    if c == mark && !(body.drop value.length).isEmpty then
      some ⟨value, mark, skipped + value.length + 2⟩
    else none
  | [] => none

/-- A value without quotation marks after `skipped` characters. -/
def bareValue (skipped : Nat) (cs : List Char) : AttributeValue :=
  let value := cs.takeWhile fun c => c != '>' && !Text.isBlank c
  ⟨value, value.getLastD '=', skipped + value.length⟩

/-- The value after the name of an attribute. A quotation mark that is never closed starts no value. -/
def attributeValue (cs : List Char) : Option AttributeValue :=
  let blanks := (cs.takeWhile Text.isBlank).length
  let signs := ((cs.drop blanks).takeWhile (· == '=')).length
  let after := cs.drop (blanks + signs)
  let blanks' := (after.takeWhile Text.isBlank).length
  let body := after.drop blanks'
  let skipped := blanks + signs + blanks'
  if signs = 0 then none
  else
    match quotedValue skipped '\'' body <|> quotedValue skipped '"' body with
    | some found => some found
    | none =>
      if body.head? == some '\'' || body.head? == some '"' then
        if 0 < blanks' then some ⟨[], ' ', skipped⟩
        else if 1 < signs then some (bareValue (skipped - 1) ('=' :: body))
        else none
      else some (bareValue skipped body)

/-- The attributes from a place on, given the character before it: names with their values, and the
length of all of them. -/
def attributesFrom : Nat → Char → List Char → List (String × String) × Nat
  | 0, _, _ => ([], 0)
  | _, _, [] => ([], 0)
  | fuel + 1, before, c :: cs =>
    if startsAttribute before && !(Text.isBlank c || c == '/' || c == '>') then
      let tail := cs.takeWhile fun c => !(Text.isBlank c || c == '/' || c == '=' || c == '>')
      let name := c :: tail
      let afterName := cs.drop tail.length
      let found := (attributeValue afterName).getD ⟨[], name.getLastD c, 0⟩
      let after := afterName.drop found.length
      let filler := fillerLength after
      let last := if filler = 0 then found.last else ' '
      let (more, length) := attributesFrom fuel last (after.drop filler)
      ((Text.lower (String.ofList name), String.ofList (resolve found.value)) :: more,
        name.length + found.length + filler + length)
    else ([], 0)

/-- Attributes as a mapping: the first place, the last value. -/
def distinctAttributes (attributes : List (String × String)) : List (String × String) :=
  attributes.foldl (fun done (name, value) =>
    if done.any (·.1 == name) then done.map fun (n, v) => if n == name then (n, value) else (n, v)
    else done ++ [(name, value)]) []

inductive TagStart where
  | tag (name : String) (attributes : List (String × String)) (selfClosing : Bool) (length : Nat)
  /-- Characters that look like a tag but are text. -/
  | text (length : Nat)
  | unfinished
deriving Inhabited

def startTag (cs : List Char) : TagStart :=
  let name := (cs.drop 1).takeWhile isTagNameChar
  let afterName := cs.drop (1 + name.length)
  let filler := afterName.takeWhile fun c => c == '/' || Text.isBlank c
  let body := afterName.drop filler.length
  let start := 1 + name.length + filler.length
  let word := Text.lower (String.ofList name)
  if body.head? == some '>' then
    .tag word [] (fillerLength afterName < filler.length) (start + 1)
  else
    let before := filler.getLastD (name.getLastD '<')
    let (attributes, length) := attributesFrom body.length before body
    let attributes := distinctAttributes attributes
    match body.drop length with
    | [] => .unfinished
    | '>' :: _ => .tag word attributes false (start + length + 1)
    | '/' :: '>' :: _ => .tag word attributes true (start + length + 2)
    | c :: _ => if c.isAlpha || c == '=' || c == '/' then .unfinished else .text (start + length)

/-! ## End tags and other constructs -/

/-- The number of characters up to and with the first occurrence of a character. -/
def through (c : Char) (cs : List Char) : Option Nat :=
  let before := (cs.takeWhile (· != c)).length
  if before < cs.length then some (before + 1) else none

def isEndNameChar (c : Char) : Bool :=
  c.isAlphanum || c == '-' || c == '.' || c == ':' || c == '_'

def plainEnd (cs : List Char) : Option String :=
  match cs with
  | '<' :: '/' :: rest =>
    let body := rest.dropWhile Text.isBlank
    let name := body.takeWhile isEndNameChar
    let after := (body.drop name.length).dropWhile Text.isBlank
    if (name.head?.any Char.isAlpha) && after.head? == some '>' then
      some (Text.lower (String.ofList name))
    else none
  | _ => none

/-- What a step of the reader found: events, how many characters they take, and whether the reader
goes on. The mode is the name of the element whose raw text follows. -/
structure Step where
  events : List Event := []
  length : Nat := 0
  goesOn : Bool := true
  mode : Option String := none
deriving Inhabited

def Step.wait (mode : Option String := none) : Step := { goesOn := false, mode }

def Step.take (events : List Event) (length : Nat) (mode : Option String := none) : Step :=
  { events, length, mode }

/-- An end tag, or what looks like one; `none` if it is unfinished. -/
def endTag (mode : Option String) (cs : List Char) : Option Step :=
  match through '>' (cs.drop 1) with
  | none => none
  | some n =>
    let length := n + 1
    match plainEnd cs with
    | some name =>
      if mode.any (· != name) then some (.take [.text (cs.take length)] length mode)
      else some (.take [.closed name] length)
    | none =>
      if mode.isSome then some (.take [.text (cs.take length)] length mode)
      else
        let body := cs.drop 2
        let name := body.takeWhile isTagNameChar
        if name.head?.any Char.isAlpha then
          let skipped := name.length + fillerLength (body.drop name.length)
          let length := 2 + skipped + (through '>' (body.drop skipped)).getD 0
          some (.take [.closed (Text.lower (String.ofList name))] length)
        else if body.head? == some '>' then some (.take [] 3)
        else some (.take [.hidden] length)

/-- The length of a comment from its first dash on: it ends with two dashes, blanks and `>`. -/
def commentLength : List Char → Option Nat
  | [] => none
  | c :: cs =>
    let close := match c, cs with
      | '-', '-' :: rest =>
        let blanks := (rest.takeWhile Text.isBlank).length
        if (rest.drop blanks).head? == some '>' then some (blanks + 3) else none
      | _, _ => none
    close <|> (commentLength cs).map (· + 1)

/-- The end of a marked section: brackets and `>` with blanks between. -/
def closesSection : Nat → List Char → Option Nat
  | 0, cs => if cs.head? == some '>' then some 1 else none
  | brackets + 1, cs =>
    match cs with
    | ']' :: rest =>
      let blanks := (rest.takeWhile Text.isBlank).length
      (closesSection brackets (rest.drop blanks)).map (· + 1 + blanks)
    | _ => none

/-- The text in front of the end of a marked section, and the length of both. -/
def sectionBody (brackets : Nat) : List Char → Option (List Char × Nat)
  | [] => none
  | c :: cs =>
    match closesSection brackets (c :: cs) with
    | some n => some ([], n)
    | none => (sectionBody brackets cs).map fun (body, n) => (c :: body, n + 1)

def isKeywordChar (c : Char) : Bool :=
  c.isAlphanum || c == '-' || c == '_' || c == '.'

/-- A marked section; `none` if it is unfinished. -/
def markedSection (cs : List Char) : Except Rejection (Option Step) :=
  let body := cs.drop 3
  let keyword := body.takeWhile isKeywordChar
  let blanks := (body.drop keyword.length).takeWhile Text.isBlank
  if body.isEmpty then .ok none
  else if !(keyword.head?.any Char.isAlpha) then
    .error (.expectedName (String.ofList (cs.take 20)))
  else if (body.drop (keyword.length + blanks.length)).isEmpty then .ok none
  else
    let word := Text.lower (String.ofList keyword)
    let brackets? :=
      if ["temp", "cdata", "ignore", "include", "rcdata"].contains word then some 2
      else if ["if", "else", "endif"].contains word then some 1
      else none
    match brackets? with
    | none => .error (.unknownKeyword (String.ofList (keyword ++ blanks)))
    | some brackets =>
      match sectionBody brackets body with
      | none => .ok none
      | some (inner, n) =>
        let mark := ['c', 'd', 'a', 't', 'a', '[']
        let event :=
          if mark.isPrefixOf (Text.lowerChars inner) then Event.section (inner.drop mark.length)
          else .hidden
        .ok (some (.take [event] (n + 3)))

/-- A declaration or a comment of any kind; `none` if it is unfinished. -/
def declaration (cs : List Char) : Except Rejection (Option Step) :=
  if ['<', '!', '-', '-'].isPrefixOf cs then
    .ok ((commentLength (cs.drop 4)).map fun n => .take [.hidden] (n + 4))
  else if ['<', '!', '['].isPrefixOf cs then markedSection cs
  else
    let doctype := Text.lowerChars (cs.take 9) == "<!doctype".toList
    let start := if doctype then 9 else 2
    .ok ((through '>' (cs.drop start)).map fun n => .take [.hidden] (n + start))

/-! ## References in text -/

/-- The length of a reference, which includes the semicolon but no other character after it. -/
def withEnd (length : Nat) (cs : List Char) : Nat :=
  length + semicolon (cs.drop length)

/-- A numeric reference in text, which needs a character after its digits. -/
def textNumber (cs : List Char) : Option Step :=
  let rest := cs.drop 2
  let hex := rest.head? == some 'x' || rest.head? == some 'X'
  let digits := if hex then (rest.drop 1).takeWhile isHex else rest.takeWhile Char.isDigit
  let length := 2 + (if hex then 1 else 0) + digits.length
  match cs.drop length with
  | next :: _ =>
    if digits.isEmpty || isHex next then none
    else
      let n := numberOf (if hex then 16 else 10) digits
      some (.take [.text [ofTextNumber n]] (withEnd length cs))
  | [] => none

def isEntityChar (c : Char) : Bool :=
  c.isAlphanum || c == '-' || c == '.'

/-- The name of a reference in text, which needs a character after it. -/
def textName (cs : List Char) : Option (List Char) :=
  let name := (cs.drop 1).takeWhile isEntityChar
  if !(name.head?.any Char.isAlpha) then none
  else if !(cs.drop (name.length + 1)).isEmpty then some name
  else
    let shorter := (name.reverse.dropWhile Char.isAlphanum).drop 1 |>.reverse
    if shorter.isEmpty then none else some shorter

/-- A reference in text. When nothing follows, a name of one letter loses its ampersand. -/
def textReference (final : Bool) (cs : List Char) : Step :=
  if ['&', '#'].isPrefixOf cs then
    match textNumber cs with
    | some step => step
    | none =>
      if cs.contains ';' then { events := [.text ['&', '#']], length := 2, goesOn := false }
      else .wait
  else
    match textName cs with
    | some name =>
      let found := (named? name).getD ('&' :: name)
      .take [.text found] (withEnd (name.length + 1) cs)
    | none =>
      match cs.drop 1 with
      | c :: rest =>
        if c.isAlpha then
          if final && rest.isEmpty then { length := 1, goesOn := false } else .wait
        else .take [.text ['&']] 1
      | [] => .wait

/-! ## Reading -/

/-- Whether a text starts with the end tag of an element, in any case. -/
def closesRaw (name : List Char) (cs : List Char) : Bool :=
  match cs with
  | '<' :: '/' :: rest =>
    match Text.dropWord name (rest.dropWhile Text.isBlank) with
    | some after => (after.dropWhile Text.isBlank).head? == some '>'
    | none => false
  | _ => false

/-- The raw text in front of the end tag of an element; `none` if the tag is missing. -/
def rawText (name : List Char) : List Char → Option (List Char)
  | [] => none
  | c :: cs => if closesRaw name (c :: cs) then some [] else (rawText name cs).map (c :: ·)

def rawElements : List String := ["script", "style"]

def openStep (place : Place) (cs : List Char) : Option Step :=
  match startTag cs with
  | .tag name attributes selfClosing length =>
    let mode := if !selfClosing && rawElements.contains name then some name else none
    some (.take [.opened ⟨name, attributes, place.line, place.offset⟩ selfClosing] length mode)
  | .text length => some (.take [.text (cs.take length)] length)
  | .unfinished => none

/-- An unfinished construct as text, when nothing follows: up to the next `>`, or else in front of the
next `<`, or else its first character alone. -/
def asText (mode : Option String) (cs : List Char) : Step :=
  let length := match through '>' (cs.drop 1), through '<' (cs.drop 1) with
    | some n, _ => n + 1
    | none, some n => n
    | none, none => 1
  .take [.text (cs.take length)] length mode

def markupStep (final : Bool) (mode : Option String) (place : Place) (cs : List Char) :
    Except Rejection Step := do
  let finish (found : Option Step) : Step :=
    match found with
    | some step => step
    | none => if final then asText mode cs else .wait mode
  match cs with
  | '<' :: c :: _ =>
    if c.isAlpha then return finish (openStep place cs)
    else if c == '/' then return finish (endTag mode cs)
    else if c == '!' then return finish (← declaration cs)
    else if c == '?' then
      return finish ((through '>' (cs.drop 2)).map fun n => .take [.hidden] (n + 2))
    else return .take [.text ['<']] 1
  | _ => return .wait mode

def step (final : Bool) (mode : Option String) (place : Place) (cs : List Char) :
    Except Rejection Step :=
  match mode with
  | some name =>
    match rawText name.toList cs with
    | none => .ok (.wait mode)
    | some [] => markupStep final mode place cs
    | some raw => .ok (.take [.text raw] raw.length mode)
  | none =>
    match cs with
    | '<' :: _ => markupStep final mode place cs
    | '&' :: _ => .ok (textReference final cs)
    | _ =>
      let run := cs.takeWhile fun c => c != '<' && c != '&'
      .ok (.take [.text run] run.length)

/-- What the reader found, and where it stopped. -/
structure Reading where
  events : List Event := []
  mode : Option String := none
  place : Place := {}
  rest : List Char := []
deriving Inhabited

/-- Reads steps until one does not go on or the text ends. -/
def readFrom : Nat → Bool → Option String → Place → List Char → Except Rejection Reading
  | 0, _, mode, place, cs => .ok { mode, place, rest := cs }
  | fuel + 1, final, mode, place, cs => do
    if cs.isEmpty then return { mode, place, rest := [] }
    let found ← step final mode place cs
    let place := place.after (cs.take found.length)
    let cs := cs.drop found.length
    if found.goesOn then
      let more ← readFrom fuel final found.mode place cs
      return { more with events := found.events ++ more.events }
    else return { events := found.events, mode := found.mode, place, rest := cs }

/-- The events of a page. It is read as far as possible, then what is left is read as the end; what
even then is left over is text, except inside an element with raw text. -/
def events (source : List Char) : Except Rejection (List Event) := do
  let first ← readFrom (source.length + 1) false none {} source
  let last ← readFrom (first.rest.length + 1) true first.mode first.place first.rest
  let left := if last.mode.isNone && !last.rest.isEmpty then [Event.text last.rest] else []
  return first.events ++ last.events ++ left

end WebAudit.Markup
