import WebAudit.Stylesheet.Construct
import WebAudit.Stylesheet.Setting
import WebAudit.Text.Slice

/-!
# Values of declarations

A value is a row of terms with commas, slashes or blanks between them. It is read along its grammar
and written back in one normal spelling: one blank between terms, a blank after a comma and none
beside a slash.
-/

namespace WebAudit.Stylesheet

/-! ## Items -/

inductive ItemKind where
  | opening
  | word
  | mark
  | term
  | number
  | percentage
  | blank
  | comment
  /-- A media query, with its medium if it is nothing else. -/
  | query (medium : Option String)
deriving DecidableEq, Repr, Inhabited

/-- A part of a construct as it is written back. A construct inside that cannot be read leaves an
empty text. -/
structure Item where
  kind : ItemKind
  text : String
  wellFormed : Bool := true
deriving DecidableEq, Repr, Inhabited

namespace Item

def kept (t : Token) : Item :=
  match t.kind with
  | .function => ⟨.opening, t.text, true⟩
  | .ident => ⟨.word, t.text, true⟩
  | .space => ⟨.blank, t.text, true⟩
  | .number => ⟨.number, t.text, true⟩
  | .percentage => ⟨.percentage, t.text, true⟩
  | _ => ⟨.mark, t.text, true⟩

def spelled (t : Token) : Item :=
  match t.kind with
  | .number => ⟨.number, Stylesheet.spelled t, true⟩
  | .percentage => ⟨.percentage, Stylesheet.spelled t, true⟩
  | _ => ⟨.term, Stylesheet.spelled t, true⟩

def isComment (i : Item) : Bool := i.kind == .comment

end Item

/-! ## Writing -/

structure Layout where
  comments : Bool := true
  /-- A blank follows each item. -/
  loose : Bool := true
  /-- Signs stand between blanks. -/
  signs : Bool := false
deriving DecidableEq, Repr, Inhabited

def isBlankText (s : String) : Bool :=
  s.toList.all Text.isBlank

/-- Drops a blank at the end of what is written, latest first. -/
def dropBlank : List String → List String
  | s :: out => if isBlankText s then out else s :: out
  | [] => []

def tightMarks : List String :=
  ["+", ">", "~", ",", ":", "\x7b", ";", ")", "]", "/", "=", "\x7d"]

def closeMarks : List String := ["\x7d", "[", "]", "(", ")", "/", "="]

namespace Layout

/-- Writes an item behind others, latest first. -/
def put (l : Layout) (out : List String) (item : Item) : List String :=
  let text := item.text
  if text.isEmpty || item.kind == .blank || (item.isComment && !l.comments) then out
  else
    let sign := l.signs && ["+", "-", "*", "/"].contains text
    let out := if !sign && tightMarks.contains text then dropBlank out else out
    let out := if Text.endsWith text " " then dropBlank out else out
    if sign then " " :: text :: out
    else if ["+", ">", "~"].contains text then " " :: text :: " " :: out
    else if [")", ",", ":"].contains text then " " :: text :: out
    else if l.loose && item.kind != .opening && !closeMarks.contains text then " " :: text :: out
    else text :: out

def write (l : Layout) (items : List Item) : String :=
  String.join (dropBlank (items.foldl l.put [])).reverse

end Layout

def Construct.layout : Construct → Layout
  | .value => { comments := false }
  | .sum => { signs := true }
  | .free => { loose := false }
  | _ => {}

/-! ## Tokens to come -/

inductive Blanks where
  | plain
  /-- A blank in front of a comma, a slash or a comment is left out. -/
  | trimmed
  /-- The token behind a blank that was passed on. -/
  | paired
deriving DecidableEq, Repr, Inhabited

structure Stream where
  /-- A token that comes first and touches nothing else. -/
  held : Option Token := none
  tokens : List Token
  blanks : Blanks := .plain
deriving DecidableEq, Repr, Inhabited

namespace Stream

def swallows (t : Token) : Bool :=
  t.isChar ',' || t.isChar '/' || t.kind == .eof || t.kind == .comment

def next? (s : Stream) : Option (Token × Stream) :=
  match s.held with
  | some t => some (t, { s with held := none })
  | none =>
    match s.tokens with
    | [] => none
    | t :: ts =>
      match s.blanks with
      | .plain => some (t, { s with tokens := ts })
      | .paired => some (t, { s with tokens := ts, blanks := .trimmed })
      | .trimmed =>
        if t.kind == .space then
          match ts with
          | [] => some (t, { s with tokens := [] })
          | u :: us =>
            if swallows u then some (u, { s with tokens := us })
            else some (t, { s with tokens := ts, blanks := .paired })
        else if t.kind == .comment then some (t, { s with tokens := ts })
        else some (t, { s with tokens := ts, blanks := .plain })

def hold (s : Stream) (t : Token) : Stream := { s with held := some t }

def trim (s : Stream) : Stream := { s with blanks := .trimmed }

end Stream

/-! ## Reading -/

/-- The items of a construct in order. -/
structure Reading where
  items : List Item := []
  wellFormed : Bool := true
deriving DecidableEq, Repr, Inhabited

/-- How far the reading of a construct has come. -/
structure Progress where
  stack : List Frame
  /-- Latest first. -/
  items : List Item := []
  last : Option Word := none
  /-- Blanks are passed over. -/
  passing : Bool := true
  /-- A token that does not fit ends the construct. -/
  yielding : Bool := false
  wellFormed : Bool := true
  /-- Nothing is missed at the end. -/
  closed : Bool := false

namespace Progress

def start (c : Construct) : Progress where
  stack := (Frame.enter? c.grammar).toList

def put (p : Progress) (item : Item) : Progress :=
  { p with items := item :: p.items }

def finish (p : Progress) (c : Construct) : Noted Reading := do
  let messages := if p.closed then [] else missed p.last p.stack
  messages.forM fun message => note (c.name ++ ": " ++ message)
  if p.items.isEmpty && c != .declarations then
    note "No content to parse."
    pure { wellFormed := false }
  else pure ⟨p.items.reverse, p.wellFormed && messages.isEmpty⟩

end Progress

/-- The parts that colours are made of, as a message shows them. -/
def colorParts (items : List Item) : String :=
  String.ofList (items.filterMap fun i =>
    match i.kind with
    | .number => some 'N'
    | .percentage => some 'P'
    | _ => none)

def knownColorParts (function : String) : List String :=
  match function with
  | "rgb(" => ["NNN", "PPP"]
  | "rgba(" => ["NNNN", "PPPN"]
  | "hsl(" => ["NPP"]
  | "hsla(" => ["NPPN"]
  | _ => []

/-- Checks the parts of a colour. A colour lacks at most the part that tells how much shows
through. -/
def checkColor (items : List Item) : Noted Unit := do
  let function := normalWord ((items.head?.map (·.text)).getD "")
  let parts := colorParts items
  let byHue := function == "hsl(" || function == "hsla("
  if byHue && parts.length < 3 then breakOff .noColorPart
  if !(knownColorParts function).contains parts then
    note ("ColorValue has invalid " ++ function ++ ") parameters: " ++ parts ++
      " (N=Number, P=Percentage)")
  if !byHue && parts.length < 3 then breakOff (.fewColorParts (parts.length + 1))

/-- A number whose sign may stand apart; a sign of its own counts. -/
def signedItem (items : List Item) : Item :=
  match items.filter (!·.isComment) with
  | [sign, number] =>
    let signed := Text.startsWith number.text "+" || Text.startsWith number.text "-"
    { number with text := dimensionText (if signed then number.text else sign.text ++ number.text) }
  | [number] => { number with text := dimensionText number.text }
  | _ => ⟨.term, "", false⟩

def variableText (setting : Setting) (items : List Item) : String :=
  match items.filter (!·.isComment) with
  | _ :: name :: rest =>
    match setting.value? name.text with
    | some value => value
    | none =>
      let fallback := match rest with
        | comma :: item :: _ => if comma.text == "," then ", " ++ item.text else ""
        | _ => ""
      "var(" ++ name.text ++ fallback ++ ")"
  | _ => ""

def mediumOf (items : List Item) : Option String :=
  match items.filter (!·.isComment) with
  | [item] => some item.text
  | _ => none

def itemOf (setting : Setting) (c : Construct) (r : Reading) : Noted Item := do
  if !r.wellFormed then
    pure ⟨if c == .query then .query none else .term, "", false⟩
  else
    let text := c.layout.write r.items
    match c with
    | .color => do
      checkColor r.items
      let name := ((r.items.head?).map (·.text)).getD ""
      pure ⟨.term, normalWord name ++ String.ofList (text.toList.drop name.length), true⟩
    | .signed => pure (signedItem r.items)
    | .variable => pure ⟨.term, variableText setting r.items, true⟩
    | .query => pure ⟨.query (mediumOf r.items), text, true⟩
    | _ => pure ⟨.term, text, true⟩

/-- Reads a construct as far as it goes, and the tokens after it. -/
def readConstruct (setting : Setting) : Nat → Construct → Progress → Stream → Noted (Reading × Stream)
  | 0, c, p, s => do pure (← p.finish c, s)
  | fuel + 1, c, p, s =>
    match s.next? with
    | none => do pure (← p.finish c, s)
    | some (t, s) =>
      if t.kind == .comment then readConstruct setting fuel c (p.put ⟨.comment, t.text, true⟩) s
      else if t.kind == .space && p.passing && c != .sum then readConstruct setting fuel c p s
      else if t.kind == .invalid then do
        note ("Invalid token: " ++ t.shown)
        pure (← { p with wellFormed := false }.finish c, s)
      else if t.kind == .eof then readConstruct setting fuel c { p with closed := true } s
      else
        match walk t false p.stack with
        | .missing g left stack =>
          if p.yielding then do pure (← { p with closed := true }.finish c, s)
          else do
            note (c.name ++ ": Missing token for production " ++ g.name ++ ": " ++ t.shown)
            let last := if left then none else p.last
            pure (← { p with stack, last, wellFormed := false }.finish c, s)
        | .unmatched stack =>
          if p.yielding then do pure (← { p with closed := true }.finish c, s.hold t)
          else do
            note (c.name ++ ": No match: " ++ t.shown)
            pure (← { p with stack, last := none, wellFormed := false }.finish c, s)
        | .word w stack => do
          let p := { p with stack, last := some w }
          let (p, s) ← match w.use t with
            | .keep => pure (if w.ending == .refuse then p else p.put (.kept t), s)
            | .spell => pure (p.put (.spelled t), s)
            | .drop => pure (p, s)
            | .enter inner => do
              let (r, s) ← readConstruct setting fuel inner (.start inner) (s.hold t)
              pure (p.put (← itemOf setting inner r), s)
          match w.ending with
          | .stop => do pure (← p.finish c, s)
          | .refuse => do pure (← { p with closed := true }.finish c, s)
          | ending =>
            let p := { p with yielding := p.yielding || ending == .yield, passing := !w.blanksCount }
            readConstruct setting fuel c p (if w.blanksCount then s.trim else s)

def readWhole (setting : Setting) (c : Construct) (ts : List Token) : Noted Reading := do
  let (r, _) ← readConstruct setting (2 * ts.length + 2) c (.start c) { tokens := ts }
  pure r

/-- The value in its normal spelling, if it is well formed. -/
def readValue (setting : Setting) (ts : List Token) : Noted (Option String) := do
  let r ← readWhole setting .value ts
  if r.wellFormed && r.items.any (!·.isComment) && r.items.all (·.wellFormed) then
    pure (some (Construct.value.layout.write r.items))
  else
    note ("PropertyValue: Unknown syntax or no value: " ++ Token.textOf ts)
    pure none

end WebAudit.Stylesheet
