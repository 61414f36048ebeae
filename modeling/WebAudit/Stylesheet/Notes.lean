import WebAudit.Stylesheet.Token

/-!
# Messages and runs of tokens

What cannot be read is left out of a stylesheet and a message is noted; in a few places reading breaks
off. `Run` cuts tokens at the end of the construct they belong to, counting what is open between.
-/

namespace WebAudit.Stylesheet

/-- Why reading a stylesheet breaks off. -/
inductive Breakdown where
  /-- A colour is made of this many parts instead of four. -/
  | fewColorParts (count : Nat)
  /-- A colour given by hue lacks one of its three parts. -/
  | noColorPart
  /-- The name of a character set is looked for at the end of the text. -/
  | noCharsetName
  /-- A statement with a fixed place stands directly after a mark of an enclosing page. -/
  | noStage
  /-- A word with `@` stands where nothing else may follow. -/
  | strayAtWord
deriving DecidableEq, Repr, Inhabited

def Breakdown.message : Breakdown → String
  | fewColorParts count =>
    "not enough values to unpack (expected 4, got " ++ toString count ++ ")"
  | noColorPart => "list index out of range"
  | noCharsetName => "string index out of range"
  | noStage => "'>' not supported between instances of 'NoneType' and 'int'"
  | strayAtWord => "'NoneType' object does not support item assignment"

/-- A computation that notes messages and may break off. -/
abbrev Noted := StateT (List String) (Except Breakdown)

def breakOff {α : Type} (cause : Breakdown) : Noted α :=
  throw cause

def note (message : String) : Noted Unit :=
  modify (· ++ [message])

def noteAt (message : String) (t : Token) : Noted Unit :=
  note (message ++ " [" ++ toString t.line ++ ":" ++ toString t.column ++ ": " ++ t.text ++ "]")

def noteStray (t : Token) : Noted Unit :=
  note ("Unexpected token (" ++ t.kind.name ++ ", " ++ t.text ++ ", " ++ toString t.line ++ ", " ++
    toString t.column ++ ")")

/-- Where a run of tokens ends, and what counts as open when it begins. -/
structure Run where
  ends : List Char
  braces : Int := 0
  brackets : Int := 0
  parens : Int := 0
  /-- A string also ends the run, while this many braces are open. -/
  stringEnds : Option Int := none
deriving DecidableEq, Repr, Inhabited

namespace Run

def statement : Run := { ends := [';', '}'] }

def head : Run := { ends := ['{'], braces := -1 }

def mediaHead : Run := { ends := ['{'], braces := -1, stringEnds := some (-1) }

def block : Run := { ends := ['}'], braces := 1 }

def toSemicolon : Run := { ends := [';'] }

def importQueries : Run := { ends := [';'], stringEnds := some 0 }

def propertyName : Run := { ends := [':', ';'] }

def propertyValue : Run := { ends := [';', '!'] }

def listItem : Run := { ends := [','] }

def count (r : Run) (t : Token) : Run :=
  if t.isChar '{' then { r with braces := r.braces + 1 }
  else if t.isChar '}' then { r with braces := r.braces - 1 }
  else if t.isChar '[' then { r with brackets := r.brackets + 1 }
  else if t.isChar ']' then { r with brackets := r.brackets - 1 }
  else if t.isChar '(' || t.kind == .function then { r with parens := r.parens + 1 }
  else if t.isChar ')' then { r with parens := r.parens - 1 }
  else r

def endsWith (r : Run) (t : Token) : Bool :=
  t.kind == .eof ||
  (r.braces == 0 && r.brackets == 0 && r.parens == 0 && r.ends.any t.isChar) ||
  (r.stringEnds == some r.braces && r.brackets == 0 && r.parens == 0 && t.kind == .string)

def split (r : Run) : List Token → List Token × List Token
  | [] => ([], [])
  | t :: ts =>
    let r := r.count t
    if r.endsWith t then ([t], ts)
    else
      let (run, rest) := r.split ts
      (t :: run, rest)

def splitFrom (r : Run) (t : Token) (ts : List Token) : List Token × List Token :=
  let r := if t.isChar '{' || t.isChar '[' || t.isChar '(' then r.count t else r
  let (run, rest) := r.split ts
  (t :: run, rest)

end Run

def splitLast : List Token → List Token × Option Token
  | [] => ([], none)
  | [t] => ([], some t)
  | t :: ts =>
    let (front, last) := splitLast ts
    (t :: front, last)

end WebAudit.Stylesheet
