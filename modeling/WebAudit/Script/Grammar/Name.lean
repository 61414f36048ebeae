import WebAudit.Script.Grammar.Goal

/-!
# Names and literals
-/

namespace WebAudit.Script.Grammar

open Reader

def reserved : List String :=
  ["break", "case", "catch", "class", "const", "continue", "debugger", "default", "delete", "do",
   "else", "export", "extends", "false", "finally", "for", "function", "if", "import", "in",
   "instanceof", "new", "null", "return", "super", "switch", "this", "throw", "true", "try",
   "typeof", "var", "void", "while", "with"]

def nameSplit (cs : List Char) : Lexeme.Split :=
  match Lexeme.name cs with
  | some (w, rest) => if reserved.contains (String.ofList w) then none else some (w, rest)
  | none => none

instance : Lexeme.Exact nameSplit where
  append_eq {cs text rest} h := by
    unfold nameSplit at h
    split at h
    · rename_i hName
      split at h
      · cases h
      · cases h
        exact Lexeme.Exact.append_eq hName
    · cases h

def identifier : Reader Unit :=
  piece .identifier nameSplit

def anyWord (kind : Kind) : Reader Unit :=
  piece kind Lexeme.name

def privateName : Reader Unit :=
  piece .privateName Lexeme.privateName

def number : Reader Unit :=
  piece .number Lexeme.number

def stringRest (quote : Char) : Reader Unit := do
  loop do
    match ← here with
    | [] => return false
    | c :: _ =>
      if c == quote then return false
      if c == '\\' then pieceHere .escapeSequence Lexeme.escape
      else pieceHere .stringFragment (Lexeme.stringFragment quote)
      return true
  tokHere (String.singleton quote)

def string : Reader Unit := do
  let quote := if (← ahead).head? == some '\'' then '\'' else '"'
  node .string do
    tok (String.singleton quote)
    stringRest quote

def atQuote (cs : List Char) : Bool :=
  cs.head? == some '\'' || cs.head? == some '"'

def template (g : Grammar) : Reader Unit :=
  node .template do
    tok "`"
    loop do
      match ← here with
      | '`' :: _ | [] => return false
      | '$' :: '{' :: _ =>
        node .templateSubstitution do
          tokHere openSubstitution
          g (.expressions {})
          tok closeBrace
        return true
      | '\\' :: _ =>
        pieceHere .escapeSequence Lexeme.escape
        return true
      | _ =>
        pieceHere .stringFragment (Lexeme.templateChars [])
        return true
    tokHere "`"

def regex : Reader Unit :=
  node .regex do
    tok "/"
    pieceHere .regexPattern Lexeme.pattern
    tokHere "/"
    if (← here).head?.any Char.isLower then
      pieceHere .regexFlags (Lexeme.span1 Char.isLower)

def computedName (g : Grammar) : Reader Unit :=
  node .computedName do
    tok "["
    value g
    tok "]"

def propertyName (g : Grammar) : Reader Unit := do
  match ← ahead with
  | '[' :: _ => computedName g
  | '#' :: _ => privateName
  | c :: cs =>
    if c == '\'' || c == '"' then string
    else if c.isDigit || (c == '.' && cs.head?.any Char.isDigit) then number
    else anyWord .propertyName
  | [] => anyWord .propertyName

def afterWord : Reader (List Char) :=
  observe fun set s =>
    let t := s.toToken set
    match Lexeme.name t.rest with
    | some (w, rest) => ({ t with rest, point := t.point.walk w, operand := true }.toToken set).rest
    | none => []

/-- Whether a line break stands between the next word and the token after it. -/
def breakAfterWord : Reader Bool :=
  observe fun set s =>
    let t := s.toToken set
    match Lexeme.name t.rest with
    | some (w, rest) =>
      let t := { t with rest, point := t.point.walk w, operand := true }
      (t.toToken set).point.row != t.point.row
    | none => false

def atArrow (cs : List Char) : Bool :=
  Lexeme.startsWith "=>" cs

/-- Whether text starts with the sign of a plain assignment. -/
def atAssign (cs : List Char) : Bool :=
  match cs with
  | '=' :: '=' :: _ | '=' :: '>' :: _ => false
  | '=' :: _ => true
  | _ => false

def atName (cs : List Char) : Bool :=
  (nameSplit cs).isSome

end WebAudit.Script.Grammar
