import WebAudit.Script.Grammar.Definition

/-!
# Elements

Markup inside a script: elements, their attributes and their children.
-/

namespace WebAudit.Script.Grammar

open Reader

def elementWord (kind : Kind) : Reader Unit :=
  piece kind Lexeme.elementName

/-- `name`, `name.member` or `namespace:name`. -/
def elementName : Reader Unit := do
  let m ← mark
  elementWord .identifier
  if ← at? ":" then
    tok ":"
    elementWord .identifier
    reduceFrom m .elementNamespace
  else
    loop do
      if ← at? "." then
        asRole .object
        tok "."
        role .property (anyWord .propertyName)
        reduceFrom m .member
        return true
      return false

def elementExpression (g : Grammar) : Reader Unit :=
  node .elementExpression do
    tok openBrace
    if ← at? "..." then
      node .spread do
        tok "..."
        value g
    else if !(← at? closeBrace) then g (.expressions {})
    tok closeBrace

/-- A quoted attribute value; character references part it. -/
def attributeString : Reader Unit := do
  let quote := if (← ahead).head? == some '\'' then '\'' else '"'
  node .string do
    tok (String.singleton quote)
    loop do
      match ← here with
      | [] => return false
      | c :: cs =>
        if c == quote then return false
        if (Lexeme.attributeText quote (c :: cs)).isSome then
          pieceHere .stringFragment (Lexeme.attributeText quote)
        else pieceHere .characterReference Lexeme.characterReference
        return true
    tokHere (String.singleton quote)

def elementAttribute (g : Grammar) : Reader Unit := do
  if ← at? openBrace then elementExpression g
  else
    node .elementAttribute do
      let m ← mark
      elementWord .propertyName
      if ← at? ":" then
        tok ":"
        elementWord .identifier
        reduceFrom m .elementNamespace
      if ← tok? "=" then
        match ← ahead with
        | '{' :: _ => elementExpression g
        | '<' :: _ => g .element
        | _ => attributeString

def closingElement : Reader Unit :=
  node .closingElement do
    tok "</"
    if !(← at? ">") then elementName
    tok ">"

def elementChildren (g : Grammar) : Reader Unit :=
  loop do
    if (Lexeme.elementText (← here)).isSome then
      pieceHere .elementText Lexeme.elementText
      return true
    match (← here).dropWhile Lexeme.isBlank with
    | '<' :: '/' :: _ | [] => return false
    | '<' :: _ => g .element; return true
    | '{' :: _ => elementExpression g; return true
    | _ => piece .characterReference Lexeme.characterReference; return true

/-- An element with its tags and children, or a tag that closes itself. -/
def element (g : Grammar) : Reader Unit := do
  let m ← mark
  tok "<"
  if ← tok? ">" then reduceFrom m .openingElement
  else
    role .name elementName
    if (← typed) && (← at? "<") then typeArguments g
    loop do
      let cs ← ahead
      if cs.head? == some '>' || Lexeme.startsWith "/>" cs || cs.isEmpty then return false
      elementAttribute g
      return true
    if ← at? "/>" then
      tok "/>"
      reduceFrom m .selfClosingElement
      return ()
    tok ">"
    reduceFrom m .openingElement
  elementChildren g
  closingElement
  reduceFrom m .element

end WebAudit.Script.Grammar
