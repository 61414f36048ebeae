import WebAudit.Script.Grammar.TypeSyntax

/-!
# Functions and classes
-/

namespace WebAudit.Script.Grammar

open Reader

/-- `@name`, `@name.member`, `@name(arguments)` or `@(expression)`. -/
def decorator (g : Grammar) : Reader Unit :=
  node .decorator do
    tok "@"
    if ← at? "(" then
      node .parenthesized do
        tok "("
        g (.expressions {})
        tok ")"
    else
      let m ← mark
      identifier
      loop do
        match ← ahead with
        | '.' :: _ =>
          asRole .object
          tok "."
          role .property (anyWord .propertyName)
          reduceFrom m .member
          return true
        | _ => return false
      let typeArgs ← typed
      if (← at? "(") || (typeArgs && (← at? "<")) then
        asRole .callee
        if ← at? "<" then typeArguments g
        role .arguments (g .arguments)
        reduceFrom m .call

def decorators (g : Grammar) : Reader Unit :=
  loop do
    if ← at? "@" then
      decorator g
      return true
    return false

/-! ## Parameters -/

def typedParameter (g : Grammar) : Reader Unit := do
  let m ← mark
  decorators g
  loop do
    let cs ← afterWord
    if ["public", "private", "protected", "override", "readonly"].contains (← wordAhead) &&
        (atName cs || atDestructuring cs) then
      anyWord .modifier
      return true
    return false
  if ← at? "..." then restPattern g
  else if (← wordAhead) == "this" then anyWord .this
  else g .target
  let optional ← tok? "?"
  optAscription g
  if atAssign (← ahead) then
    tok "="
    value g
  reduceFrom m (if optional then .optionalParameter else .requiredParameter)

def parameters (g : Grammar) : Reader Unit := do
  let typed ← typed
  node .formalParameters do
    tok "("
    commaList ")" false do
      if typed then typedParameter g
      else if ← at? "..." then restPattern g
      else patternWithDefault g
    tok ")"

/-- The parameters of a function, with types where the language has them. -/
def signature (g : Grammar) : Reader Unit := do
  if ← typed then typedSignature g else role .parameters (g .parameters)

/-! ## Functions -/

/-- A function that starts with its keyword. Declared functions have a name, and typed ones may lack
the body. -/
def function (g : Grammar) (declared : Bool) : Reader Unit := do
  let m ← mark
  opt "async"
  tok "function"
  let generator ← tok? "*"
  if declared || !((← at? "(") || (← at? "<")) then role .name identifier
  signature g
  if declared && (← typed) && !(← at? openBrace) then
    semicolon
    reduceFrom m .functionSignature
  else
    role .body (g .block)
    reduceFrom m <| match declared, generator with
      | true, true => .generatorDeclaration
      | true, false => .functionDeclaration
      | false, true => .generatorFunction
      | false, false => .functionExpression

/-- Whether a function starts here, with or without `async`. -/
def atFunction : Reader Bool := do
  match ← wordAhead with
  | "function" => return true
  | "async" => return (tokenRest "function" (← afterWord)).isSome && !(← breakAfterWord)
  | _ => return false

/-! ## Classes -/

def heritage (g : Grammar) : Reader Unit := do
  if ← typed then
    let bases : Reader Unit := do
      let m ← mark
      g (.expression {} Level.unary)
      if ← at? "<" then
        let called ← looking do
          typeArguments g
          if !(← at? "(") then abandon
        if called then asRole .callee
        typeArguments g
        if called then
          role .arguments (g .arguments)
          reduceFrom m .call
    let extends? := (← wordAhead) == "extends"
    if extends? || (← wordAhead) == "implements" then
      node .classHeritage do
        if extends? then
          tok "extends"
          bases
          loop do
            if ← tok? "," then
              bases
              return true
            return false
        if (← wordAhead) == "implements" then
          tok "implements"
          g .type
          loop do
            if ← tok? "," then
              g .type
              return true
            return false
  else if (← wordAhead) == "extends" then
    node .classHeritage do
      tok "extends"
      value g

/-- `class`, its name, type parameters, heritage and body. -/
def classRest (g : Grammar) : Reader Unit := do
  tok "class"
  let word ← wordAhead
  if word != "" && word != "extends" && word != "implements" then role .name identifier
  if ← at? "<" then typeParameters g
  heritage g
  role .body (g .classBody)

def staticBlock (g : Grammar) : Reader Unit :=
  node .staticBlock do
    tok "static"
    role .body (g .block)

def initializer (g : Grammar) : Reader Unit := do
  if atAssign (← ahead) then
    tok "="
    value g

/-- Reads the modifiers of a member and tells whether `abstract` was among them. -/
def memberModifiers (words : List String) : Nat → Bool → Reader Bool
  | 0, abstract => pure abstract
  | fuel + 1, abstract => do
    if ← modifies words then
      let word ← wordAhead
      tok word
      memberModifiers words fuel (abstract || word == "abstract")
    else return abstract

def classMember (g : Grammar) : Reader Unit := do
  let typed ← typed
  if (← wordAhead) == "static" && (← afterWord).head? == some '{' then staticBlock g
  else if typed && (← atIndexSignature) then
    indexSignature g
    semicolon
  else
    if typed then decorators g
    let m ← mark
    if !typed then decorators g
    let words := if typed then
        ["public", "private", "protected", "static", "override", "readonly", "abstract", "declare",
         "accessor", "async", "get", "set"]
      else ["static", "async", "get", "set"]
    let abstract ← memberModifiers words 16 false
    opt "*"
    role .name (propertyName g)
    if typed then
      opt "?"
      opt "!"
    if (← at? "(") || (typed && (← at? "<")) then
      signature g
      if typed && !(← at? openBrace) then
        reduceFrom m (if abstract then .abstractMethod else .methodSignature)
        if !(← tok? ",") then semicolon
      else
        role .body (g .block)
        reduceFrom m .method
        opt ";"
    else
      if typed then optAscription g
      initializer g
      reduceFrom m .field
      if !(← attemptIf typed (tok ",")) then semicolon

def classBody (g : Grammar) : Reader Unit :=
  node .classBody do
    tok openBrace
    itemsUntil closeBrace do
      if !(← tok? ";") then classMember g
    tok closeBrace

end WebAudit.Script.Grammar
