import WebAudit.Script.Grammar.Pattern

/-!
# Types
-/

namespace WebAudit.Script.Grammar

open Reader

def predefinedTypes : List String :=
  ["any", "number", "boolean", "string", "symbol", "void", "unknown", "never", "object"]

def ascription (g : Grammar) : Reader Unit :=
  node .ascription do
    tok ":"
    g .type

def optAscription (g : Grammar) : Reader Unit := do
  if ← at? ":" then ascription g

def typeArguments (g : Grammar) : Reader Unit :=
  node .typeArguments do
    tok "<"
    g .type
    loop do
      if !(← tok? ",") then return false
      if ← at? ">" then return false
      g .type
      return true
    tok ">"

def typeParameter (g : Grammar) : Reader Unit :=
  node .typeParameter do
    if (← wordAhead) == "const" then tok "const"
    anyWord .typeName
    if ← at? "extends" then
      node .constraint do
        tok "extends"
        g .type
    if atAssign (← ahead) then
      node .defaultType do
        tok "="
        g .type

/-- `<A, B extends C>` where types are declared. -/
def typeParameters (g : Grammar) : Reader Unit :=
  node .typeParameters do
    tok "<"
    typeParameter g
    loop do
      if !(← tok? ",") then return false
      if ← at? ">" then return false
      typeParameter g
      return true
    tok ">"

/-- The type that a function gives: a type, or what it asserts of a parameter. -/
def resultType (g : Grammar) : Reader Unit :=
  node .ascription do
    tok ":"
    let word ← wordAhead
    let after ← afterWord
    if word == "asserts" && (atName after || Lexeme.startsWith "this" after) then
      node .assertsType do
        tok "asserts"
        predicate
    else predicate
where
  predicate : Reader Unit := do
    let word ← wordAhead
    let after ← afterWord
    if word != "" && Lexeme.startsWith "is " after then
      node .typePredicate do
        anyWord .identifier
        tok "is"
        g .type
    else g .type

def optResultType (g : Grammar) : Reader Unit := do
  if ← at? ":" then resultType g

def typedSignature (g : Grammar) : Reader Unit := do
  if ← at? "<" then typeParameters g
  role .parameters (g .parameters)
  optResultType g

/-! ## Members of object types -/

/-- `[key: string]: T` or `[K in T]: U`. -/
def indexSignature (g : Grammar) : Reader Unit :=
  node .indexSignature do
    let sign := (← ahead).head?
    if sign == some '+' || sign == some '-' then
      tok (String.singleton (sign.getD '+'))
      tok "readonly"
    else if (← wordAhead) == "readonly" then tok "readonly"
    tok "["
    let after ← afterWord
    if Lexeme.startsWith "in " after then
      node .mappedClause do
        anyWord .typeName
        tok "in"
        g .type
        if (← wordAhead) == "as" then
          tok "as"
          g .type
    else
      identifier
      tok ":"
      g .type
    tok "]"
    loop do
      match ← ahead with
      | '+' :: '?' :: _ => tok "+"; return true
      | '-' :: '?' :: _ => tok "-"; return true
      | '?' :: _ => tok "?"; return true
      | _ => return false
    optAscription g

/-- Whether an index signature comes next rather than a computed name. -/
def atIndexSignature : Reader Bool := do
  let cs ← ahead
  match cs with
  | '+' :: _ | '-' :: _ => return true
  | '[' :: _ =>
    looking do
      tok "["
      anyWord .identifier
      if !(← at? ":") && !(← at? "in") then abandon
  | _ =>
    if (← wordAhead) == "readonly" && (← afterWord).head? == some '[' then
      looking do
        tok "readonly"
        tok "["
        anyWord .identifier
        if !(← at? ":") && !(← at? "in") then abandon
    else return false

/-- Whether the word that comes next modifies the name after it and is no name itself. -/
def modifies (words : List String) : Reader Bool := do
  if words.contains (← wordAhead) then
    match ← afterWord with
    | [] => return false
    | c :: cs =>
      return c == '[' || c == '#' || c == '\'' || c == '"' || c.isDigit || c == '*' ||
        c == '{' || (Lexeme.name (c :: cs)).isSome
  else return false

def typeMember (g : Grammar) : Reader Unit := do
  if ← atIndexSignature then indexSignature g
  else if (← at? "(") || (← at? "<") then node .callSignature (typedSignature g)
  else if (← wordAhead) == "new" && ((← afterWord).head? == some '(' || (← afterWord).head? == some '<') then
    node .constructSignature do
      tok "new"
      typedSignature g
  else
    let m ← mark
    loop do
      if ← modifies ["readonly", "get", "set", "async", "static", "public", "private", "protected",
          "override"] then
        anyWord .modifier
        return true
      return false
    role .name (propertyName g)
    opt "?"
    if (← at? "(") || (← at? "<") then
      typedSignature g
      reduceFrom m .methodSignature
    else
      optAscription g
      reduceFrom m .propertySignature

/-- Members between braces, each ended by a comma, a semicolon or a line break. -/
def typeMembers (g : Grammar) (kind : Kind) : Reader Unit :=
  node kind do
    tok openBrace
    loop do
      if ← at? closeBrace then return false
      if ← tok? "," then return true
      if ← tok? ";" then return true
      typeMember g
      if ← tok? "," then return true
      if ← at? closeBrace then return true
      semicolon
      return true
    tok closeBrace

/-! ## Types by form -/

def tupleMember (g : Grammar) : Reader Unit := do
  let m ← mark
  let dots ← tok? "..."
  let after ← afterWord
  let labelled := (← wordAhead) != "" &&
    (after.head? == some ':' || (after.head? == some '?' &&
      ((after.drop 1).dropWhile Lexeme.isBlank).head? == some ':'))
  if labelled then
    anyWord .identifier
    opt "?"
    ascription g
    reduceFrom m .tupleMember
  else
    g .type
    let marked ← tok? "?"
    if dots || marked then reduceFrom m .tupleMember

/-- The rest of a type query: names, calls and members. -/
def queryRest (g : Grammar) (m : Nat) : Reader Unit :=
  loop do
    match ← ahead with
    | '.' :: _ =>
      asRole .object
      tok "."
      if (← ahead).head? == some '#' then privateName else anyWord .propertyName
      asRole .property
      reduceFrom m .member
      return true
    | '<' :: _ =>
      if ← attempt (typeArguments g) then
        reduceFrom m .instantiation
        return true
      return false
    | _ => return false

def importType (g : Grammar) : Reader Unit := do
  let m ← mark
  role .callee (piece .importCallee (tokenSplit "import"))
  role .arguments (g .arguments)
  reduceFrom m .call
  queryRest g m

def typeQuery (g : Grammar) : Reader Unit :=
  node .typeQuery do
    tok "typeof"
    if (← wordAhead) == "import" then importType g
    else
      let m ← mark
      if (← wordAhead) == "this" then anyWord .this else identifier
      queryRest g m

def namedType (g : Grammar) : Reader Unit := do
  let m ← mark
  anyWord .typeName
  loop do
    match ← ahead with
    | '.' :: c :: _ =>
      if c == '.' then return false
      tok "."
      anyWord .typeName
      reduceFrom m .nestedType
      return true
    | _ => return false
  if ← attemptIf (← at? "<") (typeArguments g) then reduceFrom m .genericType

def templateType (g : Grammar) : Reader Unit :=
  node .templateType do
    tok "`"
    loop do
      match ← here with
      | '`' :: _ | [] => return false
      | '$' :: '{' :: _ =>
        tokHere openSubstitution
        g .type
        tok closeBrace
        return true
      | '\\' :: _ => pieceHere .escapeSequence Lexeme.escape; return true
      | _ => pieceHere .stringFragment (Lexeme.templateChars []); return true
    tokHere "`"

def primaryType (g : Grammar) : Reader Unit := do
  match ← ahead with
  | '(' :: _ =>
    node .parenthesizedType do
      tok "("
      g .type
      tok ")"
  | '{' :: _ => typeMembers g .objectType
  | '[' :: _ =>
    node .tupleType do
      tok "["
      commaList "]" false (tupleMember g)
      tok "]"
  | '`' :: _ => templateType g
  | '\'' :: _ | '"' :: _ => node .literalType string
  | '-' :: _ => node .literalType do tok "-"; number
  | '*' :: _ => tok "*"
  | c :: _ =>
    if c.isDigit then node .literalType number
    else
      let word ← wordAhead
      if word == "typeof" then typeQuery g
      else if word == "import" then importType g
      else if word == "this" then anyWord .thisType
      else if word == "unique" && (Lexeme.startsWith "symbol" (← afterWord)) then
        node .predefinedType do tok "unique"; tok "symbol"
      else if predefinedTypes.contains word then
        if (← afterWord).head? == some '.' then namedType g else anyWord .predefinedType
      else if ["true", "false", "null", "undefined"].contains word then
        node .literalType (anyWord .identifier)
      else if word == "const" then tok "const"
      else if reserved.contains word then piece .typeName nameSplit
      else namedType g
  | [] => piece .typeName nameSplit

/-- A primary type with array and member brackets after it. -/
def postfixType (g : Grammar) : Reader Unit := do
  let m ← mark
  primaryType g
  loop do
    if (← at? "[") && !(← breakAhead) then
      tok "["
      if ← tok? "]" then reduceFrom m .arrayType
      else
        g .type
        tok "]"
        reduceFrom m .lookupType
      return true
    return false

def prefixedType (g : Grammar) (depth : Nat) : Reader Unit :=
  match depth with
  | 0 => postfixType g
  | depth + 1 => do
    let word ← wordAhead
    let after ← afterWord
    let applied := match after with
      | [] => false
      | c :: _ => !(",;)]>\x7d=|&?:.<".toList.contains c)
    if word == "keyof" && applied then
      node .indexTypeQuery do tok "keyof"; prefixedType g depth
    else if word == "readonly" && applied then
      node .readonlyType do tok "readonly"; prefixedType g depth
    else if word == "infer" && applied then
      node .inferType do
        tok "infer"
        anyWord .typeName
        if (← wordAhead) == "extends" && !(← breakAhead) then
          tok "extends"
          g .type
    else postfixType g

def intersectionType (g : Grammar) : Reader Unit := do
  let m ← mark
  let led ← tok? "&"
  prefixedType g 32
  if led then reduceFrom m .intersectionType
  loop do
    if (← at? "&") && !(← at? "&&") then
      tok "&"
      prefixedType g 32
      reduceFrom m .intersectionType
      return true
    return false

def unionType (g : Grammar) : Reader Unit := do
  let m ← mark
  let led ← tok? "|"
  intersectionType g
  if led then reduceFrom m .unionType
  loop do
    if (← at? "|") && !(← at? "||") then
      tok "|"
      intersectionType g
      reduceFrom m .unionType
      return true
    return false

def functionType (g : Grammar) : Reader Unit :=
  node .functionType do
    if ← at? "<" then typeParameters g
    role .parameters (g .parameters)
    tok "=>"
    let word ← wordAhead
    let after ← afterWord
    if word == "asserts" && atName after then
      node .assertsType do
        tok "asserts"
        resultType.predicate g
    else resultType.predicate g

def constructorType (g : Grammar) : Reader Unit :=
  node .constructorType do
    if (← wordAhead) == "abstract" then tok "abstract"
    tok "new"
    if ← at? "<" then typeParameters g
    role .parameters (g .parameters)
    tok "=>"
    g .type

def type (g : Grammar) : Reader Unit := do
  let cs ← ahead
  let word ← wordAhead
  if word == "new" || (word == "abstract" && Lexeme.startsWith "new" (← afterWord)) then
    constructorType g
  else if cs.head? == some '<' then functionType g
  else if ← attemptIf (cs.head? == some '(') (functionType g) then return ()
  else
    let m ← mark
    unionType g
    if (← wordAhead) == "extends" && !(← breakAhead) then
      let conditional : Reader Unit := do
        tok "extends"
        g .type
        tok "?"
        g .type
        tok ":"
        g .type
        reduceFrom m .conditionalType
      let _ ← attempt conditional

end WebAudit.Script.Grammar
