import WebAudit.Script.Grammar.Element

/-!
# Expressions

Operands are read first, with the members, calls and brackets that follow them; operators are then
taken in as long as they bind tightly enough. An operand that can be assigned to takes an assignment
in whatever the level is.
-/

namespace WebAudit.Script.Grammar

open Reader

/-! ## Literals with parts -/

def spread (g : Grammar) : Reader Unit :=
  node .spread do
    tok "..."
    value g

def valueOrSpread (g : Grammar) : Reader Unit := do
  if ← at? "..." then spread g else value g

def arguments (g : Grammar) : Reader Unit :=
  node .arguments do
    tok "("
    commaList ")" true (valueOrSpread g)
    tok ")"

def array (g : Grammar) : Reader Unit :=
  node .array do
    tok "["
    commaList "]" true (valueOrSpread g)
    tok "]"

/-- A property, method, spread or name alone between the braces of an object. -/
def objectMember (g : Grammar) : Reader Unit := do
  if ← at? "..." then spread g
  else
    let m ← mark
    if ← at? "@" then decorators g
    let after ← afterWord
    let alone := match after with
      | ',' :: _ | '}' :: _ => true
      | _ => false
    if atName (← ahead) && alone then piece .shorthandProperty nameSplit
    else
      let _ ← memberModifiers ["async", "get", "set"] 4 false
      let generator ← tok? "*"
      propertyName g
      if generator || (← at? "(") || ((← typed) && (← at? "<")) then
        asRole .name
        signature g
        role .body (g .block)
        reduceFrom m .method
      else
        asRole .key
        tok ":"
        value g
        reduceFrom m .pair

def object (g : Grammar) : Reader Unit :=
  node .object do
    tok openBrace
    commaList closeBrace true (objectMember g)
    tok closeBrace

def parenthesized (g : Grammar) : Reader Unit :=
  node .parenthesized do
    tok "("
    g (.expressions {})
    tok ")"

/-! ## Arrow functions -/

def arrowRest (g : Grammar) (context : Context) : Reader Unit := do
  tok "=>"
  if ← at? openBrace then role .body (g .block)
  else role .body (g (.expression { context with typedArrow := true } Level.lowest))

def arrow (g : Grammar) (context : Context) : Reader Unit :=
  node .arrowFunction do
    if (← wordAhead) == "async" then tok "async"
    if ← typed then
      if ← at? "<" then typeParameters g
      role .parameters (g .parameters)
      if context.typedArrow then optResultType g
    else role .parameters (g .parameters)
    if ← breakAhead then abandon
    arrowRest g context

def bareArrow (g : Grammar) (context : Context) (async : Bool) : Reader Unit :=
  node .arrowFunction do
    if async then tok "async"
    role .parameter identifier
    arrowRest g context

/-! ## Operands -/

def patternAssignment (g : Grammar) (context : Context) : Reader Unit :=
  node .assignment do
    role .left (destructuring g)
    tok "="
    role .right (g (.expression context Level.lowest))

def literalOrPattern (g : Grammar) (context : Context) (literal : Reader Unit) : Reader Unit :=
  (do
    literal
    if atAssign (← ahead) then abandon) <|> patternAssignment g context

def wordOperand (g : Grammar) (context : Context) : Reader Unit := do
  let word ← wordAhead
  match word with
  | "" => identifier
  | "this" => anyWord .this
  | "super" => anyWord .super
  | "true" => anyWord .true
  | "false" => anyWord .false
  | "null" => anyWord .null
  | "class" => node .classExpression (classRest g)
  | "import" =>
    match ← afterWord with
    | '.' :: _ => node .metaProperty do tok "import"; tok "."; anyWord .propertyName
    | _ => piece .importCallee (tokenSplit "import")
  | _ =>
    if ← atFunction then function g false
    else
      let after ← afterWord
      let sameLine := !(← breakAfterWord)
      if atArrow after && !reserved.contains word then bareArrow g context false
      else if word == "async" && sameLine && atName after &&
          (← looking do tok "async"; identifier; if !atArrow (← ahead) then abandon) then
        bareArrow g context true
      else if word == "async" && sameLine && (after.head? == some '(' || after.head? == some '<') then
        arrow g context <|> identifier
      else if word == "undefined" then anyWord .undefined
      else identifier

def primary (g : Grammar) (context : Context) : Reader Unit := do
  match ← ahead with
  | [] => identifier
  | '(' :: _ => arrow g context <|> parenthesized g
  | '[' :: _ => literalOrPattern g context (array g)
  | '{' :: _ => literalOrPattern g context (g .object)
  | '`' :: _ => g .template
  | '/' :: _ => regex
  | '\'' :: _ | '"' :: _ => string
  | '@' :: _ => node .classExpression do decorators g; classRest g
  | '#' :: _ => privateName
  | '<' :: _ =>
    let dialect ← dialect
    if ← attemptIf dialect.isTyped (arrow g context) then return ()
    else if dialect.hasElements then g .element
    else
      node .typeAssertion do
        typeArguments g
        g (.expression context Level.unary)
  | c :: cs =>
    if c.isDigit || (c == '.' && cs.head?.any Char.isDigit) then number
    else wordOperand g context

def memberName : Reader Unit := do
  if (← ahead).head? == some '#' then privateName else anyWord .propertyName
  asRole .property

/-- What follows an operand: members, brackets, calls, templates and the operators behind it. -/
def suffix (g : Grammar) (m : Nat) (calls : Bool) : Reader Bool := do
  setOperand true
  let cs ← ahead
  match cs with
  | '.' :: c :: _ =>
    if c == '.' then return false
    asRole .object
    tok "."
    memberName
    reduceFrom m .member
    return true
  | '?' :: '.' :: c :: _ =>
    if c.isDigit then return false
    let rest := (cs.drop 2).dropWhile Lexeme.isBlank
    match rest with
    | '(' :: _ | '<' :: _ =>
      if !calls then return false
      asRole .callee
      piece .optionalChain (Lexeme.spelled "?.")
      if ← at? "<" then typeArguments g
      role .arguments (g .arguments)
      reduceFrom m .call
    | '[' :: _ =>
      asRole .object
      piece .optionalChain (Lexeme.spelled "?.")
      tok "["
      g (.expressions {})
      tok "]"
      reduceFrom m .subscript
    | _ =>
      asRole .object
      piece .optionalChain (Lexeme.spelled "?.")
      memberName
      reduceFrom m .member
    return true
  | '[' :: _ =>
    asRole .object
    tok "["
    g (.expressions {})
    tok "]"
    reduceFrom m .subscript
    return true
  | '(' :: _ =>
    if !calls then return false
    asRole .callee
    role .arguments (g .arguments)
    reduceFrom m .call
    return true
  | '`' :: _ =>
    asRole .callee
    role .arguments (g .template)
    reduceFrom m .call
    return true
  | '!' :: c :: _ =>
    if !(← typed) || c == '=' || (← breakAhead) then return false
    tok "!"
    reduceFrom m .nonNull
    return true
  | ['!'] =>
    if !(← typed) || (← breakAhead) then return false
    tok "!"
    reduceFrom m .nonNull
    return true
  | '+' :: '+' :: _ =>
    if !calls || (← breakAhead) then return false
    tok "++"
    reduceFrom m .update
    return true
  | '-' :: '-' :: _ =>
    if !calls || (← breakAhead) then return false
    tok "--"
    reduceFrom m .update
    return true
  | _ => return false

def suffixes (g : Grammar) (m : Nat) (calls : Bool) : Reader Unit :=
  loop (suffix g m calls)

/-- `new`, the constructor, and its arguments if any are given. -/
def newExpression (g : Grammar) (context : Context) : Nat → Reader Unit
  | 0 => identifier
  | fuel + 1 => do
    let m ← mark
    tok "new"
    if ← at? "." then
      tok "."
      anyWord .propertyName
      reduceFrom m .metaProperty
    else
      if (← wordAhead) == "new" then newExpression g context fuel
      else
        let m ← mark
        primary g context
        suffixes g m false
      asRole .constructor
      if (← typed) && (← at? "<") then
        let _ ← attempt do
          typeArguments g
          if !(← at? "(") then abandon
      if ← at? "(" then role .arguments (g .arguments)
      reduceFrom m .new

def assignable (k : Kind) : Bool :=
  [.identifier, .undefined, .member, .subscript, .parenthesized, .nonNull].contains k

def augmentedSigns : List String :=
  [">>>=", "**=", "<<=", ">>=", "&&=", "||=", "??=", "+=", "-=", "*=", "/=", "%=", "^=", "&=", "|="]

def assigned (g : Grammar) (context : Context) : Reader Unit := do
  let m ← mark
  if (← wordAhead) == "new" then newExpression g context 64 else primary g context
  suffixes g m true
  if assignable (← topKind) then
    let cs ← ahead
    if atAssign cs then
      asRole .left
      tok "="
      role .right (g (.expression context Level.lowest))
      reduceFrom m .assignment
    else
      match augmentedSigns.find? (Lexeme.startsWith · cs) with
      | some sign =>
        asRole .left
        role .operator (tok sign)
        role .right (g (.expression context Level.lowest))
        reduceFrom m .augmentedAssignment
      | none => return ()

/-- Whether the text can start an operand after `yield`. -/
def startsOperand (cs : List Char) : Bool :=
  match cs with
  | [] => false
  | c :: _ => !(")],;:?=\x7d".toList.contains c) && (Lexeme.name cs).all fun (w, _) =>
      !(["in", "of", "instanceof"].contains (String.ofList w))

def operand (g : Grammar) (context : Context) : Reader Unit := do
  let cs ← ahead
  let sign (s : String) (kind : Kind) : Reader Unit :=
    node kind do
      role .operator (tok s)
      g (.expression context Level.unary)
  match cs with
  | '+' :: '+' :: _ => sign "++" .update
  | '-' :: '-' :: _ => sign "--" .update
  | '!' :: _ => sign "!" .unary
  | '~' :: _ => sign "~" .unary
  | '+' :: _ => sign "+" .unary
  | '-' :: _ => sign "-" .unary
  | _ =>
    match ← wordAhead with
    | "typeof" => sign "typeof" .unary
    | "void" => sign "void" .unary
    | "delete" => sign "delete" .unary
    | "await" =>
      if context.atEnd && (← looking do tok "await"; semicolon) then assigned g context
      else
        node .await do
          tok "await"
          g (.expression context Level.await)
    | "yield" =>
      node .yield do
        tok "yield"
        if ← at? "*" then
          tok "*"
          g (.expression context Level.lowest)
        else if !(← breakAhead) && startsOperand (← ahead) then
          g (.expression context Level.lowest)
    | _ => assigned g context

/-! ## Operators between operands -/

structure Operator where
  spelling : String
  level : Level
  /-- Groups from the right. -/
  right : Bool := false

def operators : List Operator :=
  [⟨">>>", Level.shift, false⟩, ⟨"===", Level.equality, false⟩, ⟨"!==", Level.equality, false⟩,
   ⟨"**", Level.exponent, true⟩, ⟨"<<", Level.shift, false⟩, ⟨">>", Level.shift, false⟩,
   ⟨"<=", Level.relation, false⟩, ⟨">=", Level.relation, false⟩, ⟨"==", Level.equality, false⟩,
   ⟨"!=", Level.equality, false⟩, ⟨"&&", Level.logicalAnd, false⟩, ⟨"||", Level.logicalOr, false⟩,
   ⟨"??", Level.ternary, false⟩, ⟨"<", Level.relation, false⟩, ⟨">", Level.relation, false⟩,
   ⟨"+", Level.plus, false⟩, ⟨"-", Level.plus, false⟩, ⟨"*", Level.times, false⟩,
   ⟨"/", Level.times, false⟩, ⟨"%", Level.times, false⟩, ⟨"&", Level.bitwiseAnd, false⟩,
   ⟨"|", Level.bitwiseOr, false⟩, ⟨"^", Level.bitwiseXor, false⟩]

def operatorAt (context : Context) (cs : List Char) : Option Operator :=
  if (augmentedSigns ++ ["++", "--"]).any (Lexeme.startsWith · cs) then none
  else
    match Lexeme.name cs with
    | some (w, _) =>
      if w == "instanceof".toList then some ⟨"instanceof", Level.relation, false⟩
      else if w == "in".toList && context.inOperator then some ⟨"in", Level.relation, false⟩
      else none
    | none => operators.find? (Lexeme.startsWith ·.spelling cs)

/-- Whether text starts with the mark of a conditional expression. -/
def atQuestion (typed : Bool) (cs : List Char) : Bool :=
  match cs with
  | '?' :: '?' :: _ => false
  | '?' :: '.' :: c :: _ => c.isDigit
  | '?' :: rest =>
    !typed || !([some ':', some ')', some ','].contains (rest.dropWhile Lexeme.isBlank).head?)
  | _ => false

/-- Type arguments and a call, or type arguments alone where nothing can follow them. -/
def typedCall (g : Grammar) (m : Nat) : Reader Unit := do
  asRole .callee
  typeArguments g
  match ← ahead with
  | '(' :: _ =>
    role .arguments (g .arguments)
    reduceFrom m .call
  | '`' :: _ =>
    role .arguments (g .template)
    reduceFrom m .call
  | cs =>
    if cs.isEmpty || (";,)]:\x7d".toList.contains (cs.headD ';')) || (← breakAhead) then
      reduceFrom m .instantiation
    else abandon

/-- Takes in one operator and its right side, if it binds tightly enough. -/
def takeOperator (g : Grammar) (context : Context) (least : Level) (m : Nat) : Reader Bool := do
  setOperand true
  let cs ← ahead
  let typed ← typed
  if least ≤ Level.ternary && atQuestion typed cs then
    tok "?"
    let choice (context : Context) : Reader Unit := do
      g (.expression context Level.lowest)
      tok ":"
    choice { context with typedArrow := true, atEnd := false } <|>
      choice { context with typedArrow := false, atEnd := false }
    g (.expression context Level.lowest)
    reduceFrom m .ternary
    return true
  let word ← wordAhead
  if typed && (word == "as" || word == "satisfies") then
    if (least ≤ Level.ternary || least == Level.exponent || least == Level.await) &&
        !(← breakAhead) then
      tok word
      g .type
      reduceFrom m (if word == "as" then .asExpression else .satisfiesExpression)
      return true
    return false
  let typeArgs := typed && least ≤ Level.relation + 1 && cs.head? == some '<' &&
    !Lexeme.startsWith "<<" cs
  if ← attemptIf typeArgs (typedCall g m) then
    suffixes g m true
    return true
  match operatorAt context cs with
  | none => return false
  | some op =>
    if op.level < least then return false
    asRole .left
    role .operator (tok op.spelling)
    role .right (g (.expression context (if op.right then op.level else op.level + 1)))
    reduceFrom m .binary
    return true

/-- An expression whose operators bind at least as tightly as `least`. -/
def expression (g : Grammar) (context : Context) (least : Level) : Reader Unit := do
  let m ← mark
  operand g context
  loop (takeOperator g context least m)
  setOperand true

def expressions (g : Grammar) (context : Context) : Reader Unit := do
  let m ← mark
  g (.expression context Level.lowest)
  if ← at? "," then
    loop do
      if ← tok? "," then
        g (.expression context Level.lowest)
        return true
      return false
    reduceFrom m .sequence
  setOperand true

/-- What a value can be bound to: a name, a member, or a pattern. -/
def target (g : Grammar) : Reader Unit := do
  if atDestructuring (← ahead) then destructuring g
  else
    let m ← mark
    if (← wordAhead) == "this" then anyWord .this else identifier
    loop do
      match ← ahead with
      | '.' :: c :: _ =>
        if c == '.' then return false
        asRole .object
        tok "."
        memberName
        reduceFrom m .member
        return true
      | '[' :: _ =>
        asRole .object
        tok "["
        g (.expressions {})
        tok "]"
        reduceFrom m .subscript
        return true
      | _ => return false

end WebAudit.Script.Grammar
