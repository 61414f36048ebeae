import WebAudit.Script.Grammar.Expression

/-!
# Statements and declarations
-/

namespace WebAudit.Script.Grammar

open Reader

/-! ## Declarations of variables -/

def declarator (g : Grammar) (context : Context) : Reader Unit :=
  node .variableDeclarator do
    role .name (binding g)
    if ← typed then
      opt "!"
      optAscription g
    if atAssign (← ahead) then
      tok "="
      g (.expression context Level.lowest)

def declarators (g : Grammar) : Reader Unit := do
  declarator g { atEnd := true }
  loop do
    if ← tok? "," then
      declarator g { atEnd := true }
      return true
    return false

def variableDeclaration (g : Grammar) : Reader Unit :=
  node .variableDeclaration do
    tok "var"
    declarators g
    semicolon

def lexicalDeclaration (g : Grammar) : Reader Unit :=
  node .lexicalDeclaration do
    tok (← wordAhead)
    declarators g
    semicolon

/-- Whether `let` starts a declaration and is no name itself. In the head of a loop it is a name in
front of `of`. -/
def letDeclares (inLoop : Bool) : Reader Bool := do
  let after ← afterWord
  match after.head? with
  | some '[' | some '{' => return true
  | _ => return (nameSplit after).any fun (w, _) => !(inLoop && String.ofList w == "of")

/-! ## Modules -/

def moduleWord : Reader Unit := do
  if atQuote (← ahead) then string else anyWord .identifier

def fromClause : Reader Unit := do
  tok "from"
  role .source string

/-- `name`, `name as alias`, with `type` in front where types exist. -/
def specifier (kind : Kind) : Reader Unit :=
  node kind do
    if (← typed) && ["type", "typeof"].contains (← wordAhead) then
      let after ← afterWord
      let isName := match after with
        | ',' :: _ | '}' :: _ => true
        | cs => (tokenRest "as" cs).isSome
      if !isName then tok (← wordAhead)
    role .name moduleWord
    if ← tok? "as" then moduleWord

def specifiers (list item : Kind) : Reader Unit :=
  node list do
    tok openBrace
    commaList closeBrace false (specifier item)
    tok closeBrace

def namespaceImport : Reader Unit :=
  node .namespaceImport do
    tok "*"
    tok "as"
    identifier

def importClause : Reader Unit :=
  node .importClause do
    let bindings : Reader Unit := do
      if ← at? "*" then namespaceImport else specifiers .namedImports .importSpecifier
    match ← ahead with
    | '*' :: _ | '{' :: _ => bindings
    | _ =>
      identifier
      if ← tok? "," then bindings

def importAttribute (g : Grammar) : Reader Unit := do
  if (← wordAhead) == "with" || ((← wordAhead) == "assert" && !(← breakAhead)) then
    node .importAttribute do
      tok (← wordAhead)
      g .object

def importStatement (g : Grammar) : Reader Unit := do
  let m ← mark
  tok "import"
  if atQuote (← ahead) then role .source string
  else
    if (← typed) && ["type", "typeof"].contains (← wordAhead) then
      let after ← afterWord
      let modifies := match after with
        | '{' :: _ | '*' :: _ => true
        | cs => atName cs && (tokenRest "from" cs).isNone || Lexeme.startsWith "from from" cs
      if modifies then tok (← wordAhead)
    if (← typed) && atAssign (← afterWord) then
      let inner ← mark
      identifier
      tok "="
      if (← wordAhead) == "require" && (← afterWord).head? == some '(' then
        tok "require"
        tok "("
        role .source string
        tok ")"
        reduceFrom inner .importRequire
      else
        identifier
        loop do
          if ← tok? "." then
            anyWord .propertyName
            return true
          return false
        semicolon
        reduceFrom m .importAlias
        return ()
    else
      importClause
      fromClause
  importAttribute g
  semicolon
  reduceFrom m .importStatement

/-- An export: of names, of another module, of a declaration, or of a value. -/
def exportStatement (g : Grammar) : Reader Unit := do
  let m ← mark
  decorators g
  tok "export"
  let typed ← typed
  let finish : Reader Unit := do
    semicolon
    reduceFrom m .exportStatement
  let names : Reader Unit := do
    specifiers .exportClause .exportSpecifier
    if (← wordAhead) == "from" then
      fromClause
      importAttribute g
    finish
  match ← ahead with
  | '*' :: _ =>
    if (tokenRest "as" (((← ahead).drop 1).dropWhile Lexeme.isBlank)).isSome then
      node .namespaceExport do
        tok "*"
        tok "as"
        moduleWord
    else tok "*"
    fromClause
    importAttribute g
    finish
  | '{' :: _ => names
  | '=' :: _ =>
    tok "="
    value g
    finish
  | _ =>
    match ← wordAhead with
    | "default" =>
      tok "default"
      let word ← wordAhead
      let declares := ["class", "interface"].contains word || (← at? "@") ||
        (word == "abstract" && Lexeme.startsWith "class" (← afterWord)) || (← atFunction)
      if ← attemptIf declares (g .statement) then
        reduceFrom m .exportStatement
      else
        value g
        finish
    | "type" =>
      if typed && (← afterWord).head? == some '{' then
        tok "type"
        names
      else
        g .statement
        reduceFrom m .exportStatement
    | "as" =>
      tok "as"
      tok "namespace"
      identifier
      finish
    | _ =>
      g .statement
      reduceFrom m .exportStatement

/-! ## Compound statements -/

def condition (g : Grammar) : Reader Unit :=
  node .parenthesized do
    tok "("
    g (.expressions {})
    tok ")"

def ifStatement (g : Grammar) : Reader Unit :=
  node .ifStatement do
    tok "if"
    condition g
    g .statement
    if ← at? "else" then
      node .elseClause do
        tok "else"
        g .statement

def whileStatement (g : Grammar) : Reader Unit :=
  node .whileStatement do
    tok "while"
    condition g
    role .body (g .statement)

def doStatement (g : Grammar) : Reader Unit :=
  node .doStatement do
    tok "do"
    role .body (g .statement)
    tok "while"
    condition g
    let _ ← attempt semicolon

def loopVariable (g : Grammar) : Reader Unit := do
  match ← wordAhead with
  | "var" =>
    tok "var"
    role .left (binding g)
    if ← typed then optAscription g
    if atAssign (← ahead) then
      tok "="
      g (.expression { inOperator := false } Level.lowest)
  | "const" =>
    tok "const"
    role .left (binding g)
    if ← typed then optAscription g
  | "let" =>
    if ← letDeclares true then
      tok "let"
      role .left (binding g)
      if ← typed then optAscription g
    else role .left (g .target)
  | _ => role .left (parenthesized g <|> g .target)

def forInStatement (g : Grammar) : Reader Unit :=
  node .forInStatement do
    tok "for"
    opt "await"
    tok "("
    loopVariable g
    if (← wordAhead) == "of" then role .operator (tok "of") else role .operator (tok "in")
    role .right (g (.expressions {}))
    tok ")"
    role .body (g .statement)

def emptyStatement : Reader Unit :=
  node .emptyStatement (tok ";")

/-- Whether `async of` comes next; in the head of a loop it begins no arrow function. -/
def atAsyncOf : Reader Bool := do
  return (← wordAhead) == "async" && (tokenRest "of" (← afterWord)).isSome

def forStatement (g : Grammar) : Reader Unit :=
  node .forStatement do
    tok "for"
    tok "("
    let word ← wordAhead
    if word == "var" then variableDeclaration g
    else if word == "const" || (word == "let" && (← letDeclares true)) then lexicalDeclaration g
    else if ← at? ";" then emptyStatement
    else
      if ← atAsyncOf then abandon
      g (.expressions {})
      tok ";"
    if ← at? ";" then emptyStatement
    else
      g (.expressions {})
      tok ";"
    if !(← at? ")") then g (.expressions {})
    tok ")"
    role .body (g .statement)

def switchCase (g : Grammar) : Reader Unit := do
  let body : Reader Unit := do
    tok ":"
    loop do
      if (← at? "case") || (← at? "default") || (← at? closeBrace) then return false
      g .statement
      return true
  if ← at? "default" then
    node .switchDefault do
      tok "default"
      body
  else
    node .switchCase do
      tok "case"
      g (.expressions {})
      body

def switchStatement (g : Grammar) : Reader Unit :=
  node .switchStatement do
    tok "switch"
    condition g
    role .body <| node .switchBody do
      tok openBrace
      itemsUntil closeBrace (switchCase g)
      tok closeBrace

def tryStatement (g : Grammar) : Reader Unit :=
  node .tryStatement do
    tok "try"
    role .body (g .block)
    if ← at? "catch" then
      node .catchClause do
        tok "catch"
        if ← tok? "(" then
          binding g
          if ← typed then optAscription g
          tok ")"
        role .body (g .block)
    if ← at? "finally" then
      node .finallyClause do
        tok "finally"
        role .body (g .block)

def withStatement (g : Grammar) : Reader Unit :=
  node .withStatement do
    tok "with"
    condition g
    role .body (g .statement)

/-- `break` or `continue`, with the label on the same line. -/
def jump (kind : Kind) (word : String) : Reader Unit :=
  node kind do
    tok word
    if !(← breakAhead) && atName (← ahead) then piece .label nameSplit
    semicolon

def returnStatement (g : Grammar) : Reader Unit :=
  node .returnStatement do
    tok "return"
    let ends ← observe fun set s => (lineEndFrom set set.limit s).isSome
    if !ends && !(← at? ";") then g (.expressions { atEnd := true })
    semicolon

def throwStatement (g : Grammar) : Reader Unit :=
  node .throwStatement do
    tok "throw"
    g (.expressions { atEnd := true })
    semicolon

def labeledStatement (g : Grammar) : Reader Unit :=
  node .labeledStatement do
    piece .label nameSplit
    tok ":"
    role .body (g .statement)

def expressionStatement (g : Grammar) : Reader Unit :=
  node .expressionStatement do
    g (.expressions { atEnd := true })
    semicolon

def block (g : Grammar) : Reader Unit :=
  node .block do
    tok openBrace
    itemsUntil closeBrace (g .statement)
    tok closeBrace

/-- Words that start a statement where one may start, and name no property there. -/
def statementWords : List String :=
  ["var", "const", "function", "class", "if", "for", "while", "do", "switch", "try", "with",
   "break", "continue", "debugger", "return", "throw"]

/-- A brace where a statement may start opens a block, unless what it holds reads as the properties
of an object: a key and a colon, with an object that ends as a statement would. -/
def blockOrObject (g : Grammar) : Reader Unit := do
  let plain ← looking do
    tok openBrace
    if !statementWords.contains (← wordAhead) then abandon
  if plain then block g
  else
    let keyed ← looking do
      tok openBrace
      propertyName g
      tok ":"
    if keyed then expressionStatement g <|> block g else block g <|> expressionStatement g

/-! ## Typed declarations -/

def classDeclaration (g : Grammar) : Reader Unit := do
  let m ← mark
  decorators g
  if (← wordAhead) == "export" then
    -- decorators in front of an export belong to the export
    abandon
  if (← wordAhead) == "abstract" then
    tok "abstract"
    classRest g
    reduceFrom m .abstractClass
  else
    classRest g
    reduceFrom m .classDeclaration

def interfaceDeclaration (g : Grammar) : Reader Unit :=
  node .interface do
    tok "interface"
    role .name (anyWord .typeName)
    if ← at? "<" then typeParameters g
    if (← wordAhead) == "extends" then
      tok "extends"
      g .type
      loop do
        if ← tok? "," then
          g .type
          return true
        return false
    typeMembers g .interfaceBody

def typeAlias (g : Grammar) : Reader Unit :=
  node .typeAlias do
    tok "type"
    role .name (anyWord .typeName)
    if ← at? "<" then typeParameters g
    tok "="
    g .type
    semicolon

def enumDeclaration (g : Grammar) : Reader Unit :=
  node .enum do
    opt "const"
    tok "enum"
    role .name identifier
    node .enumBody do
      tok openBrace
      commaList closeBrace false do
        let m ← mark
        role .name (propertyName g)
        if atAssign (← ahead) then
          initializer g
          reduceFrom m .enumAssignment
      tok closeBrace

def namespaceDeclaration (g : Grammar) : Reader Unit := do
  let m ← mark
  let word ← wordAhead
  tok word
  if atQuote (← ahead) then string
  else
    identifier
    loop do
      if ← tok? "." then
        anyWord .propertyName
        return true
      return false
  if ← at? openBrace then role .body (g .block)
  reduceFrom m (if word == "module" then .moduleDeclaration else .namespaceDeclaration)
  let _ ← attempt semicolon

def ambientDeclaration (g : Grammar) : Reader Unit :=
  node .ambientDeclaration do
    tok "declare"
    if (← wordAhead) == "global" then
      tok "global"
      g .block
    else g .statement

/-- Declarations that only typed languages have; answers whether one was read. -/
def typedDeclaration (g : Grammar) : Reader Bool := do
  let word ← wordAhead
  let after ← afterWord
  let sameLine := !(← breakAfterWord)
  let named := sameLine && atName after
  let run (p : Reader Unit) : Reader Bool := do p; return true
  match word with
  | "interface" => if named then run (interfaceDeclaration g) else return false
  | "type" => if named then run (typeAlias g) else return false
  | "enum" => if named then run (enumDeclaration g) else return false
  | "const" =>
    if (tokenRest "enum" after).isSome then run (enumDeclaration g) else return false
  | "abstract" =>
    if (tokenRest "class" after).isSome then run (classDeclaration g) else return false
  | "namespace" | "module" =>
    if sameLine && (named || atQuote after) then run (namespaceDeclaration g) else return false
  | "declare" =>
    if sameLine && (Lexeme.name after).isSome then run (ambientDeclaration g) else return false
  | _ => return false

/-! ## Statements -/

def wordStatement (g : Grammar) : Reader Unit := do
  match ← wordAhead with
  | "var" => variableDeclaration g
  | "const" => lexicalDeclaration g
  | "let" => if ← letDeclares false then lexicalDeclaration g else plain
  | "function" => function g true
  | "async" => if ← atFunction then function g true else plain
  | "class" => classDeclaration g
  | "if" => ifStatement g
  | "for" => forInStatement g <|> forStatement g
  | "while" => whileStatement g
  | "do" => doStatement g
  | "switch" => switchStatement g
  | "try" => tryStatement g
  | "with" => withStatement g
  | "break" => jump .breakStatement "break"
  | "continue" => jump .continueStatement "continue"
  | "debugger" => node .debuggerStatement do tok "debugger"; semicolon
  | "return" => returnStatement g
  | "throw" => throwStatement g
  | "import" =>
    match ← afterWord with
    | '(' :: _ | '.' :: _ => plain
    | _ => importStatement g
  | "export" => exportStatement g
  | _ => plain
where
  plain : Reader Unit := do
    if (← afterWord).head? == some ':' && atName (← ahead) then labeledStatement g
    else expressionStatement g

def statement (g : Grammar) : Reader Unit := do
  match ← ahead with
  | '{' :: _ => blockOrObject g
  | ';' :: _ => emptyStatement
  | '@' :: _ => classDeclaration g <|> exportStatement g
  | _ => if !((← typed) && (← typedDeclaration g)) then wordStatement g

/-! ## The whole grammar -/

/-- One step of the grammar: how each goal is read, given readers for the goals inside it. -/
def step (g : Grammar) : Grammar
  | .statement => statement g
  | .block => block g
  | .expressions context => expressions g context
  | .expression context least => expression g context least
  | .arguments => arguments g
  | .template => template g
  | .parameters => parameters g
  | .classBody => classBody g
  | .element => element g
  | .type => type g
  | .target => target g
  | .object => object g

def nested : Nat → Grammar
  | 0 => fun _ => abandon
  | depth + 1 => fun goal => trying (step (nested depth) goal)

def program (g : Grammar) : Reader Unit := do
  if Lexeme.startsWith "#!" (← here) then
    pieceHere .hashBang fun cs => some (cs.span (· != '\n'))
  loop do
    if (← ahead).isEmpty then return false
    g .statement
    return true

end WebAudit.Script.Grammar
