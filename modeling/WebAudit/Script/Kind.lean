/-!
# Kinds of syntax

Every node of a script tree has a kind. Punctuation and keywords are `token`s, known by their
spelling; the other kinds are named after the construct. A role tells what a node is to its parent,
where an analysis asks for it.
-/

namespace WebAudit.Script

/-- The languages a script can be written in. -/
inductive Dialect where
  | javascript
  | typescript
  | tsx
deriving DecidableEq, Repr, Inhabited

namespace Dialect

def name : Dialect → String
  | javascript => "javascript"
  | typescript => "typescript"
  | tsx => "tsx"

def isTyped : Dialect → Bool
  | javascript => false
  | typescript | tsx => true

def hasElements : Dialect → Bool
  | javascript | tsx => true
  | typescript => false

def all : List Dialect := [javascript, tsx, typescript]

def ofName? (s : String) : Option Dialect :=
  all.find? (·.name == s)

end Dialect

inductive Kind where
  /-- Input that fits no construct. -/
  | error
  /-- Punctuation or a keyword. -/
  | token (spelling : String)
  | comment | htmlComment | hashBang
  -- names and literals
  | identifier | propertyName | privateName | label | shorthandProperty | typeName
  | this | super | true | false | null | undefined
  | number | string | stringFragment | escapeSequence | template | templateSubstitution
  | regex | regexPattern | regexFlags | metaProperty | importCallee
  -- expressions
  | call | new | member | subscript | arguments | optionalChain | spread
  | unary | binary | update | ternary | assignment | augmentedAssignment | sequence
  | await | yield | parenthesized | array | object | pair | computedName
  | arrowFunction | functionExpression | generatorFunction | classExpression
  -- patterns
  | arrayPattern | objectPattern | assignmentPattern | objectAssignmentPattern | pairPattern
  | restPattern | shorthandPattern
  -- declarations
  | program | functionDeclaration | generatorDeclaration | classDeclaration
  | lexicalDeclaration | variableDeclaration | variableDeclarator
  | formalParameters | classBody | classHeritage | method | field | staticBlock | decorator
  | importStatement | importClause | namedImports | importSpecifier | namespaceImport
  | importAttribute | exportStatement | exportClause | exportSpecifier | namespaceExport
  -- statements
  | block | expressionStatement | emptyStatement | ifStatement | elseClause | switchStatement
  | switchBody | switchCase | switchDefault | forStatement | forInStatement | whileStatement
  | doStatement | tryStatement | catchClause | finallyClause | withStatement | breakStatement
  | continueStatement | debuggerStatement | returnStatement | throwStatement | labeledStatement
  -- elements
  | element | openingElement | closingElement | selfClosingElement | elementText | elementExpression
  | elementAttribute | elementNamespace | characterReference
  -- types
  | predefinedType | ascription | typeArguments | typeParameters | typeParameter
  | genericType | nestedType | arrayType | tupleType | objectType | functionType | constructorType
  | unionType | intersectionType | conditionalType | lookupType | literalType | templateType
  | typeQuery | indexTypeQuery | readonlyType | inferType | parenthesizedType | thisType
  | typePredicate | assertsType | tupleMember | indexSignature | propertySignature
  | callSignature | constructSignature | methodSignature | mappedClause | constraint | defaultType
  -- typed declarations
  | requiredParameter | optionalParameter | asExpression | satisfiesExpression | typeAssertion
  | instantiation | nonNull | functionSignature | abstractMethod | abstractClass | interface
  | interfaceBody | typeAlias | enum | enumBody | enumAssignment | moduleDeclaration
  | namespaceDeclaration | ambientDeclaration | importAlias | importRequire | modifier
deriving DecidableEq, Repr, Inhabited

namespace Kind

/-- Tokens are anonymous; every other kind is named. -/
def isNamed : Kind → Bool
  | token _ => Bool.false
  | _ => Bool.true

def spelling : Kind → String
  | token s => s
  | propertyName => "property_identifier"
  | typeName => "type_identifier"
  | number => "number"
  | _ => "identifier"

def isFunction : Kind → Bool
  | functionDeclaration | functionExpression | arrowFunction | method
  | generatorDeclaration | generatorFunction => Bool.true
  | _ => Bool.false

def isLoop : Kind → Bool
  | forStatement | forInStatement | whileStatement | doStatement => Bool.true
  | _ => Bool.false

/-- The kinds that add one path through a function each. -/
def isBranch : Kind → Bool
  | ifStatement | ternary | switchCase | switchDefault | catchClause => Bool.true
  | k => k.isLoop

/-- Statements, declarations and class members: what stands in a list of such, each complete in
itself. -/
def isItem : Kind → Bool
  | functionDeclaration | generatorDeclaration | classDeclaration | lexicalDeclaration
  | variableDeclaration | importStatement | exportStatement | block | expressionStatement
  | emptyStatement | ifStatement | switchStatement | forStatement | forInStatement | whileStatement
  | doStatement | tryStatement | withStatement | breakStatement | continueStatement
  | debuggerStatement | returnStatement | throwStatement | labeledStatement | interface | typeAlias
  | enum | moduleDeclaration | namespaceDeclaration | ambientDeclaration | importAlias
  | abstractClass | functionSignature | method | field => Bool.true
  | _ => Bool.false

def isExtra : Kind → Bool
  | error | comment | htmlComment => Bool.true
  | _ => Bool.false

/-- Constructs that are never made up of inserted tokens alone. -/
def hasText : Kind → Bool
  | call | new | assignment | augmentedAssignment | elementAttribute | debuggerStatement => Bool.true
  | _ => Bool.false

def isQuoted : Kind → Bool
  | string | template | regex => Bool.true
  | _ => Bool.false

end Kind

inductive Role where
  | callee | arguments | object | property | constructor | left | right | operator
  | body | source | name | key | parameters | parameter
deriving DecidableEq, Repr

end WebAudit.Script
