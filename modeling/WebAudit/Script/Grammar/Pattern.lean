import WebAudit.Script.Grammar.Name

/-!
# Patterns

Targets that values are bound to: names, members, and patterns that take objects and arrays apart.
-/

namespace WebAudit.Script.Grammar

open Reader

/-- A pattern, with a value to fall back on if an equals sign follows. -/
def patternWithDefault (g : Grammar) : Reader Unit := do
  let m ← mark
  g .target
  if atAssign (← ahead) then
    asRole .left
    tok "="
    role .right (value g)
    reduceFrom m .assignmentPattern

def restPattern (g : Grammar) : Reader Unit :=
  node .restPattern do
    tok "..."
    g .target

def arrayPattern (g : Grammar) : Reader Unit :=
  node .arrayPattern do
    tok "["
    commaList "]" true do
      if ← at? "..." then restPattern g else patternWithDefault g
    tok "]"

/-- A property of an object pattern: a name alone, a name with a default, or a key with a pattern. -/
def propertyPattern (g : Grammar) : Reader Unit := do
  if ← at? "..." then restPattern g
  else
    let after ← afterWord
    let alone := match after with
      | ',' :: _ | '}' :: _ => true
      | cs => atAssign cs
    if atName (← ahead) && alone then
      let m ← mark
      piece .shorthandPattern nameSplit
      if atAssign after then
        asRole .left
        tok "="
        role .right (value g)
        reduceFrom m .objectAssignmentPattern
    else
      node .pairPattern do
        role .key (propertyName g)
        tok ":"
        patternWithDefault g

def objectPattern (g : Grammar) : Reader Unit :=
  node .objectPattern do
    tok openBrace
    commaList closeBrace true (propertyPattern g)
    tok closeBrace

def destructuring (g : Grammar) : Reader Unit := do
  if ← at? "[" then arrayPattern g else objectPattern g

def atDestructuring (cs : List Char) : Bool :=
  cs.head? == some '[' || cs.head? == some '{'

def binding (g : Grammar) : Reader Unit := do
  if atDestructuring (← ahead) then destructuring g else identifier

end WebAudit.Script.Grammar
