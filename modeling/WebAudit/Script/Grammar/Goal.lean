import WebAudit.Script.Reader

/-!
# Goals of the grammar

The constructs that other constructs refer to, some of them with a context. The grammar is written
against a reader for every goal, and the knot is tied once, at the end.
-/

namespace WebAudit.Script

/-- What the surroundings of an expression allow. -/
structure Context where
  /-- The word `in` may be an operator. -/
  inOperator : Bool := true
  /-- A parenthesis may open an arrow function whose result type is given. -/
  typedArrow : Bool := true
  /-- The statement may end right after the expression. -/
  atEnd : Bool := false

/-- How tightly an operator binds; looser levels come first. -/
abbrev Level := Nat

namespace Level

def lowest : Level := 0
def ternary : Level := 1
def logicalOr : Level := 2
def logicalAnd : Level := 3
def bitwiseOr : Level := 4
def bitwiseXor : Level := 5
def bitwiseAnd : Level := 6
def equality : Level := 7
def relation : Level := 8
def shift : Level := 9
def plus : Level := 10
def times : Level := 11
def exponent : Level := 12
def unary : Level := 13
def await : Level := 14

end Level

inductive Goal where
  | statement
  | block
  /-- Expressions between commas. -/
  | expressions (context : Context)
  /-- An expression whose operators bind at least as tightly as the level. -/
  | expression (context : Context) (least : Level)
  | arguments
  | template
  | parameters
  | classBody
  | element
  | type
  /-- The nodes of a target that a value is bound to. -/
  | target
  | object

abbrev Grammar := Goal → Reader Unit

namespace Grammar

def openBrace : String := "\x7b"
def closeBrace : String := "\x7d"
def openSubstitution : String := "$\x7b"

def value (g : Grammar) : Reader Unit :=
  g (.expression {} Level.lowest)

/-- Gets stuck without wanting anything. -/
def abandon : Reader Unit where
  run _ s := .stuck s.reach
  within _ h := h.reach

end Grammar

end WebAudit.Script
