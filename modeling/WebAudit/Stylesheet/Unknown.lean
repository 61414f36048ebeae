import WebAudit.Stylesheet.Notes

/-!
# Unknown statements

A statement that begins with an unknown word after `@` may hold anything, as long as its brackets
match and it ends with a semicolon or a block.
-/

namespace WebAudit.Stylesheet

/-- How far an unknown statement has come. -/
structure UnknownState where
  /-- Brackets that are open, innermost first. -/
  nesting : List Char := []
  ended : Bool := false
  wellFormed : Bool := true
deriving DecidableEq, Repr, Inhabited

namespace UnknownState

def reject (s : UnknownState) (message : String) (t : Token) : Noted UnknownState := do
  noteAt message t
  pure { s with wellFormed := false }

def opening? (t : Token) : Option Char :=
  if t.isChar '}' then some '{' else if t.isChar ']' then some '[' else if t.isChar ')' then some '('
  else none

def takeChar (s : UnknownState) (t : Token) : Noted UnknownState := do
  let s ← match opening? t with
    | some c =>
      if s.nesting.head? == some c then pure { s with nesting := s.nesting.drop 1 }
      else s.reject "CSSUnknownRule: Wrong nesting of \x7b, [ or (." t
    | none =>
      pure (if t.isChar '{' || t.isChar '[' || t.isChar '(' then
        { s with nesting := t.text.toList ++ s.nesting } else s)
  pure { s with ended := (t.isChar '}' || t.isChar ';') && s.nesting.isEmpty }

end UnknownState

mutual

/-- Takes the tokens after the first word of an unknown statement. -/
def unknownFrom : Nat → UnknownState → List Token → Noted UnknownState
  | 0, s, _ => pure s
  | _, s, [] => pure s
  | fuel + 1, s, t :: ts => do
    match t.kind with
    | .eof => unknownFrom fuel { s with nesting := [], ended := true } ts
    | .comment => unknownFrom fuel s ts
    | .invalid => unknownFrom fuel (← s.reject "CSSUnknownRule: Bad syntax." t) ts
    | .at .other =>
      if s.ended then unknownFrom fuel (← s.reject "Expected EOF." t) ts
      else
        let (run, rest) := Run.statement.splitFrom t ts
        let _ ← readUnknown fuel run
        unknownFrom fuel s rest
    | kind =>
      let s ←
        if s.ended then s.reject "CSSUnknownRule: Expected end of rule." t
        else if kind == .char then s.takeChar t
        else if kind == .function then pure { s with nesting := '(' :: s.nesting }
        else pure s
      unknownFrom fuel s ts

/-- Reads an unknown statement, and tells whether it is well formed. -/
def readUnknown : Nat → List Token → Noted Bool
  | 0, _ => pure false
  | fuel + 1, ts => do
    match ts with
    | [] => pure false
    | word :: rest =>
      if word.kind != .at .other then
        note ("CSSUnknownRule: No CSSUnknownRule found: " ++ Token.textOf ts)
        pure false
      else
        let s ← unknownFrom fuel {} rest
        if !s.ended then
          note ("CSSUnknownRule: No ending \";\" or \"\x7d\" found: " ++
            Text.quote (Token.textOf ts))
        pure (s.wellFormed && s.ended)

end

/-- Reads an unknown statement in the middle of something else, and the tokens after it. -/
def passUnknown (t : Token) (ts : List Token) : Noted (List Token) := do
  let (run, rest) := Run.statement.splitFrom t ts
  let _ ← readUnknown (2 * run.length + 2) run
  pure rest

end WebAudit.Stylesheet
