import WebAudit.Stylesheet.Comments
import WebAudit.Stylesheet.Spelling
import WebAudit.Text.Lowercase
import WebAudit.Text.Lines
import WebAudit.Text.WordChar

/-!
# Places in a stylesheet

The blocks of a stylesheet are found in its text, with comments blanked, by their braces alone. Rules
and declarations that were read are then looked up in order, each one after the one before.
-/

namespace WebAudit.Stylesheet

/-- A block as it stands in the text: its selector, and where its inside starts and stops. -/
structure Block where
  selector : String
  line : Nat
  bodyStart : Nat
  bodyEnd : Nat
deriving DecidableEq, Repr, Inhabited

/-- The block whose header ends in front of a brace, unless it begins with `@` or is empty. The
header starts on the given line, and the text after the brace at the given offset. -/
def blockAt (header : List Char) (line start : Nat) (rest : List Char) : Option Block :=
  let trimmed := Text.stripLeft header
  if header.isEmpty || trimmed.head? == some '@' then none
  else
    some {
      selector := normalizeSelector (String.ofList header)
      line := line + Text.newlines (header.takeWhile Text.isBlank)
      bodyStart := start
      bodyEnd := start + (rest.takeWhile (· != '}')).length }

/-- The blocks of the rest of a text, given the offset, the line on which the current header starts
and the header so far, latest character first. -/
def blocksFrom : Nat → Nat → List Char → List Char → List Block
  | _, _, _, [] => []
  | offset, line, header, c :: cs =>
    if c == '{' || c == '}' || c == ';' then
      let found := if c == '{' then blockAt header.reverse line (offset + 1) cs else none
      found.toList ++ blocksFrom (offset + 1) (line + Text.newlines header) [] cs
    else blocksFrom (offset + 1) line (c :: header) cs

def blocks (text : List Char) : List Block :=
  blocksFrom 0 1 [] text

/-- The first block with a selector, and the blocks after it; all blocks if there is none. -/
def findBlock (wanted : String) : List Block → Option Block × List Block
  | bs =>
    match bs.dropWhile (·.selector != normalizeSelector wanted) with
    | b :: rest => (some b, rest)
    | [] => (none, bs)

def nameLengthAt (name cs : List Char) : Option Nat :=
  match Text.dropWord name cs with
  | some rest =>
    let blanks := (rest.takeWhile Text.isBlank).length
    if (rest.drop blanks).head? == some ':' then some (name.length + blanks + 1) else none
  | none => none

def startsAfter (before : Option Char) : Bool :=
  !before.any fun c => c == '-' || Text.isWordChar c

/-- The offset of a name with a colon from the start of a text, and its length. -/
def findName (name : List Char) : Option Char → List Char → Option (Nat × Nat)
  | _, [] => none
  | before, c :: cs =>
    match if startsAfter before then nameLengthAt name (c :: cs) else none with
    | some n => some (0, n)
    | none => (findName name (some c) cs).map fun (offset, n) => (offset + 1, n)

/-- The line of a declaration in a block, looked for from an offset on, and the offset after its
colon. If there is none, the line of the block and the same offset. -/
def declarationLine (text : List Char) (block : Block) (name : String) (start : Nat) : Nat × Nat :=
  let start' := max start block.bodyStart
  let before := if start' = 0 then none else (text.drop (start' - 1)).head?
  match findName name.toList before ((text.drop start').take (block.bodyEnd - start')) with
  | some (offset, n) => (Text.newlines (text.take (start' + offset)) + 1, start' + offset + n)
  | none => (block.line, start)

end WebAudit.Stylesheet
