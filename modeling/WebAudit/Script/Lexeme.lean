/-!
# Lexemes of a script

The smallest pieces of script text, each read off the front of a list of characters: blanks and
comments, names, numbers, escapes, the insides of strings, templates, patterns and elements. A
function that splits text answers the piece and the rest, or nothing when the text does not start
with such a piece.
-/

namespace WebAudit.Script.Lexeme

abbrev Split := Option (List Char × List Char)

/-- The longest start of the text whose characters satisfy `p`, if it is not empty. -/
def span1 (p : Char → Bool) (cs : List Char) : Split :=
  match cs.span p with
  | ([], _) => none
  | found => some found

def dropSpelling : List Char → List Char → Option (List Char)
  | [], cs => some cs
  | _ :: _, [] => none
  | s :: ss, c :: cs => if s = c then dropSpelling ss cs else none

def spelled (spelling : String) (cs : List Char) : Split :=
  (dropSpelling spelling.toList cs).map (spelling.toList, ·)

def startsWith (spelling : String) (cs : List Char) : Bool :=
  (dropSpelling spelling.toList cs).isSome

/-! ## Character classes -/

def isBlank (c : Char) : Bool :=
  let n := c.toNat
  (9 ≤ n && n ≤ 13) || n == 32 || n == 0x85 || n == 0xA0 || n == 0x1680 ||
  (0x2000 ≤ n && n ≤ 0x200B) || n == 0x2028 || n == 0x2029 || n == 0x202F || n == 0x205F ||
  n == 0x2060 || n == 0x3000 || n == 0xFEFF

/-- Blanks that the search for a line end skips: no-break spaces are not among them. -/
def isBreakingBlank (c : Char) : Bool :=
  let n := c.toNat
  (9 ≤ n && n ≤ 13) || n == 32 || n == 0x1680 || (0x2000 ≤ n && n ≤ 0x2006) ||
  (0x2008 ≤ n && n ≤ 0x200A) || n == 0x2028 || n == 0x2029 || n == 0x205F || n == 0x3000

def isLineEnd (c : Char) : Bool :=
  c == '\n' || c.toNat == 0x2028 || c.toNat == 0x2029

def isPunctuation (c : Char) : Bool :=
  ":;`\"'@#.,|^&<=>+-*/\\%?!~()[]\x7b\x7d".toList.contains c

def isNamePart (c : Char) : Bool :=
  32 ≤ c.toNat && !isBlank c && !isPunctuation c

def isNameStart (c : Char) : Bool :=
  isNamePart c && !c.isDigit

def isHexDigit (c : Char) : Bool :=
  c.isDigit || ('a' ≤ c && c ≤ 'f') || ('A' ≤ c && c ≤ 'F')

def isOctalDigit (c : Char) : Bool :=
  '0' ≤ c && c ≤ '7'

/-! ## Names -/

/-- `\uXXXX` or `\u{X…}` after the backslash. -/
def unicodeEscape : List Char → Split
  | 'u' :: '{' :: cs =>
    match span1 isHexDigit cs with
    | some (ds, '}' :: rest) => some ('u' :: '{' :: ds ++ ['}'], rest)
    | _ => none
  | 'u' :: a :: b :: c :: d :: rest =>
    if isHexDigit a && isHexDigit b && isHexDigit c && isHexDigit d then
      some (['u', a, b, c, d], rest)
    else none
  | _ => none

/-- The characters of a name, latest first, up to the first that cannot belong to it. -/
def nameTail : Nat → List Char → List Char → List Char × List Char
  | 0, seen, cs => (seen.reverse, cs)
  | fuel + 1, seen, cs =>
    match cs with
    | '\\' :: rest =>
      match unicodeEscape rest with
      | some (esc, rest) => nameTail fuel (esc.reverse ++ '\\' :: seen) rest
      | none => (seen.reverse, cs)
    | c :: rest => if isNamePart c then nameTail fuel (c :: seen) rest else (seen.reverse, cs)
    | [] => (seen.reverse, [])

def name (cs : List Char) : Split :=
  match cs with
  | '\\' :: rest =>
    match unicodeEscape rest with
    | some (esc, rest) => some (nameTail rest.length (esc.reverse ++ ['\\']) rest)
    | none => none
  | c :: rest => if isNameStart c then some (nameTail rest.length [c] rest) else none
  | [] => none

def dashedName (cs : List Char) : Split :=
  let isStart (c : Char) := c.isAlpha || c == '_' || c == '$'
  let isPart (c : Char) := isStart c || c.isDigit
  match cs with
  | c :: _ =>
    if isStart c then
      match cs.span isPart with
      | (front, '-' :: rest) =>
        let (back, rest) := rest.span fun c => isPart c || c == '-'
        some (front ++ '-' :: back, rest)
      | _ => none
    else none
  | [] => none

def elementName (cs : List Char) : Split :=
  match dashedName cs with
  | some found => some found
  | none => name cs

def privateName : List Char → Split
  | '#' :: rest => (name rest).map fun (w, rest) => ('#' :: w, rest)
  | _ => none

/-! ## Numbers -/

/-- The rest after `d(_?d)*`, where `d` is a digit of class `p`. -/
def digitsRest (p : Char → Bool) : List Char → Option (List Char)
  | c :: cs => if p c then some (go cs) else none
  | [] => none
where
  go : List Char → List Char
    | '_' :: c :: cs => if p c then go cs else '_' :: c :: cs
    | c :: cs => if p c then go cs else c :: cs
    | [] => []

def exponentRest : List Char → Option (List Char)
  | e :: cs =>
    if e == 'e' || e == 'E' then
      match cs with
      | '-' :: ds | '+' :: ds => digitsRest Char.isDigit ds
      | ds => digitsRest Char.isDigit ds
    else none
  | [] => none

/-- The integer part of a number with a point or an exponent. -/
def integerRest : List Char → Option (List Char)
  | '0' :: c :: cs =>
    if '1' ≤ c && c ≤ '9' then some (afterLead cs) else some (c :: cs)
  | ['0'] => some []
  | c :: cs => if '1' ≤ c && c ≤ '9' then some (afterLead cs) else none
  | [] => none
where
  afterLead (cs : List Char) : List Char :=
    match cs with
    | '_' :: ds => (digitsRest Char.isDigit ds).getD cs
    | ds => (digitsRest Char.isDigit ds).getD cs

def orSame (f : List Char → Option (List Char)) (cs : List Char) : List Char :=
  (f cs).getD cs

/-- Whole numbers may have the mark of a big one behind them. -/
def bigRests : Option (List Char) → List (List Char)
  | some ('n' :: rest) => ['n' :: rest, rest]
  | some rest => [rest]
  | none => []

/-- Whole numbers to another base than ten. -/
def basedRests : List Char → List (List Char)
  | '0' :: b :: ds =>
    if b == 'x' || b == 'X' then bigRests (digitsRest isHexDigit ds)
    else if b == 'b' || b == 'B' then bigRests (digitsRest (fun c => c == '0' || c == '1') ds)
    else if b == 'o' || b == 'O' then bigRests (digitsRest isOctalDigit ds)
    else []
  | _ => []

def fractionRests : List Char → List (List Char)
  | '.' :: ds => ((digitsRest Char.isDigit ds).map (orSame exponentRest)).toList
  | _ => []

def pointedRests (cs : List Char) : List (List Char) :=
  match integerRest cs with
  | some ('.' :: ds) => [orSame exponentRest (orSame (digitsRest Char.isDigit) ds)]
  | some rest => (exponentRest rest).toList
  | none => []

/-- Every way to read a number off the front, as what is left over. -/
def numberRests (cs : List Char) : List (List Char) :=
  basedRests cs ++ fractionRests cs ++ pointedRests cs ++ bigRests (digitsRest Char.isDigit cs)

def shorter (a b : List Char) : List Char :=
  if b.length < a.length then b else a

def number (cs : List Char) : Split :=
  match numberRests cs with
  | [] => none
  | r :: rs =>
    let rest := rs.foldl shorter r
    some (cs.take (cs.length - rest.length), rest)

/-! ## Insides of strings, templates and patterns -/

def stringFragment (quote : Char) (cs : List Char) : Split :=
  span1 (fun c => c != quote && c != '\\' && c != '\r' && c != '\n') cs

def escape : List Char → Split
  | '\\' :: cs =>
    match cs with
    | 'x' :: a :: b :: rest =>
      if isHexDigit a && isHexDigit b then some (['\\', 'x', a, b], rest) else none
    | 'x' :: _ => none
    | 'u' :: _ => (unicodeEscape cs).map fun (esc, rest) => ('\\' :: esc, rest)
    | '\r' :: c :: rest =>
      if isLineEnd c then some (['\\', '\r', c], rest) else some (['\\', '\r'], c :: rest)
    | '?' :: c :: rest =>
      if isLineEnd c then some (['\\', '?', c], rest) else some (['\\', '?'], c :: rest)
    | c :: rest =>
      if isOctalDigit c then
        let ds := (cs.take 3).takeWhile isOctalDigit
        some ('\\' :: ds, cs.drop ds.length)
      else some (['\\', c], rest)
    | [] => none
  | _ => none

/-- The plain text of a template, up to a backquote, a backslash or a substitution; the text must
not end before one of these. -/
def templateChars : List Char → List Char → Split
  | _, [] => none
  | seen, '$' :: '{' :: rest => finish seen ('$' :: '{' :: rest)
  | seen, c :: rest =>
    if c == '`' || c == '\\' then finish seen (c :: rest) else templateChars (c :: seen) rest
where
  finish (seen rest : List Char) : Split :=
    if seen.isEmpty then none else some (seen.reverse, rest)

def patternClass : List Char → List Char → Split
  | _, [] => none
  | seen, ']' :: rest => some ((']' :: seen).reverse, rest)
  | seen, '\\' :: c :: rest =>
    if c == '\n' then none else patternClass (c :: '\\' :: seen) rest
  | seen, c :: rest => if c == '\n' || c == '\\' then none else patternClass (c :: seen) rest

def patternBody : Nat → List Char → List Char → List Char × List Char
  | 0, seen, cs => (seen.reverse, cs)
  | fuel + 1, seen, cs =>
    match cs with
    | '[' :: rest =>
      match patternClass ['['] rest with
      | some (cls, rest) => patternBody fuel (cls.reverse ++ seen) rest
      | none => (seen.reverse, cs)
    | '\\' :: c :: rest =>
      if c == '\n' then (seen.reverse, cs) else patternBody fuel (c :: '\\' :: seen) rest
    | c :: rest =>
      if c == '/' || c == '\\' || c == '\n' then (seen.reverse, cs)
      else patternBody fuel (c :: seen) rest
    | [] => (seen.reverse, [])

/-- The body of a regular expression, without its slashes. -/
def pattern (cs : List Char) : Split :=
  match patternBody cs.length [] cs with
  | ([], _) => none
  | found => some found

/-! ## Insides of elements -/

/-- Text between tags. Blanks that only surround a line break are no text. -/
def elementText (cs : List Char) : Split :=
  let (text, rest) := cs.span fun c =>
    c != '<' && c != '>' && c != '{' && c != '}' && c != '&'
  if sawText false text then some (text, rest) else none
where
  sawText : Bool → List Char → Bool
    | _, [] => false
    | _, '\n' :: cs => sawText true cs
    | atBreak, c :: cs =>
      if atBreak && isBreakingBlank c then sawText true cs else true

def closeReference (front ds rest : List Char) (most : Nat) : Split :=
  match rest with
  | ';' :: rest =>
    if ds.isEmpty || most < ds.length then none else some (front ++ ds ++ [';'], rest)
  | _ => none

/-- `&name;`, `&#10;` or `&#xA;`. -/
def characterReference : List Char → Split
  | '&' :: '#' :: 'x' :: cs =>
    closeReference ['&', '#', 'x'] (cs.span isHexDigit).1 (cs.span isHexDigit).2 6
  | '&' :: '#' :: 'X' :: cs =>
    closeReference ['&', '#', 'X'] (cs.span isHexDigit).1 (cs.span isHexDigit).2 6
  | '&' :: '#' :: cs =>
    closeReference ['&', '#'] (cs.span Char.isDigit).1 (cs.span Char.isDigit).2 5
  | '&' :: cs => closeReference ['&'] (cs.span Char.isAlpha).1 (cs.span Char.isAlpha).2 30
  | _ => none

/-- Text of an attribute string up to the quote or a character reference. -/
def attributeFragment (quote : Char) : List Char → List Char → List Char × List Char
  | seen, '&' :: c :: rest =>
    if c == '#' || c.isAlpha then (seen.reverse, '&' :: c :: rest)
    else if c == quote then (seen.reverse, '&' :: c :: rest)
    else attributeFragment quote (c :: '&' :: seen) rest
  | seen, c :: rest =>
    if c == quote || c == '&' then (seen.reverse, c :: rest)
    else attributeFragment quote (c :: seen) rest
  | seen, [] => (seen.reverse, [])

def attributeText (quote : Char) (cs : List Char) : Split :=
  match attributeFragment quote [] cs with
  | ([], _) => none
  | found => some found

/-! ## Comments -/

/-- The rest after a block comment whose opening has been read. -/
def blockCommentRest : List Char → Option (List Char)
  | '*' :: '/' :: rest => some rest
  | _ :: rest => blockCommentRest rest
  | [] => none

def comment (cs : List Char) : Split :=
  match cs with
  | '/' :: '/' :: _ => some (cs.span fun c => !isLineEnd c && c != '\r')
  | '/' :: '*' :: rest =>
    (blockCommentRest rest).map fun rest => (cs.take (cs.length - rest.length), rest)
  | _ => none

def htmlComment (cs : List Char) : Split :=
  if startsWith "<!--" cs || startsWith "-->" cs then
    some (cs.span fun c => !isLineEnd c)
  else none

/-! ## Line ends that stand for a semicolon -/

/-- What the search past a line break meets. -/
inductive Passed where
  /-- Blanks and comments only; the text that follows. -/
  | through (rest : List Char)
  /-- A slash that starts no comment. -/
  | slash

def passBlanks : Nat → List Char → Passed
  | 0, cs => .through cs
  | fuel + 1, cs =>
    match cs.dropWhile isBreakingBlank with
    | '/' :: '/' :: rest => passBlanks fuel (rest.dropWhile fun c => !isLineEnd c)
    | '/' :: '*' :: rest => passBlanks fuel ((blockCommentRest rest).getD [])
    | '/' :: _ => .slash
    | rest => .through rest

/-- Whether a statement may end before this text, which follows a line break. -/
def canStartLine (typed afterOperand : Bool) (cs : List Char) : Bool :=
  match cs with
  | '.' :: rest => !typed && (rest.head?.any Char.isDigit)
  | '(' :: _ | '[' :: _ => typed && !afterOperand
  | '+' :: rest => rest.head? == some '+'
  | '-' :: rest => rest.head? == some '-'
  | '!' :: rest => rest.head? != some '='
  | 'i' :: 'n' :: rest =>
    if !(rest.head?.any Char.isAlpha) then false
    else match dropSpelling "stanceof".toList rest with
      | some rest => rest.head?.any Char.isAlpha
      | none => true
  | c :: _ => !("`,:;*%><=?^|&/".toList.contains c)
  | [] => true

/-- Whether the text that follows a complete statement ends it without a semicolon: at the end of
the input, before a closing brace, or by a line break that the next line cannot continue. A comment
in front counts as a line break only where no operand stands before it. -/
def endsStatement (typed afterOperand : Bool) : List Char → Bool
  | [] => true
  | c :: cs =>
    if c == '}' then
      !typed || afterOperand || (cs.dropWhile isBreakingBlank).head? != some ':'
    else if c == '\n' || (!typed && isLineEnd c) then
      match passBlanks cs.length cs with
      | .through rest => canStartLine typed afterOperand rest
      | .slash => false
    else if isBreakingBlank c then endsStatement typed afterOperand cs
    else if c == '/' && !typed && !afterOperand then
      match cs with
      | '/' :: rest =>
        match passBlanks cs.length (rest.dropWhile fun c => !isLineEnd c) with
        | .through rest => rest.head? != some ',' && rest.head? != some '='
        | .slash => false
      | '*' :: rest => blockEnds rest
      | _ => false
    else false
where
  /-- A block comment ends the statement when a line break stands in it. -/
  blockEnds (cs : List Char) : Bool :=
    match blockCommentRest cs with
    | some rest =>
      (cs.take (cs.length - rest.length)).any isLineEnd &&
        rest.head? != some ',' && rest.head? != some '='
    | none => false

end WebAudit.Script.Lexeme
