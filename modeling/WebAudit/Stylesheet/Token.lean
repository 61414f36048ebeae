import WebAudit.Stylesheet.Comments
import WebAudit.Text.Lowercase
import WebAudit.Text.Quoted

/-!
# Tokens of a stylesheet

A stylesheet is cut into tokens by taking the first class that matches at each place. What is still
open at the end of the text, a comment, a string or an address, is closed there.
-/

namespace WebAudit.Stylesheet

/-- The statements that begin with `@` and have a grammar of their own. -/
inductive AtRule where
  | charset
  | fontFace
  | import
  | media
  | namespace
  | page
  | variables
  | other
deriving DecidableEq, Repr, Inhabited

inductive TokenKind where
  | space
  | comment
  | uri
  | function
  | unicodeRange
  | ident
  | hash
  | percentage
  | dimension
  | number
  | string
  | invalid
  | at (rule : AtRule)
  | includes
  | dashMatch
  | startMatch
  | endMatch
  | substringMatch
  | cdo
  | cdc
  | bom
  | char
  | eof
deriving DecidableEq, Repr, Inhabited

namespace TokenKind

def name : TokenKind → String
  | space => "S"
  | comment => "COMMENT"
  | uri => "URI"
  | function => "FUNCTION"
  | unicodeRange => "UNICODE-RANGE"
  | ident => "IDENT"
  | hash => "HASH"
  | percentage => "PERCENTAGE"
  | dimension => "DIMENSION"
  | number => "NUMBER"
  | string => "STRING"
  | invalid => "INVALID"
  | .at .charset => "CHARSET_SYM"
  | .at .fontFace => "FONT_FACE_SYM"
  | .at .import => "IMPORT_SYM"
  | .at .media => "MEDIA_SYM"
  | .at .namespace => "NAMESPACE_SYM"
  | .at .page => "PAGE_SYM"
  | .at .variables => "VARIABLES_SYM"
  | .at .other => "ATKEYWORD"
  | includes => "INCLUDES"
  | dashMatch => "DASHMATCH"
  | startMatch => "PREFIXMATCH"
  | endMatch => "SUFFIXMATCH"
  | substringMatch => "SUBSTRINGMATCH"
  | cdo => "CDO"
  | cdc => "CDC"
  | bom => "BOM"
  | char => "CHAR"
  | eof => "EOF"

end TokenKind

structure Token where
  kind : TokenKind
  text : String
  line : Nat := 1
  column : Nat := 1
deriving DecidableEq, Repr, Inhabited

namespace Token

def isChar (t : Token) (c : Char) : Bool :=
  t.text == c.toString

/-- The token with its class and place, as messages show it. -/
def shown (t : Token) : String :=
  "(" ++ Text.quote t.kind.name ++ ", " ++ Text.quote t.text ++ ", " ++ toString t.line ++ ", " ++
    toString t.column ++ ")"

def textOf (ts : List Token) : String :=
  String.join (ts.map (·.text))

end Token

/-! ## Characters -/

def isSpace (c : Char) : Bool :=
  c == ' ' || c == '\t' || c == '\n' || c == '\r' || c == '\x0c'

def isNewline (c : Char) : Bool :=
  c == '\n' || c == '\r' || c == '\x0c'

def isHexDigit (c : Char) : Bool :=
  c.isDigit || ('a' ≤ c && c ≤ 'f') || ('A' ≤ c && c ≤ 'F')

def hexValue (c : Char) : Nat :=
  if c.isDigit then c.toNat - 48 else if c ≤ 'F' then c.toNat - 55 else c.toNat - 87

/-- Splits off at most `n` characters of a class. -/
def takeAtMost (p : Char → Bool) : Nat → List Char → List Char × List Char
  | 0, cs => ([], cs)
  | _, [] => ([], [])
  | n + 1, c :: cs =>
    if p c then
      let (front, rest) := takeAtMost p n cs
      (c :: front, rest)
    else ([], c :: cs)

def escapeEnd : List Char → Nat
  | '\r' :: '\n' :: _ => 2
  | c :: _ => if isSpace c then 1 else 0
  | [] => 0

/-- The length of an escape at the start of a text: up to six hexadecimal digits, or one other
character that ends no line. -/
def escapeLength : List Char → Nat
  | '\\' :: c :: cs =>
    if isHexDigit c then
      let (digits, rest) := takeAtMost isHexDigit 6 (c :: cs)
      1 + digits.length + escapeEnd rest
    else if isNewline c then 0
    else 2
  | _ => 0

def isNameChar (c : Char) : Bool :=
  c.isAlphanum || c == '_' || c == '-' || 128 ≤ c.toNat

def isNameStart (c : Char) : Bool :=
  c.isAlpha || c == '_' || 128 ≤ c.toNat

/-- The length of the longest run of name characters and escapes. -/
def nameLength : Nat → List Char → Nat
  | 0, _ => 0
  | _, [] => 0
  | fuel + 1, c :: cs =>
    if isNameChar c then 1 + nameLength fuel cs
    else
      match escapeLength (c :: cs) with
      | 0 => 0
      | n => n + nameLength fuel ((c :: cs).drop n)

/-- The length of an identifier without its hyphens in front. -/
def plainIdentLength (cs : List Char) : Nat :=
  match cs with
  | [] => 0
  | c :: _ =>
    if isNameStart c || escapeLength cs != 0 then nameLength cs.length cs else 0

/-- The length of an identifier: at most two hyphens, a letter or an escape, and more name
characters. -/
def identLength (cs : List Char) : Nat :=
  let hyphens := (cs.take 2).takeWhile (· == '-')
  match plainIdentLength (cs.drop hyphens.length) with
  | 0 => 0
  | n => hyphens.length + n

/-- The length of a number: an optional sign, and digits with an optional fraction. -/
def numberLength (cs : List Char) : Nat :=
  let sign := if cs.head? == some '+' || cs.head? == some '-' then 1 else 0
  let body := cs.drop sign
  let whole := body.takeWhile Char.isDigit
  match body.drop whole.length with
  | '.' :: rest =>
    match (rest.takeWhile Char.isDigit).length with
    | 0 => if whole.isEmpty then 0 else sign + whole.length
    | n => sign + whole.length + 1 + n
  | _ => if whole.isEmpty then 0 else sign + whole.length

/-- The length of the inside of a string: up to its mark or to the end of the line. -/
def stringBody (mark : Char) : Nat → List Char → Nat
  | 0, _ => 0
  | _, [] => 0
  | fuel + 1, '\\' :: '\r' :: '\n' :: cs => 3 + stringBody mark fuel cs
  | fuel + 1, c :: cs =>
    if c == mark || isNewline c then 0
    else if c == '\\' then
      match cs with
      | [] => 0
      | d :: rest =>
        if isNewline d then 2 + stringBody mark fuel rest
        else
          match escapeLength (c :: cs) with
          | 0 => 0
          | n => n + stringBody mark fuel ((c :: cs).drop n)
    else 1 + stringBody mark fuel cs

def stringLength (cs : List Char) : Nat :=
  match cs with
  | mark :: rest =>
    if mark == '"' || mark == '\'' then
      let n := stringBody mark rest.length rest
      if rest.drop n |>.head? |> (· == some mark) then n + 2 else 0
    else 0
  | [] => 0

def isAddressChar (c : Char) : Bool :=
  let n := c.toNat
  n == 0x09 || n == 0x21 || (0x23 ≤ n && n ≤ 0x26) || n == 0x28 || (0x2a ≤ n && n ≤ 0x7e) || 128 ≤ n

/-- The length of an address without quotation marks; a backslash does not keep a bracket from
closing it. -/
def addressLength : Nat → List Char → Nat
  | 0, _ => 0
  | _, [] => 0
  | fuel + 1, c :: cs =>
    if c == '\\' && cs.head? != some ')' then
      match escapeLength (c :: cs) with
      | 0 => 1 + addressLength fuel cs
      | n => n + addressLength fuel ((c :: cs).drop n)
    else if isAddressChar c then 1 + addressLength fuel cs
    else 0

/-- The length of a given small letter, in either case and possibly escaped, at the start of a text.
An escape by number has at most four zeros in front, and its digits are small. -/
def letterLength (letter : Char) (cs : List Char) : Nat :=
  let isLetter (c : Char) : Bool := c == letter || c == letter.toUpper
  match cs with
  | '\\' :: c :: rest =>
    if isLetter c then 2
    else
      let zeros := (takeAtMost (· == '0') 4 (c :: rest)).1.length
      let body := (c :: rest).drop zeros
      let codes := [letter, letter.toUpper].map fun l => Nat.toDigits 16 l.toNat
      if codes.any (·.isPrefixOf body) then 1 + zeros + 2 + escapeEnd (body.drop 2) else 0
  | c :: _ => if isLetter c then 1 else 0
  | [] => 0

/-- The length of a word of small letters, each in any of its forms, or zero. -/
def wordLength : List Char → List Char → Nat
  | [], _ => 0
  | [letter], cs => letterLength letter cs
  | letter :: letters, cs =>
    match letterLength letter cs with
    | 0 => 0
    | n =>
      match wordLength letters (cs.drop n) with
      | 0 => 0
      | m => n + m

def uriLength (cs : List Char) : Nat :=
  let start := wordLength ['u', 'r', 'l'] cs + 1
  if start != 1 && (cs.drop (start - 1)).head? == some '(' then
    let inner := cs.drop start
    let blanks := (inner.takeWhile isSpace).length
    let body := inner.drop blanks
    let bodyLength :=
      match stringLength body with
      | 0 => addressLength body.length body
      | n => n
    let after := body.drop bodyLength
    let trail := (after.takeWhile isSpace).length
    if (after.drop trail).head? == some ')' then start + blanks + bodyLength + trail + 1 else 0
  else 0

def unicodeRangeLength (cs : List Char) : Nat :=
  match cs with
  | u :: '+' :: rest =>
    if u == 'u' || u == 'U' then
      let (digits, tail) := takeAtMost (fun c => isHexDigit c || c == '?') 6 rest
      if digits.isEmpty then 0
      else
        match tail with
        | '-' :: more =>
          match (takeAtMost isHexDigit 6 more).1.length with
          | 0 => 2 + digits.length
          | n => 3 + digits.length + n
        | _ => 2 + digits.length
    else 0
  | _ => 0

/-! ## Values -/

def lastCode : Nat := 0x10ffff

/-- Replaces numeric escapes by the characters they stand for; other escapes stay, and so do numbers
that stand for no character. -/
def unescapeNumeric : Nat → List Char → List Char
  | 0, cs => cs
  | _, [] => []
  | fuel + 1, c :: cs =>
    if c == '\\' && cs.head?.any isHexDigit then
      let (digits, rest) := takeAtMost isHexDigit 6 cs
      let code := digits.foldl (fun n d => 16 * n + hexValue d) 0
      let length := digits.length + escapeEnd rest
      let shown := if code ≤ lastCode then [Char.ofNat code] else c :: cs.take length
      shown ++ unescapeNumeric fuel (cs.drop length)
    else c :: unescapeNumeric fuel cs

def unescaped (cs : List Char) : String :=
  String.ofList (unescapeNumeric cs.length cs)

/-- A string without its escaped line ends. -/
def joinLines : List Char → List Char
  | '\\' :: '\r' :: '\n' :: cs => joinLines cs
  | '\\' :: '\n' :: cs => joinLines cs
  | '\\' :: '\r' :: cs => joinLines cs
  | '\\' :: '\x0c' :: cs => joinLines cs
  | c :: cs => c :: joinLines cs
  | [] => []

/-- A word in lower case and without the backslashes of simple escapes. -/
def normalWord (s : String) : String :=
  let rec bare : List Char → List Char
    | '\\' :: c :: cs => if isHexDigit c then '\\' :: c :: bare cs else c :: bare cs
    | c :: cs => c :: bare cs
    | [] => []
  String.ofList (Text.lowerChars (bare s.toList))

def atRuleOf (word : String) : AtRule :=
  match normalWord (unescaped word.toList) with
  | "@font-face" => .fontFace
  | "@import" => .import
  | "@media" => .media
  | "@namespace" => .namespace
  | "@page" => .page
  | "@variables" => .variables
  | _ => .other

/-! ## Scanning -/

/-- The class and the length of the token at the start of a text. -/
def classify (cs : List Char) : TokenKind × Nat :=
  match cs with
  | [] => (.eof, 0)
  | c :: rest =>
    let first (options : List (TokenKind × Nat)) : TokenKind × Nat :=
      (options.find? (·.2 != 0)).getD (.char, 1)
    let pair (d : Char) (k : TokenKind) : List (TokenKind × Nat) :=
      if rest.head? == some d then [(k, 2)] else []
    let ident := identLength cs
    let ends (n : Nat) (d : Char) : Bool := (cs.drop n).head? == some d
    if isSpace c then (.space, (cs.takeWhile isSpace).length)
    else if c == '"' || c == '\'' then
      match stringLength cs with
      | 0 => (.invalid, 1 + stringBody c rest.length rest)
      | n => (.string, n)
    else if c == '#' then
      match nameLength rest.length rest with
      | 0 => (.char, 1)
      | n => (.hash, n + 1)
    else if c == '@' then
      match identLength rest with
      | 0 => (.char, 1)
      | n => (.at (atRuleOf (String.ofList (cs.take (n + 1)))), n + 1)
    else if c == '~' then first (pair '=' .includes)
    else if c == '|' then first (pair '=' .dashMatch)
    else if c == '^' then first (pair '=' .startMatch)
    else if c == '$' then first (pair '=' .endMatch)
    else if c == '*' then first (pair '=' .substringMatch)
    else if c == '<' then
      if ['!', '-', '-'].isPrefixOf rest then (.cdo, 4) else (.char, 1)
    else
      match uriLength cs with
      | n + 1 => (.uri, n + 1)
      | 0 =>
        match unicodeRangeLength cs with
        | n + 1 => (.unicodeRange, n + 1)
        | 0 =>
          if ident != 0 then
            if ends ident '(' then (.function, ident + 1) else (.ident, ident)
          else
            match numberLength cs with
            | 0 =>
              if ['-', '-', '>'].isPrefixOf cs then (.cdc, 3) else (.char, 1)
            | n =>
              if ends n '%' then (.percentage, n + 1)
              else
                match identLength (cs.drop n) with
                | 0 => (.number, n)
                | m => (.dimension, n + m)

/-- The value of a token: numeric escapes are replaced in names and addresses, and the lines of a
string are joined. -/
def valueOf (kind : TokenKind) (found : List Char) : String :=
  match kind with
  | .string | .invalid => String.ofList (joinLines found)
  | .ident | .dimension | .uri | .hash | .function | .unicodeRange | .comment => unescaped found
  | _ => String.ofList found

def advance (line column : Nat) : List Char → Nat × Nat
  | [] => (line, column)
  | c :: cs => if c == '\n' then advance (line + 1) 1 cs else advance line (column + 1) cs

def addressEnds : List (List Char) := [['\'', ')'], ['"', ')'], [')']]

/-- The token at the start of a text, its source characters, and the rest. What is open at the end
of the text is closed. -/
def next (line column : Nat) (cs : List Char) : Token × List Char × List Char :=
  let token (kind : TokenKind) (found : List Char) : Token := ⟨kind, valueOf kind found, line, column⟩
  match cs with
  | '/' :: '*' :: body =>
    match closedAt body with
    | some n => (token .comment (cs.take (n + 2)), cs.take (n + 2), body.drop n)
    | none => (⟨.comment, String.ofList (cs ++ ['*', '/']), line, column⟩, [], [])
  | _ =>
    let (kind, n) := classify cs
    let found := cs.take n
    let rest := cs.drop n
    if kind == .invalid && rest.isEmpty then
      let closed := found ++ found.take 1
      (token .string closed, closed, rest)
    else if kind == .function && normalWord (unescaped found) == "url(" then
      match addressEnds.find? fun e => uriLength (cs ++ e) != 0 with
      | some e =>
        let closed := (cs ++ e).take (uriLength (cs ++ e))
        (token .uri closed, closed, cs.drop closed.length)
      | none => (token kind found, found, rest)
    else if kind == .at .other && found == "@charset".toList && rest.head? == some ' ' then
      (token (.at .charset) (found ++ [' ']), found ++ [' '], rest.drop 1)
    else (token kind found, found, rest)

/-- The tokens of a text from a place on, with a last one that marks the end. -/
def tokensFrom : Nat → Nat → Nat → List Char → List Token
  | 0, line, column, _ => [⟨.eof, "", line, column⟩]
  | _, line, column, [] => [⟨.eof, "", line, column⟩]
  | fuel + 1, line, column, c :: cs =>
    let (token, found, rest) := next line column (c :: cs)
    let (line', column') := advance line column found
    token :: tokensFrom fuel line' column' rest

def orderMarks : List (List Char) := [['\u00fe', '\u00ff'], ['\u00ef', '\u00bb', '\u00bf']]

/-- The tokens of a stylesheet. A mark of the byte order takes no place. -/
def tokens (source : List Char) : List Token :=
  match orderMarks.find? (·.isPrefixOf source) with
  | some mark =>
    let rest := source.drop mark.length
    ⟨.bom, String.ofList mark, 1, 1⟩ :: tokensFrom rest.length 1 1 rest
  | none => tokensFrom source.length 1 1 source

end WebAudit.Stylesheet
