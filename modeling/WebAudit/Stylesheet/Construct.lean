import WebAudit.Stylesheet.Grammar
import WebAudit.Stylesheet.Term

/-!
# Grammars of values and media queries

What values, functions, colours, variables, sums and media queries are made of. The names of words
are those that messages use.
-/

namespace WebAudit.Stylesheet

/-! ## Words -/

def isWord (t : Token) (words : List String) : Bool :=
  t.kind == .ident && words.contains (normalWord t.text)

def opens (t : Token) (words : List String) : Bool :=
  t.kind == .function && words.contains (normalWord t.text)

def colorFunctions : List String := ["rgb(", "rgba(", "hsl(", "hsla("]

/-- Functions that take any tokens, written by some browsers only. -/
def freeFunctions : List String :=
  ["expression(", "alpha(", "blur(", "chroma(", "dropshadow(", "fliph(", "flipv(", "glow(", "gray(",
    "invert(", "mask(", "shadow(", "wave(", "xray("]

def charWord (name : String) (c : Char) : Word where
  name
  accepts t := t.isChar c

def kindWord (name : String) (kinds : List TokenKind) : Word where
  name
  accepts t := kinds.contains t.kind

def enterWord (name : String) (accepts : Token → Bool) (construct : Construct) : Word where
  name
  accepts
  use _ := .enter construct

namespace Word

def optional (w : Word) : Word := { w with isOptional := true }

def ends (w : Word) : Word := { w with ending := .stop }

def dropped (w : Word) : Word := { w with use := fun _ => .drop }

def spelled (w : Word) : Word := { w with use := fun _ => .spell }

def counting (w : Word) (blanks : Bool) : Word := { w with blanksCount := blanks }

end Word

open Grammar (once many choice)

def comma : Word := charWord "comma" ','

def whitespace : Word := { kindWord "whitespace" [.space] with mayEnd := true }

def functionEnd : Word := (charWord "end FUNC \")\"" ')').ends

def colorTerm : Word where
  name := "ColorValue"
  accepts t := (t.kind == .hash && isColor t.text.toList) || opens t colorFunctions
  use t := if t.kind == .function then .enter .color else .spell

def dimensionTerm : Word := (kindWord "Dimension" [.dimension, .number, .percentage]).spelled

def uriTerm : Word := (kindWord "URIValue" [.uri]).spelled

def plainTerm : Word := (kindWord "Value" [.ident, .string, .unicodeRange]).spelled

def variableTerm : Word := enterWord "variable" (opens · ["var("]) .variable

def freeTerm : Word := enterWord "MSValue" (opens · freeFunctions) .free

def sumTerm : Word := enterWord "CSSCalc" (opens · ["calc("]) .sum

def functionTerm : Word := enterWord "function" (·.kind == .function) .function

def words (ws : List Word) : List Grammar :=
  ws.map .word

/-! ## Values -/

/-- A term of a value; a blank after it parts it from the next one. -/
def valueTerm : Grammar :=
  choice ((words [colorTerm, dimensionTerm, uriTerm, plainTerm, variableTerm, freeTerm, sumTerm,
    functionTerm]).map fun
    | .word w => .word (w.counting true)
    | g => g)

/-- Terms with blanks, commas or slashes between them, up to a semicolon. -/
def valueGrammar : Grammar :=
  once [valueTerm,
    many [choice (words [whitespace.dropped, comma.optional, (charWord "slash" '/').optional]),
      .word { (charWord "END" ';').optional with ending := .refuse }, valueTerm]]

def innerTerm : Grammar :=
  choice (words [colorTerm, dimensionTerm, uriTerm, plainTerm, sumTerm, variableTerm, functionTerm])

def functionGrammar : Grammar :=
  once [.word (kindWord "FUNC" [.function]),
    choice [once [innerTerm, many [.word comma.optional, innerTerm], .word functionEnd],
      .word functionEnd]]

def freeGrammar : Grammar :=
  once [.word (kindWord "FUNCTION" [.function]),
    many [choice (words [colorTerm, dimensionTerm, uriTerm, plainTerm, freeTerm, variableTerm,
      enterWord "MSValue-Sub" (·.kind == .function) .free,
      { name := "MSValuePart", accepts := fun t => !t.isChar ')' }])],
    .word functionEnd]

def variableGrammar : Grammar :=
  once [.word (kindWord "var" [.function]), .word (kindWord "ident" [.ident]),
    .sequence 0 (some 1) [.word comma, innerTerm], .word functionEnd]

/-- A factor may follow at once; a summand needs blanks around its sign. -/
def sumGrammar : Grammar :=
  let operand := choice (words [dimensionTerm, sumTerm, variableTerm])
  let product : Word :=
    { name := "Operator */", accepts := fun t => t.isChar '*' || t.isChar '/' }
  let sign : Word := { name := "Operator +-", accepts := fun t => t.isChar '+' || t.isChar '-' }
  once [.word (kindWord "CALC" [.function]), .word whitespace.optional, operand,
    many [choice [.word product,
        once [.word whitespace,
          choice [once (words [product, whitespace.optional]), once (words [sign, whitespace]),
            .word { functionEnd with mayEnd := true }]]],
      operand],
    .word functionEnd]

/-! ## Colours -/

def signedGrammar : Grammar :=
  let sign : Word := { name := "unary +-", accepts := fun t => t.isChar '+' || t.isChar '-' }
  once [.word sign.optional,
    choice (words [(kindWord "dimension" [.dimension]).ends, (kindWord "number" [.number]).ends,
      (kindWord "percentage" [.percentage]).ends])]

/-- A function with three parts, or with four if the last one tells how much shows through. -/
def colorGrammar : Grammar :=
  let sign := enterWord "unary +-" (fun t => t.isChar '+' || t.isChar '-') .signed
  let part := choice (words [sign.optional,
    (kindWord "number" [.number]).spelled, (kindWord "percentage" [.percentage]).spelled])
  let function (names : List String) (rounds : Nat) : Grammar :=
    once [.word { name := "FUNCTION", accepts := (opens · names) }, part,
      .sequence rounds (some rounds) [.word comma.optional, part], .word functionEnd]
  choice [.word (kindWord "HEX color" [.hash]).ends, .word (kindWord "Named Color" []).ends,
    function ["rgb(", "hsl("] 2, function ["rgba(", "hsla("] 3]

/-! ## Media queries -/

def mediaTypes : List String :=
  ["all", "braille", "handheld", "print", "projection", "speech", "screen", "tty", "tv", "embossed"]

def mediaFeature : Grammar :=
  once [.word (charWord "expression" '('), .word (kindWord "media_feature" [.ident]),
    .sequence 0 (some 1) [.word (charWord "colon" ':'),
      choice (words [colorTerm, dimensionTerm, plainTerm])],
    .word { charWord "expression END" ')' with ending := .yield }]

def queryGrammar : Grammar :=
  let and := many [.word { name := "AND", accepts := (isWord · ["and"]) }, mediaFeature]
  choice [once [.word { name := "ONLY|NOT", accepts := (isWord · ["only", "not"]), isOptional := true },
      .word { name := "media_type", accepts := (isWord · mediaTypes), ending := .yield }, and],
    once [mediaFeature, and]]

def queriesGrammar : Grammar :=
  let query := enterWord "MediaQueryStart" (fun t => t.kind == .ident || t.isChar '(') .query
  once [.word query, many [.word comma.dropped, .word query]]

/-! ## Variables -/

/-- Names with their values, which a semicolon parts. -/
def variablesGrammar : Grammar :=
  let declaration := once [.word (kindWord "ident" [.ident]),
    .word (charWord ":" ':').dropped.optional, .word (enterWord "term" (fun _ => true) .value)]
  let blank := Grammar.word whitespace.optional
  let semicolon := Grammar.word (charWord ";" ';').dropped.optional
  once [declaration, many [blank, semicolon, blank, declaration, blank], semicolon]

/-! ## Constructs -/

namespace Construct

def grammar : Construct → Grammar
  | value => valueGrammar
  | color => colorGrammar
  | signed => signedGrammar
  | function => functionGrammar
  | .variable => variableGrammar
  | sum => sumGrammar
  | free => freeGrammar
  | query => queryGrammar
  | queries => queriesGrammar
  | declarations => variablesGrammar

def name : Construct → String
  | value => "PropertyValue"
  | color => "COLOR_VALUE"
  | signed => "DimensionValue"
  | function | free => "FUNCTION"
  | .variable => "CSSVariable"
  | sum => "CSSCalc"
  | query => "MediaQuery"
  | queries => "MediaList"
  | declarations => "CSSVariablesDeclaration"

end Construct

end WebAudit.Stylesheet
