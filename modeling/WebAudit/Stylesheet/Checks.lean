import WebAudit.Finding.Detector
import WebAudit.Number.Double
import WebAudit.Stylesheet.Brightness
import WebAudit.Stylesheet.Document
import WebAudit.Stylesheet.TopLevel

/-!
# Checks for stylesheets
-/

namespace WebAudit.Stylesheet

def Declaration.keyword (d : Declaration) : String :=
  Text.lower (Text.strip d.value)

def Declaration.hit (d : Declaration) (description : String) : Hit :=
  { line := d.line, description := some description }

namespace StyleRule

def hit (r : StyleRule) (description : String) : Hit :=
  { line := r.line, description := some description }

def label (r : StyleRule) : String :=
  match r.media with
  | some query =>
    if query.isEmpty then r.selectorText else r.selectorText ++ " (@media " ++ query ++ ")"
  | none => r.selectorText

/-! ## Performance -/

def isUniversal (selector : String) : Bool :=
  (dropAttributes selector.toList).contains '*'

def universalSelector (r : StyleRule) : List Hit :=
  match r.selectors.find? isUniversal with
  | some selector => [r.hit ("Selector " ++ Text.quote selector ++ " uses the universal selector.")]
  | none => []

def maxChildCombinators : Nat := 3

def childDepth (selector : String) : Nat :=
  (dropAttributes selector.toList).count '>'

def deepSelectors (r : StyleRule) : List Hit :=
  (r.selectors.filter fun s => maxChildCombinators < childDepth s).map fun s =>
    r.hit ("Selector " ++ Text.quote s ++ " chains " ++ toString (childDepth s) ++
      " child combinators (limit " ++ toString maxChildCombinators ++ ").")

def maxShadows : Nat := 3

def stackedShadows (r : StyleRule) : List Hit :=
  r.declarations.filterMap fun d =>
    let count := (splitTopLevel ',' d.value).length
    if d.name == "box-shadow" && d.keyword != "none" && maxShadows < count then
      some (d.hit ("box-shadow stacks " ++ toString count ++ " shadows (limit " ++
        toString maxShadows ++ ")."))
    else none

def fixedPositions (r : StyleRule) : List Hit :=
  (r.declarations.filter fun d => d.name == "position" && d.keyword == "fixed").map
    (·.hit (r.label ++ " is position: fixed."))

/-! ## Quality -/

def importantOverrides (r : StyleRule) : List Hit :=
  (r.declarations.filter (·.important)).map fun d =>
    d.hit (d.name ++ " in " ++ r.label ++ " is marked !important.")

def vendorMarks : List String := ["-webkit-", "-moz-", "-ms-", "-o-"]

/-- The standard name of a property with a vendor's mark. -/
def standardName? (name : String) : Option String :=
  (vendorMarks.find? (Text.startsWith name)).map fun mark => String.ofList (name.toList.drop mark.length)

def vendorOnly (r : StyleRule) : List Hit :=
  r.declarations.filterMap fun d =>
    match standardName? d.name with
    | some standard =>
      if r.declarations.any (·.name == standard) then none
      else some (d.hit (d.name ++ " is used without the standard " ++ standard ++ " property."))
    | none => none

/-! ## Accessibility -/

def removesOutline (d : Declaration) : Bool :=
  ["outline", "outline-style", "outline-width"].contains d.name &&
  ["none", "0", "0px"].contains d.keyword

def showsFocus (d : Declaration) : Bool :=
  ["box-shadow", "border", "background", "text-decoration"].any (Text.startsWith d.name)

def focusRemoved (r : StyleRule) : List Hit :=
  match r.declarations.find? removesOutline with
  | some d =>
    if r.declarations.any showsFocus then []
    else [d.hit (r.label ++ " removes the focus outline without providing another focus style.")]
  | none => []

/-- The brightness, in thousandths, above which a text colour is too light. -/
def lightBrightness : Nat := 200000

def lightColors (r : StyleRule) : List Hit :=
  r.declarations.filterMap fun d =>
    match if d.name == "color" then brightness? d.value else none with
    | some b =>
      if lightBrightness < b then
        some (d.hit ("Text color " ++ d.value ++ " has a perceived brightness of " ++
          toString (Number.roundDiv b 1000) ++ " and is likely hard to read on light backgrounds."))
      else none
    | none => none

/-- A font size in pixels or points: the digits, the number of places, and the unit. -/
def fontSize? (value : String) : Option (Number.Decimal × String) :=
  let cs := Text.stripChars value.toList
  let whole := cs.takeWhile Text.isDecimalDigit
  let rest := cs.drop whole.length
  let (fraction, rest) := match rest with
    | '.' :: more =>
      let digits := more.takeWhile Text.isDecimalDigit
      if digits.isEmpty then ([], rest) else (digits, more.drop digits.length)
    | _ => ([], rest)
  if whole.isEmpty && fraction.isEmpty then none
  else
    let unit := String.ofList (Text.lowerChars (rest.dropWhile Text.isBlank))
    if unit == "px" || unit == "pt" then
      some (⟨digitsValue (whole ++ fraction), -(fraction.length : Int)⟩, unit)
    else none

def minSizeTwice (unit : String) : Nat :=
  if unit == "px" then 28 else 21

def minSizeText (unit : String) : String :=
  (if unit == "px" then "14" else "10.5") ++ unit

def smallFonts (r : StyleRule) : List Hit :=
  r.declarations.filterMap fun d =>
    match if d.name == "font-size" then fontSize? d.value else none with
    | some (size, unit) =>
      let (num, den) := size.magnitude.quotient
      if 2 * num < minSizeTwice unit * den then
        some (d.hit ("font-size " ++ d.value ++ " is below the minimum of " ++ minSizeText unit ++ "."))
      else none
    | none => none

end StyleRule

namespace Document

/-- Rules whose selector was defined before for the same media, given those seen so far with their
lines. -/
def duplicatesFrom (offset : Int) :
    List ((String × Option String) × Nat) → List StyleRule → List Hit
  | _, [] => []
  | seen, r :: rs =>
    let key := (normalizeSelector r.selectorText, r.media)
    match seen.lookup key with
    | some line =>
      r.hit ("Selector " ++ Text.quote r.selectorText ++ " was already defined on line " ++
        toString ((line : Int) + offset) ++ ".") :: duplicatesFrom offset seen rs
    | none => duplicatesFrom offset ((key, r.line) :: seen) rs

def duplicateSelectors (d : Document) (record : Record) : List Hit :=
  duplicatesFrom record.lineOffset [] d.rules

end Document

end WebAudit.Stylesheet
