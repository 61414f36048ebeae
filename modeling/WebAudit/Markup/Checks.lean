import WebAudit.Finding.Detector
import WebAudit.Markup.Document

/-!
# Checks for pages
-/

namespace WebAudit.Markup

def Tag.hit (t : Tag) (description : Option String := none) : Hit :=
  { line := t.line, description }

def hasAny (words : List String) (s : String) : Bool :=
  words.any fun w => Text.contains w s

namespace Document

def pageHit : Hit := { wholeFile := true }

/-! ## Security -/

def policyHeader : String := "content-security-policy"

def missingPolicy (d : Document) (record : Record) : List Hit :=
  if record.metadata.any (fun (k, _) => Text.lower k == policyHeader) then []
  else if (d.named ["meta"]).any (·.tag.keyword "http-equiv" == policyHeader) then []
  else [pageHit]

def inlineScripts (d : Document) : List Hit :=
  (d.sites.filter fun s => s.isInlineScript && s.hasContent).map (·.tag.hit)

def scriptAddresses (d : Document) : List Hit :=
  ((d.named ["a"]).filter fun s => Text.startsWith (s.tag.keyword "href") "javascript:").map (·.tag.hit)

def tokenWords : List String := ["csrf", "token", "xsrf"]

/-- A hidden field that looks like a token against forged requests. -/
def isTokenField (t : Tag) : Bool :=
  t.name == "input" && Text.lower (t.get "type") == "hidden" &&
  hasAny tokenWords (Text.lower (t.get "name"))

def unprotectedForms (d : Document) : List Hit :=
  ((d.named ["form"]).filter fun s =>
    s.tag.keyword "method" == "post" && !s.inside.any (isTokenField ·.tag)).map (·.tag.hit)

/-! ## Performance -/

def blockingScript (t : Tag) : Option Hit :=
  let src := t.get "src"
  if src.isEmpty || !t.isExecutable || t.keyword "type" == "module" || t.has "async" ||
      t.has "defer" then none
  else
    some { line := t.line
           title := some "Render-blocking script"
           description := some ("Script " ++ src ++
             " is loaded without async or defer and blocks parsing.") }

def blockingStyle (t : Tag) : Option Hit :=
  if !t.isStylesheetLink || t.has "media" then none
  else
    some { line := t.line
           severity := some .low
           title := some "Stylesheet without media query"
           description := some ("Stylesheet " ++ t.get "href" ++
             " has no media attribute and blocks rendering for every media type.") }

def blockingAssets (d : Document) : List Hit :=
  (d.named ["script", "link"]).filterMap fun s =>
    if s.tag.name == "script" then blockingScript s.tag else blockingStyle s.tag

def modernImages : List String := [".webp", ".avif", ".svg"]

def optimizedWords : List String := ["optimized", "compressed"]

/-- An image in an old format without other sources. -/
def isPlainImage (s : Site) : Bool :=
  let src := Text.strip (s.tag.get "src")
  let path := Text.lower (String.ofList (Text.upTo '#' (Text.upTo '?' src.toList)))
  !src.isEmpty && !Text.startsWith (Text.lower src) "data:" && !s.tag.has "srcset" &&
  !s.isWithin "picture" && !modernImages.any (Text.endsWith path) && !hasAny optimizedWords path

def plainImages (d : Document) : List Hit :=
  ((d.named ["img"]).filter isPlainImage).map fun s =>
    s.tag.hit (some ("Image " ++ Text.strip (s.tag.get "src") ++
      " is served in a legacy format without responsive sources."))

/-! ## Accessibility -/

def missingAlternatives (d : Document) : List Hit :=
  ((d.named ["img"]).filter fun s => !s.tag.has "alt").map fun s =>
    let src := s.tag.get "src"
    s.tag.hit (some ("Image " ++ (if src.isEmpty then "(no src)" else src) ++
      " has no alt attribute."))

def hasName (t : Tag) : Bool :=
  ["aria-label", "aria-labelledby", "title"].any fun a => !Text.isAllBlank (t.get a)

def unlabelledTypes : List String := ["hidden", "submit", "button", "reset", "image"]

def labelledIds (d : Document) : List String :=
  ((d.named ["label"]).map (·.tag.get "for")).filter (!·.isEmpty)

def lacksLabel (ids : List String) (s : Site) : Bool :=
  !(s.tag.name == "input" && unlabelledTypes.contains (Text.lower (s.tag.get "type"))) &&
  !hasName s.tag && !ids.contains (s.tag.get "id") && !s.isWithin "label"

def fieldLabel (t : Tag) : String :=
  let name := t.get "name"
  if name.isEmpty then "<" ++ t.name ++ ">" else "<" ++ t.name ++ " name=" ++ Text.quote name ++ ">"

def unlabelledFields (d : Document) : List Hit :=
  let ids := d.labelledIds
  ((d.named ["input", "select", "textarea"]).filter (lacksLabel ids)).map fun s =>
    s.tag.hit (some (fieldLabel s.tag ++ " has no associated label."))

def lacksCaption (s : Site) : Bool :=
  !s.hasText && !hasName s.tag &&
  !s.inside.any fun i => i.tag.name == "img" && !Text.isAllBlank (i.tag.get "alt")

def unlabelledButtons (d : Document) : List Hit :=
  ((d.named ["button"]).filter lacksCaption).map (·.tag.hit)

/-! ## Search engines -/

def missingTitle (d : Document) : List Hit :=
  if ((d.named ["title"]).head?).any (·.hasText) then [] else [pageHit]

def missingSummary (d : Document) : List Hit :=
  if (d.named ["meta"]).any (·.tag.keyword "name" == "description") then [] else [pageHit]

def extraHeadings (d : Document) : List Hit :=
  let headings := d.named ["h1"]
  match headings with
  | _ :: second :: _ =>
    [second.tag.hit (some ("The page has " ++ toString headings.length ++ " <h1> elements."))]
  | _ => []

end Document

end WebAudit.Markup
