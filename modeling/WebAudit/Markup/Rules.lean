import WebAudit.Finding.Detector

/-!
# Rules for pages
-/

namespace WebAudit.Markup.Rules

def missingCsp : Rule where
  id := "missing-csp"
  concern := .security
  severity := .high
  title := "Missing Content Security Policy"
  description :=
    "The page declares no Content-Security-Policy, neither in a meta tag nor in the response " ++
      "headers."
  impact := "Without a CSP, injected scripts run with full page privileges."
  recommendation := "Serve a Content-Security-Policy header restricting script sources."
  remediation := Step.numbered
    [("Add a policy",
      "Start with a restrictive policy and relax it as needed.",
      some "<meta http-equiv=\"Content-Security-Policy\" content=\"default-src 'self'\">")]
  tags := ["csp", "xss"]

def inlineScript : Rule where
  id := "inline-script"
  concern := .security
  severity := .medium
  title := "Inline script"
  description := "JavaScript is embedded directly in the page."
  impact := "Inline scripts prevent a strict Content Security Policy."
  recommendation := "Move scripts to external files."
  tags := ["csp"]

def javascriptUrl : Rule where
  id := "javascript-url"
  concern := .security
  severity := .high
  title := "javascript: URL"
  description := "A link executes JavaScript through a javascript: URL."
  impact := "javascript: URLs are a common script injection vector."
  recommendation := "Use a button with an event listener instead."
  remediation := Step.numbered
    [("Replace the link",
      "Attach behaviour with addEventListener.",
      some "<button type=\"button\" id=\"open\">Open</button>")]
  tags := ["xss"]

def formMissingCsrf : Rule where
  id := "form-missing-csrf"
  concern := .security
  severity := .medium
  title := "Form without CSRF token"
  description := "A POST form has no hidden CSRF token field."
  impact := "Other sites can submit the form on behalf of logged-in users."
  recommendation := "Include a per-session CSRF token in every state-changing form."
  tags := ["csrf"]

def renderBlockingAsset : Rule where
  id := "render-blocking-asset"
  concern := .performance
  severity := .medium
  title := "Render-blocking asset"
  description := "An external asset blocks page rendering."
  impact := "Blocking assets delay the first paint of the page."
  recommendation := "Load scripts with defer or async, and scope stylesheets with media."
  tags := ["loading"]

def unoptimizedImage : Rule where
  id := "unoptimized-image"
  concern := .performance
  severity := .low
  title := "Unoptimized image"
  description := "An image is served in a legacy format."
  impact := "Legacy image formats are larger and slow down page loads."
  recommendation := "Serve WebP or AVIF, or offer responsive sources with srcset."
  remediation := Step.numbered
    [("Offer a modern format",
      "Let the browser pick the best supported source.",
      some ("<picture>\n  <source srcset=\"hero.webp\" type=\"image/webp\">\n  <img " ++
              "src=\"hero.jpg\" alt=\"Hero\">\n</picture>"))]
  tags := ["images"]

def missingAltText : Rule where
  id := "missing-alt-text"
  concern := .accessibility
  severity := .high
  title := "Image without alt text"
  description := "An image has no alt attribute."
  impact := "Screen reader users get no description of the image."
  recommendation := "Add a descriptive alt attribute, or alt=\"\" for decorative images."
  tags := ["images", "wcag"]

def unlabelledInput : Rule where
  id := "unlabelled-input"
  concern := .accessibility
  severity := .medium
  title := "Form field without label"
  description := "A form field has no associated label."
  impact := "Screen reader users cannot tell what the field is for."
  recommendation := "Associate a <label for=...> or add aria-label."
  remediation := Step.numbered
    [("Add a label",
      "Reference the field id from a label element.",
      some "<label for=\"email\">Email</label>\n<input id=\"email\" type=\"email\">")]
  tags := ["forms", "wcag"]

def unlabelledButton : Rule where
  id := "unlabelled-button"
  concern := .accessibility
  severity := .high
  title := "Button without accessible name"
  description := "A button has neither text nor an aria-label."
  impact := "Assistive technology announces the button without a purpose."
  recommendation := "Give the button visible text or an aria-label."
  tags := ["forms", "wcag"]

def missingTitle : Rule where
  id := "missing-title"
  concern := .seo
  severity := .high
  title := "Missing page title"
  description := "The document has no <title>."
  impact := "Search results show no meaningful title for the page."
  recommendation := "Add a concise, descriptive <title> to the head."
  tags := ["metadata"]

def missingMetaDescription : Rule where
  id := "missing-meta-description"
  concern := .seo
  severity := .medium
  title := "Missing meta description"
  description := "The document has no <meta name=\"description\">."
  impact := "Search engines generate their own, often poor, snippet."
  recommendation := "Add a meta description summarizing the page."
  tags := ["metadata"]

def multipleH1 : Rule where
  id := "multiple-h1"
  concern := .seo
  severity := .medium
  title := "Multiple h1 headings"
  description := "The document has more than one <h1>."
  impact := "Multiple top-level headings blur the page's main topic."
  recommendation := "Keep a single <h1> and use <h2>-<h6> below it."
  tags := ["headings"]

end WebAudit.Markup.Rules
