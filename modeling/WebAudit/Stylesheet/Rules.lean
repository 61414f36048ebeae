import WebAudit.Finding.Detector

/-!
# Rules for stylesheets
-/

namespace WebAudit.Stylesheet.Rules

def universalSelector : Rule where
  id := "universal-selector"
  concern := .performance
  severity := .medium
  title := "Universal selector"
  description := "A rule uses the universal selector *."
  impact := "Universal selectors match every element and slow down style recalculation."
  recommendation := "Target specific elements or classes instead of *."
  tags := ["selectors"]

def deepSelector : Rule where
  id := "deep-selector"
  concern := .performance
  severity := .medium
  title := "Overly deep selector"
  description := "A selector chains many child combinators."
  impact := "Deep selectors are slow to match and tightly coupled to markup structure."
  recommendation := "Use a class on the target element instead of a long chain."
  tags := ["selectors"]

def stackedBoxShadow : Rule where
  id := "stacked-box-shadow"
  concern := .performance
  severity := .low
  title := "Many stacked box shadows"
  description := "A box-shadow stacks many shadows."
  impact := "Each shadow layer adds paint cost, especially during animation."
  recommendation := "Reduce the number of shadow layers."
  tags := ["rendering"]

def fixedPosition : Rule where
  id := "fixed-position"
  concern := .performance
  severity := .low
  title := "Fixed positioning"
  description := "An element uses position: fixed."
  impact := "Fixed elements are repainted on scroll and can hurt scrolling performance."
  recommendation := "Prefer position: sticky where possible, and keep fixed elements small."
  tags := ["rendering"]

def duplicateSelector : Rule where
  id := "duplicate-selector"
  concern := .quality
  severity := .medium
  title := "Duplicate selector"
  description := "The same selector is defined more than once."
  impact := "Split definitions make it hard to know which declarations win."
  recommendation := "Merge the declarations into a single rule."
  tags := ["maintainability"]

def importantOverride : Rule where
  id := "important-override"
  concern := .quality
  severity := .medium
  title := "Use of !important"
  description := "A declaration is marked !important."
  impact := "!important breaks the cascade and leads to specificity wars."
  recommendation := "Increase selector specificity or restructure the rules instead."
  remediation := Step.numbered
    [("Remove !important",
      "Find which rule overrides this one and fix the ordering.", none)]
  tags := ["specificity"]

def vendorPrefixOnly : Rule where
  id := "vendor-prefix-only"
  concern := .quality
  severity := .low
  title := "Vendor prefix without standard property"
  description := "A vendor-prefixed property is used without its standard form."
  impact := "Browsers that dropped the prefix ignore the declaration."
  recommendation := "Add the unprefixed property after the prefixed one."
  remediation := Step.numbered
    [("Add the standard property",
      "Declare the standard form after the prefixed one.",
      some ".box \x7b\n  -webkit-transform: rotate(5deg);\n  transform: rotate(5deg);\n\x7d")]
  tags := ["compatibility"]

def focusIndicatorRemoved : Rule where
  id := "focus-indicator-removed"
  concern := .accessibility
  severity := .high
  title := "Focus indicator removed"
  description := "The focus outline is removed without a replacement."
  impact := "Keyboard users cannot see which element has focus."
  recommendation := "Provide a visible alternative focus style."
  remediation := Step.numbered
    [("Restore a focus style",
      "Use :focus-visible with a clear outline or shadow.",
      some "button:focus-visible \x7b\n  outline: 2px solid #1a73e8;\n\x7d")]
  tags := ["keyboard", "wcag"]

def lowContrastColor : Rule where
  id := "low-contrast-color"
  concern := .accessibility
  severity := .medium
  title := "Possible low contrast text color"
  description := "A very light text color is used."
  impact := "Low-contrast text is hard to read for users with low vision."
  recommendation := "Check the color pair against WCAG contrast ratios."
  tags := ["contrast", "wcag"]

def smallFontSize : Rule where
  id := "small-font-size"
  concern := .accessibility
  severity := .medium
  title := "Small font size"
  description := "Text is set in a very small font size."
  impact := "Small text is hard to read, especially on mobile devices."
  recommendation := "Use at least 14px (10.5pt), preferably in relative units."
  tags := ["readability", "wcag"]

end WebAudit.Stylesheet.Rules
