import WebAudit.Stylesheet.Checks
import WebAudit.Stylesheet.Rules

/-!
# Detectors for stylesheets
-/

namespace WebAudit.Stylesheet

def detector (rule : Rule) (check : StyleRule → List Hit) : Detector Document :=
  ⟨rule, .structural fun document _ => { hits := document.rules.flatMap check }⟩

def detectors : List (Detector Document) :=
  [detector Rules.universalSelector (·.universalSelector),
   detector Rules.deepSelector (·.deepSelectors),
   detector Rules.stackedBoxShadow (·.stackedShadows),
   detector Rules.fixedPosition (·.fixedPositions),
   ⟨Rules.duplicateSelector, .structural fun document record =>
     { hits := document.duplicateSelectors record }⟩,
   detector Rules.importantOverride (·.importantOverrides),
   detector Rules.vendorPrefixOnly (·.vendorOnly),
   detector Rules.focusIndicatorRemoved (·.focusRemoved),
   detector Rules.lowContrastColor (·.lightColors),
   detector Rules.smallFontSize (·.smallFonts)]

end WebAudit.Stylesheet
