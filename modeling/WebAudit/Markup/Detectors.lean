import WebAudit.Markup.Checks
import WebAudit.Markup.Rules

/-!
# Detectors for pages
-/

namespace WebAudit.Markup

def detector (rule : Rule) (check : Document → List Hit) : Detector Document :=
  ⟨rule, .structural fun document _ => { hits := check document }⟩

/-- All detectors for pages, in the order in which they run. -/
def detectors : List (Detector Document) :=
  [⟨Rules.missingCsp, .structural fun document record =>
     { hits := document.missingPolicy record }⟩,
   detector Rules.inlineScript (·.inlineScripts),
   detector Rules.javascriptUrl (·.scriptAddresses),
   detector Rules.formMissingCsrf (·.unprotectedForms),
   detector Rules.renderBlockingAsset (·.blockingAssets),
   detector Rules.unoptimizedImage (·.plainImages),
   detector Rules.missingAltText (·.missingAlternatives),
   detector Rules.unlabelledInput (·.unlabelledFields),
   detector Rules.unlabelledButton (·.unlabelledButtons),
   detector Rules.missingTitle (·.missingTitle),
   detector Rules.missingMetaDescription (·.missingSummary),
   detector Rules.multipleH1 (·.extraHeadings)]

end WebAudit.Markup
