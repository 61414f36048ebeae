import WebAudit.Script.Performance
import WebAudit.Script.Quality
import WebAudit.Script.Rules

/-!
# Detectors for scripts
-/

namespace WebAudit.Script

def detector (rule : Rule) (check : Source → List Hit) : Detector Source :=
  ⟨rule, .structural fun source _ => { hits := check source }⟩

def detectors : List (Detector Source) :=
  [detector Rules.dynamicEval (·.dynamicEval),
   detector Rules.unsanitizedMarkupWrite (·.markupWrites),
   detector Rules.sqlInjection (·.sqlInjections),
   detector Rules.hardcodedSecret (·.hardcodedSecrets),
   detector Rules.domQueryInLoop (·.queriesInLoops),
   detector Rules.oversizedLiteral (·.largeLiterals),
   detector Rules.unclearedInterval (·.unpaired "setInterval" "clearInterval"),
   detector Rules.unremovedListener (·.unpaired "addEventListener" "removeEventListener"),
   detector Rules.highComplexity (·.complexFunctions),
   detector Rules.highAverageComplexity (·.averageComplexity),
   detector Rules.excessParameters (·.excessParameters),
   detector Rules.legacyDeclaration (·.legacyDeclarations),
   detector Rules.debugStatement (·.debugStatements),
   detector Rules.unhandledAsync (·.unhandledFailures),
   detector Rules.explicitAny (·.explicitAny),
   detector Rules.typeCheckSuppressed (·.suppressedTypes),
   detector Rules.oversizedFile (·.largeFile)]

end WebAudit.Script
