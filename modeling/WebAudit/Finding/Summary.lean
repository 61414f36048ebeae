import WebAudit.Finding.Basic

/-!
# Counts of findings
-/

namespace WebAudit

structure Summary where
  total : Nat
  bySeverity : Severity → Nat
  byConcern : Concern → Nat

def summarize (findings : List Finding) : Summary where
  total := findings.length
  bySeverity s := findings.countP (·.severity == s)
  byConcern c := findings.countP (·.concern == c)

end WebAudit
