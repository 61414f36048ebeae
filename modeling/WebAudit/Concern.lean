/-!
# Concerns and severities

Every finding belongs to one concern and has one severity. A run selects concerns by toggles.
-/

namespace WebAudit

inductive Severity where
  | critical
  | high
  | medium
  | low
deriving DecidableEq, Repr, Inhabited

namespace Severity

def name : Severity → String
  | critical => "critical"
  | high => "high"
  | medium => "medium"
  | low => "low"

def all : List Severity := [critical, high, medium, low]

def ofName? (s : String) : Option Severity :=
  all.find? (·.name == s)

end Severity

inductive Concern where
  | security
  | performance
  | quality
  | documentation
  | accessibility
  | seo
deriving DecidableEq, Repr, Inhabited

namespace Concern

def name : Concern → String
  | security => "security"
  | performance => "performance"
  | quality => "quality"
  | documentation => "documentation"
  | accessibility => "accessibility"
  | seo => "seo"

def all : List Concern :=
  [security, performance, quality, documentation, accessibility, seo]

def ofName? (s : String) : Option Concern :=
  all.find? (·.name == s)

end Concern

/-- Which concerns a run reports. -/
structure Toggles where
  security : Bool := true
  performance : Bool := true
  quality : Bool := true
  documentation : Bool := true
  accessibility : Bool := false
  seo : Bool := false
deriving DecidableEq, Repr, Inhabited

namespace Toggles

def allOn : Toggles :=
  ⟨true, true, true, true, true, true⟩

def isEnabled (t : Toggles) : Concern → Bool
  | .security => t.security
  | .performance => t.performance
  | .quality => t.quality
  | .documentation => t.documentation
  | .accessibility => t.accessibility
  | .seo => t.seo

def set (t : Toggles) (c : Concern) (b : Bool) : Toggles :=
  match c with
  | .security => { t with security := b }
  | .performance => { t with performance := b }
  | .quality => { t with quality := b }
  | .documentation => { t with documentation := b }
  | .accessibility => { t with accessibility := b }
  | .seo => { t with seo := b }

theorem isEnabled_allOn (c : Concern) : allOn.isEnabled c = true := by
  cases c <;> rfl

end Toggles

end WebAudit
