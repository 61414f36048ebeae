import WebAudit.LineRules
import WebAudit.Markup.Detectors
import WebAudit.Script.Detectors
import WebAudit.Stylesheet.Detectors

/-!
# All rules for single records

Rules can be looked up by id, in all of them or in one of the groups.
-/

namespace WebAudit.Catalogue

inductive Group where
  | script
  | stylesheet
  | markup
  | lines
deriving DecidableEq, Repr, Inhabited

namespace Group

def all : List Group := [script, stylesheet, markup, lines]

/-- The rules of a group in the order in which their detectors run. -/
def rules : Group → List Rule
  | script => Script.detectors.map (·.rule)
  | stylesheet => Stylesheet.detectors.map (·.rule)
  | markup => Markup.detectors.map (·.rule)
  | lines => LineRules.rules

/-- Whether the rules of a group need the parsed form of a record. -/
def isStructural : Group → Bool
  | lines => false
  | _ => true

def find? (g : Group) (id : String) : Option Rule :=
  g.rules.find? (·.id == id)

end Group

def find? (id : String) : Option (Group × Rule) :=
  Group.all.findSome? fun g => (g.find? id).map (g, ·)

/-- The rules that judge the parsed form of records of a kind. -/
def structural : ContentKind → List Rule
  | .script => Group.script.rules
  | .stylesheet => Group.stylesheet.rules
  | .markup => Group.markup.rules
  | _ => []

/-- The rules that judge the lines of records of a kind. -/
def lexical (kind : ContentKind) : List Rule :=
  (LineRules.detectors Empty 0 kind).map (·.rule)

end WebAudit.Catalogue
