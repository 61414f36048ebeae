import WebAudit.Concern
import WebAudit.Config.Invalid
import WebAudit.Finding.Basic
import WebAudit.Json.Value

/-!
# Toggles from a configuration

A configuration names concerns and switches them on or off. A switch can be written as a truth
value, as one of the numbers zero and one, or as one of a few words in any case.
-/

namespace WebAudit

namespace Json.Value

def onWords : List String := ["1", "on", "t", "true", "y", "yes"]

def offWords : List String := ["0", "off", "f", "false", "n", "no"]

def switch? : Value → Option Bool
  | bool b => some b
  | int n => if n = 0 then some false else if n = 1 then some true else none
  | real (.finite negative m) =>
    if m.mantissa = 0 then some false
    else if !negative && m.same ⟨1, 0⟩ then some true
    else none
  | str s =>
    let word := String.ofList (s.toList.map Char.toLower)
    if onWords.contains word then some true
    else if offWords.contains word then some false
    else none
  | _ => none

end Json.Value

inductive ToggleFault where
  | unknown (names : List String)
  | invalid (count : Nat)
deriving DecidableEq, Repr, Inhabited

def ToggleFault.message : ToggleFault → String
  | unknown names =>
    "Unknown concern toggle(s): " ++ ", ".intercalate names ++ ". Recognized: " ++
      ", ".intercalate (Concern.all.map Concern.name)
  | invalid count => "Invalid concern toggles: " ++ invalidFields count "ConcernToggles"

namespace Toggles

/-- Sets the toggle that a field names, if it names one and its value is a switch. -/
def apply (t : Toggles) (field : String × Json.Value) : Toggles :=
  match Concern.ofName? field.1, field.2.switch? with
  | some concern, some b => t.set concern b
  | _, _ => t

/-- The toggles of a configuration; what it does not name stays at its default. -/
def ofFields (fields : List (String × Json.Value)) : Except ToggleFault Toggles :=
  let unknown := (fields.map (·.1)).filter fun name => (Concern.ofName? name).isNone
  let invalid := fields.countP fun field => field.2.switch?.isNone
  if !unknown.isEmpty then .error (.unknown (sortTags unknown))
  else if invalid ≠ 0 then .error (.invalid invalid)
  else .ok (fields.foldl apply {})

end Toggles

end WebAudit
