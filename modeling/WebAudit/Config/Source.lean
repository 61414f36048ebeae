import WebAudit.Config.Invalid
import WebAudit.Json.Value

/-!
# What a run reads

A run reads a directory, an archive or a page. An archive or a page can be handed over instead of
being read from its place.
-/

namespace WebAudit

inductive SourceKind where
  | directory
  | archive
  | page
deriving DecidableEq, Repr, Inhabited

namespace SourceKind

def name : SourceKind → String
  | directory => "directory"
  | archive => "archive"
  | page => "page"

def all : List SourceKind := [directory, archive, page]

def ofName? (s : String) : Option SourceKind :=
  all.find? (·.name == s)

end SourceKind

/-- Material that is handed over. -/
inductive Content where
  | text (s : String)
  | bytes (b : List UInt8)
deriving DecidableEq, Repr, Inhabited

structure Source where
  kind : SourceKind
  /-- A path, or the address of a page. -/
  locator : String := ""
  content : Option Content := none
deriving DecidableEq, Repr, Inhabited

namespace Source

/-- How many fields have no value of the right form; a content of a wrong form is neither of the two
forms it can have, and counts twice. -/
def faults (fields : List (String × Json.Value)) : Nat :=
  let kind := match fields.lookup "kind" with
    | some (.str s) => if (SourceKind.ofName? s).isSome then 0 else 1
    | _ => 1
  let locator := match fields.lookup "locator" with
    | none | some (.str _) => 0
    | _ => 1
  let content := match fields.lookup "content" with
    | none | some .null | some (.str _) => 0
    | _ => 2
  kind + locator + content

def ofFields (fields : List (String × Json.Value)) : Except Nat Source :=
  match (fields.lookup "kind").bind (·.str?) |>.bind SourceKind.ofName?, faults fields with
  | some kind, 0 => .ok {
      kind
      locator := ((fields.lookup "locator").bind (·.str?)).getD ""
      content := ((fields.lookup "content").bind (·.str?)).map .text }
  | _, count => .error count

def faultMessage (count : Nat) : String :=
  "Invalid source specification: " ++ invalidFields count "SourceSpec"

end Source

end WebAudit
