import WebAudit.Concern
import WebAudit.Digest.Sha256

/-!
# Findings

A finding is one reported problem at a place in a file. Its id is made of the rule and of a digest
of path, rule and line; a salt tells apart findings that agree on all three.
-/

namespace WebAudit

/-- One step of the advice how to remedy a problem. -/
structure Step where
  number : Nat
  title : String
  description : String
  sample : Option String := none
deriving DecidableEq, Repr, Inhabited

def Step.numbered (items : List (String × String × Option String)) : List Step :=
  items.zipIdx.map fun ((title, description, sample), i) => ⟨i + 1, title, description, sample⟩

inductive Status where
  | unresolved
  | inProgress
  | resolved
  | closed
deriving DecidableEq, Repr, Inhabited

def Status.name : Status → String
  | unresolved => "open"
  | inProgress => "in-progress"
  | resolved => "resolved"
  | closed => "closed"

structure Finding where
  id : String
  ruleId : String
  title : String
  description : String
  severity : Severity
  concern : Concern
  path : String
  line : Int := 1
  endLine : Option Int := none
  column : Option Int := none
  endColumn : Option Int := none
  snippet : String := ""
  impact : String := ""
  recommendation : String := ""
  remediation : List Step := []
  /-- In the order of code points, each once. -/
  tags : List String := []
  status : Status := .unresolved
deriving DecidableEq, Repr, Inhabited

namespace Finding

def idDigits : Nat := 16

def key (path ruleId : String) (line : Int) (salt : String) : String :=
  let key := path ++ "\x00" ++ ruleId ++ "\x00" ++ toString line
  if salt.isEmpty then key else key ++ "\x00" ++ salt

def digest (key : String) : String :=
  String.ofList ((Digest.Sha256.hex key.toUTF8.toList).take idDigits)

def makeId (path ruleId : String) (line : Int) (salt : String := "") : String :=
  ruleId ++ "-" ++ digest (key path ruleId line salt)

end Finding

def insertTag (tag : String) : List String → List String
  | [] => [tag]
  | t :: ts =>
    if tag < t then tag :: t :: ts else if tag = t then t :: ts else t :: insertTag tag ts

def sortTags (tags : List String) : List String :=
  tags.foldr insertTag []

end WebAudit
