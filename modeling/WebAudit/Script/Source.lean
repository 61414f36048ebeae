import WebAudit.Issue
import WebAudit.Script.Parse
import WebAudit.Text.Blank
import WebAudit.Text.Lines
import WebAudit.Text.Quoted
import WebAudit.Text.Slice

/-!
# Parsed scripts

A script is its text, its language and its tree. Where the text was malformed the tree has nodes for
what was left over and for what is missing; `issues` lists the first of these.
-/

namespace WebAudit.Script

structure Source where
  dialect : Dialect
  text : List Char
  root : Node

namespace Source

def textOf (s : Source) (n : Node) : String :=
  String.ofList (Text.sliceBytes n.span.start.byte n.span.stop.byte s.text)

def hasErrors (s : Source) : Bool :=
  s.root.isDamaged

def sites (s : Source) : List Site :=
  Site.subtree { node := s.root }

def sitesOf (s : Source) (k : Kind) : List Site :=
  s.sites.filter (·.node.kind == k)

/-! ## Issues -/

def maxIssues : Nat := 20

def maxQuoted : Nat := 40

/-- The message for a node that fits no construct: the start of its first line is quoted. -/
def errorMessage (text : String) : String :=
  match Text.lines (Text.strip text) with
  | line :: _ =>
    let start := String.ofList (line.toList.take maxQuoted)
    if start.isEmpty then "Unexpected end of input" else "Unexpected token near " ++ Text.quote start
  | [] => "Unexpected end of input"

def issueAt (n : Node) (message : String) : Issue :=
  ⟨n.span.start.row + 1, some n.span.start.column, message⟩

/-- Notes a missing token or an error, and goes only where there is one below. -/
def visitIssue (s : Source) (n : Node) (_depth : Nat) (found : List Issue) : Bool × List Issue :=
  if maxIssues ≤ found.length then (false, found)
  else if n.isMissing then
    (false, found ++ [issueAt n ("Missing " ++ Text.quote n.kind.spelling)])
  else if n.kind == .error then (false, found ++ [issueAt n (errorMessage (s.textOf n))])
  else (n.isDamaged, found)

/-- The missing tokens and errors, in the order of the text. -/
def issues (s : Source) : List Issue :=
  if s.hasErrors then s.root.walk s.visitIssue [] else []

end Source

end WebAudit.Script
