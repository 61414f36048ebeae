import WebAudit.Markup.Event

/-!
# The tree of a page

Events are put together to a tree. An end tag closes everything up to the innermost open element of
its name, and nothing is closed without one, except the elements that never hold anything.
-/

namespace WebAudit.Markup

/-- What a piece of text counts as. -/
inductive TextRole where
  /-- Text that is shown. -/
  | plain
  /-- Text that belongs to an element with content of its own kind. -/
  | inside (element : String)
  /-- A comment, a declaration or a processing instruction. -/
  | hidden
deriving DecidableEq, Repr, Inhabited

inductive Node where
  | text (role : TextRole) (content : List Char)
  | element (tag : Tag) (children : List Node)
deriving Repr, Inhabited

def voidElements : List String :=
  ["area", "base", "br", "col", "embed", "hr", "img", "input", "keygen", "link", "menuitem", "meta",
   "param", "source", "track", "wbr", "basefont", "bgsound", "command", "frame", "image", "isindex",
   "nextid", "spacer"]

/-- Elements whose text is not part of the text around them. -/
def textHolders : List String := ["rt", "rp", "style", "script", "template"]

/-! ## Building -/

/-- An element that is still open, with its children so far, latest first. -/
structure OpenElement where
  tag : Tag
  children : List Node := []
deriving Inhabited

structure Builder where
  /-- Innermost first. -/
  stack : List OpenElement := []
  /-- The nodes outside any open element, latest first. -/
  roots : List Node := []
  /-- Text that may still grow, latest character first. -/
  pending : List Char := []
  /-- Void elements that were closed at once and may still get an end tag. -/
  closedEarly : List String := []
deriving Inhabited

namespace Builder

def add (b : Builder) (n : Node) : Builder :=
  match b.stack with
  | top :: rest => { b with stack := { top with children := n :: top.children } :: rest }
  | [] => { b with roots := n :: b.roots }

def role (b : Builder) : TextRole :=
  match b.stack.find? fun e => textHolders.contains e.tag.name with
  | some e => .inside e.tag.name
  | none => .plain

def flush (b : Builder) : Builder :=
  if b.pending.isEmpty then b
  else { b with pending := [] }.add (.text b.role b.pending.reverse)

def pop (b : Builder) : Builder :=
  match b.stack with
  | top :: rest => { b with stack := rest }.add (.element top.tag top.children.reverse)
  | [] => b

def popMany (b : Builder) : Nat → Builder
  | 0 => b
  | n + 1 => b.pop.popMany n

/-- Closes everything up to the innermost open element of a name, if there is one. -/
def close (b : Builder) (name : String) : Builder :=
  let b := b.flush
  match b.stack.findIdx? (·.tag.name == name) with
  | some i => b.popMany (i + 1)
  | none => b

/-- An end tag; one that belongs to an element closed early changes nothing. -/
def endTag (b : Builder) (name : String) : Builder :=
  if b.closedEarly.contains name then { b with closedEarly := b.closedEarly.erase name }
  else b.close name

def push (b : Builder) (tag : Tag) : Builder :=
  let b := b.flush
  { b with stack := { tag } :: b.stack }

def take (b : Builder) : Event → Builder
  | .opened tag selfClosing =>
    let b := b.push tag
    if selfClosing then b.endTag tag.name
    else if voidElements.contains tag.name then
      let b := b.close tag.name
      { b with closedEarly := tag.name :: b.closedEarly }
    else b
  | .closed name => b.endTag name
  | .text cs => { b with pending := cs.reverse ++ b.pending }
  | .section cs => b.flush.add (.text .plain cs)
  | .hidden => b.flush.add (.text .hidden [])

/-- The finished tree: everything that is open ends. -/
def nodes (b : Builder) : List Node :=
  let b := b.flush
  (b.popMany b.stack.length).roots.reverse

end Builder

def nodesOf (events : List Event) : List Node :=
  (events.foldl Builder.take {}).nodes

end WebAudit.Markup
