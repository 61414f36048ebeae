import WebAudit.Script.Source

/-!
# Repair of malformed scripts

Where reading gets stuck at a token there are three ways on. A token can be inserted that completes
what was begun. The latest nodes can be put aside as an error, as few as make the token fit. Or the
token itself is put aside with them, and the next one is tried. Every repair has a cost, each way is
read on from, and the cheapest that is not outlived by another is kept.
-/

namespace WebAudit.Script

/-! ## Costs -/

namespace Cost

def error : Nat := 500
def missing : Nat := 610
def perNode : Nat := 100
def perLine : Nat := 30

/-- A cheaper repair displaces another once the difference, weighed by the nodes read since,
exceeds this. -/
def displacing : Nat := 1800

end Cost

mutual
/-- What the errors and missing tokens of a subtree cost. -/
def Node.cost : Node → Nat
  | .mk label children =>
    if label.missing then Cost.missing
    else if label.kind == .error then
      Cost.error + label.span.width + Cost.perLine * (label.span.stop.row - label.span.start.row)
        + Cost.perNode * children.countP (fun n => n.kind != .comment && n.kind != .error)
        + costAll children
    else costAll children

def Node.costAll : List Node → Nat
  | [] => 0
  | n :: ns => n.cost + costAll ns
end

/-- A set of changes to the text: stretches put aside as errors, and tokens inserted at places. -/
structure Patch where
  holes : List Hole := []
  inserts : List (Nat × Kind) := []

def Patch.cost (p : Patch) : Nat :=
  Node.costAll (p.holes.map (·.error)) + Cost.missing * p.inserts.length

/-! ## Tokens in isolation -/

namespace Lexeme

def punctuation : List String :=
  [">>>=", "...", "===", "!==", "**=", "<<=", ">>=", ">>>", "&&=", "||=", "??=", "=>", "==", "!=",
   "<=", ">=", "&&", "||", "??", "?.", "++", "--", "+=", "-=", "*=", "/=", "%=", "^=", "&=", "|=",
   "<<", ">>", "**", "\x7b", "\x7d", "(", ")", "[", "]", ";", ",", "<", ">", "+", "-", "*", "/",
   "%", "&", "|", "^", "!", "~", "?", ":", "=", ".", "@", "'", "\"", "`", "#"]

/-- The token that text starts with, wherever it stands. -/
def anyToken (cs : List Char) : Option (Kind × List Char × List Char) :=
  match name cs with
  | some (w, rest) =>
    let word := String.ofList w
    some (if Grammar.reserved.contains word then .token word else .identifier, w, rest)
  | none =>
    match if cs.head?.any Char.isDigit then number cs else none with
    | some (w, rest) => some (.number, w, rest)
    | none =>
      match punctuation.find? (startsWith · cs) with
      | some p => some (.token p, p.toList, cs.drop p.length)
      | none =>
        match cs with
        | c :: rest => some (.error, [c], rest)
        | [] => none

end Lexeme

/-- Tokens put aside, with the comments between them. -/
structure Skipped where
  /-- The latest first. -/
  tokens : List Node := []
  state : State

def Skipped.next (set : Setting) (s : Skipped) : Option Skipped :=
  let t := s.state.toToken set
  (Lexeme.anyToken t.rest).map fun (kind, text, rest) =>
    let point := t.point.walk text
    ⟨.leaf kind (.between t.point point) :: s.tokens, { t with rest, point }⟩

def Skipped.offset (set : Setting) (s : Skipped) : Nat :=
  (s.state.toToken set).point.byte

/-! ## What can be put aside -/

/-- The latest nodes of a stack. -/
structure Tail where
  /-- In the order of the text. -/
  nodes : List Node
  /-- The rest of the stack. -/
  below : List Node
  extras : List Node
  /-- The end of the node in front was wanted. -/
  pending : Bool := false

/-- At most so many nodes are put aside. -/
def maxTail : Nat := 16

/-- A node and what it was made of last, the latest first: the parts of its last part come first. -/
def Node.parts : Nat → Node → List (List Node)
  | 0, n => [[n]]
  | fuel + 1, n =>
    match n.children.reverse with
    | [] => [[n]]
    | last :: front =>
      if n.kind.isItem || n.kind.isQuoted then [[n]]
      else (parts fuel last).map (· ++ front) ++ [[n]]

def Stall.tailsOf (stall : Stall) (depth : Nat) (stack : List Node) : Option Tail :=
  if depth ≤ stack.length then
    some ⟨(stack.take depth).reverse, stack.drop depth, stall.extras, false⟩
  else none

def Stall.wantsEnd (stall : Stall) : Bool :=
  stall.wanted == .token ";"

/-- The stacks that can have stood before the nodes on top were complete. An item whose end was
wanted was not complete. -/
def Stall.stacks (stall : Stall) : List (List Node) :=
  match stall.stack with
  | [] => [[]]
  | top :: below =>
    let parts := match top.children.reverse with
      | last :: front =>
        if stall.wantsEnd then (last.parts maxTail).map (· ++ front) ++ [[top]]
        else top.parts maxTail
      | [] => [[top]]
    parts.map (· ++ below)

def Tail.start (t : Tail) : Option Nat :=
  t.nodes.head?.map (·.span.start.byte)

def Tail.distinctFrom (seen : List (Option Nat)) : List Tail → List Tail
  | [] => []
  | t :: tails =>
    if seen.contains t.start then distinctFrom seen tails
    else t :: distinctFrom (t.start :: seen) tails

def Tail.distinct (tails : List Tail) : List Tail :=
  distinctFrom [] tails

def Reach.tails (r : Reach) : List Tail :=
  let candidates := r.stalls.reverse.flatMap fun stall => stall.stacks.map (stall, ·)
  Tail.distinct <| (List.range maxTail).flatMap fun d =>
    candidates.filterMap fun (stall, stack) => stall.tailsOf (d + 1) stack

/-- Whether a tail is an unfinished item after another item of the same list. -/
def Tail.isItemRest (t : Tail) : Bool :=
  t.below.head?.any (·.kind.isItem) && t.nodes.all (!·.kind.isItem)

/-! ## Trials -/

/-- A patch and how far reading comes under it. -/
structure Trial where
  patch : Patch
  cost : Nat
  outcome : Outcome Unit
  /-- How many nodes were read since the repair. -/
  nodes : Nat

def Trial.stop (t : Trial) : Option Nat :=
  match t.outcome with
  | .ok .. => none
  | .stuck reach => some reach.offset

def Trial.passes (t : Trial) (offset : Nat) : Bool :=
  t.stop.all (offset < ·)

/-- A text under repair, and the place where it is stuck. -/
structure Repair where
  dialect : Dialect
  text : List Char
  patch : Patch
  reach : Reach

namespace Repair

def setting (r : Repair) : Setting :=
  { dialect := r.dialect, limit := r.text.length + 1, holes := r.patch.holes }

def readNodes (offset : Nat) (stack : List Node) : Nat :=
  Node.sizeAll (stack.takeWhile (offset ≤ ·.span.start.byte))

def trial (r : Repair) (patch : Patch) : Trial :=
  let set : Setting := { r.setting with holes := patch.holes }
  let outcome := readProgram set patch.inserts r.text
  let nodes := match outcome with
    | .ok _ s => readNodes r.reach.offset s.stack
    | .stuck reach => ((reach.stalls.map fun s => readNodes r.reach.offset s.stack).max?).getD 0
  ⟨patch, patch.cost, outcome, nodes⟩

/-- Kinds that complete a construct when they are inserted, in the order in which they are tried. -/
def insertable : List Kind :=
  [.identifier, .propertyName, .typeName, .token "\x7d", .token ")", .token "]", .token ";"]

/-- The first token whose insertion lets reading pass. -/
def insertion (r : Repair) : Option (Kind × Trial) :=
  let wanted := insertable.flatMap fun k =>
    ((r.reach.stalls.filter (·.wanted == k)).map (·.stop.byte)).eraseDups.map (·, k)
  wanted.findSome? fun (place, kind) =>
    let t := r.trial { r.patch with inserts := (place, kind) :: r.patch.inserts }
    if t.passes r.reach.offset then some (kind, t) else none

/-- The error made of a tail and the tokens put aside after it; it takes in an error that stands
right before. -/
def hole (r : Repair) (tail : Tail) (skipped : Skipped) : Option Patch :=
  let nodes := tail.nodes ++ skipped.tokens.reverse
  match nodes.head?, nodes.getLast? with
  | some first, some last =>
    let floor := (tail.below.head?.map (·.span.stop.byte)).getD 0
    let before := r.patch.holes.find? fun h =>
      floor ≤ h.error.span.start.byte && h.error.span.stop.byte ≤ first.span.start.byte
    let start := (before.map (·.error.span.start)).getD first.span.start
    let closed := (before.map (·.closed)).getD
      (tail.below.head?.any (·.kind.isItem) && !tail.pending)
    let nodes := (before.map (·.error.children)).getD [] ++ nodes
    let span := Span.between start last.span.stop
    let inside (n : Node) : Bool := span.covers n.span
    let extras := (skipped.state.extras ++ tail.extras).filter fun e =>
      inside e && !before.any (·.error.span == e.span)
    let error := extras.foldl (fun node extra => Node.attach extra node) (.branch .error span nodes)
    some { r.patch with
      holes := ⟨error, closed⟩ :: r.patch.holes.filter (!inside ·.error)
      inserts := r.patch.inserts.filter fun (place, _) =>
        place < start.byte || last.span.stop.byte < place }
  | _, _ => none

/-- The shortest tail that lets the token after the skipped ones fit. -/
def recovery (r : Repair) (tails : List Tail) (skipped : Skipped) : Option Trial :=
  let offset := skipped.offset r.setting
  let atEnd := (skipped.state.toToken r.setting).rest.isEmpty
  tails.findSome? fun tail =>
    (r.hole tail skipped).bind fun patch =>
      let t := r.trial patch
      if t.stop.all fun stop => !atEnd && offset < stop then some t else none

def skipCost (r : Repair) (skipped : Skipped) : Nat :=
  match skipped.tokens.reverse.head?, skipped.tokens.head? with
  | some first, some last =>
    r.patch.cost + (Node.branch .error (.between first.span.start last.span.stop) skipped.tokens).cost
  | _, _ => 0

/-- Puts token after token aside, as long as no way on is cheaper. -/
def recoveries (r : Repair) (tails : List Tail) : Nat → Skipped → List Trial → List Trial
  | 0, _, found => found
  | fuel + 1, skipped, found =>
    let offset := skipped.offset r.setting
    if found.any fun t => t.cost < r.skipCost skipped && t.passes offset then found
    else
      let found := found ++ (r.recovery tails skipped).toList
      match skipped.next r.setting with
      | some skipped => recoveries r tails fuel skipped found
      | none => found

def trials (r : Repair) : List Trial :=
  let start : State := { rest := r.text }
  let (rest, point) := State.skipBytes r.reach.offset r.text {}
  let skipped : Skipped := { state := { start with rest, point } }
  let inserted := r.insertion
  let ends := inserted.any (·.1 == .token ";")
  let tails := r.reach.tails.filter fun t => !(ends && t.isItemRest)
  let stall := r.reach.stalls.head?
  let nothing : Tail := ⟨[], (stall.map Stall.stack).getD [], [], stall.any Stall.wantsEnd⟩
  r.recoveries (nothing :: tails) (r.text.length + 1) skipped (inserted.toList.map (·.2))

/-- The cheapest trial that displaces all those that come further. -/
def best (trials : List Trial) : Option Trial :=
  let sorted := trials.mergeSort fun a b => a.cost ≤ b.cost
  sorted.find? fun t =>
    match t.stop with
    | .none => true
    | some stop =>
      sorted.all fun u =>
        !u.passes stop || Cost.displacing < (u.cost - t.cost) * (t.nodes + 1)

/-- A tree that is one error over the whole text. -/
def broken (r : Repair) : Node :=
  let stop := Point.walk {} r.text
  let stack := (r.reach.stalls.head?.map fun s => s.stack.reverse).getD []
  .branch .error (.between {} stop) stack

def finish : Nat → Repair → Node
  | 0, r => r.broken
  | fuel + 1, r =>
    match best r.trials with
    | none => r.broken
    | some t =>
      match t.outcome with
      | .ok _ s => s.tree
      | .stuck reach => finish fuel { r with patch := t.patch, reach }

end Repair

/-- Parses a text; a malformed one is repaired. -/
def Source.parse (dialect : Dialect) (source : String) : Source :=
  let text := source.toList
  let set : Setting := { dialect, limit := text.length + 1 }
  match readProgram set [] text with
  | .ok _ s => ⟨dialect, text, s.tree⟩
  | .stuck reach => ⟨dialect, text, Repair.finish (text.length + 1) ⟨dialect, text, {}, reach⟩⟩

end WebAudit.Script
