import WebAudit.Archive.Bits

/-!
# Tables of codes

Each symbol has a code of some length, or none. The codes are numbered in the order of their
lengths, and by symbol among those of one length, so the lengths alone give the table.
-/

namespace WebAudit.Archive

structure CodeTable where
  /-- How many codes there are of the lengths one, two and so on, up to the longest. -/
  counts : List Nat
  /-- The symbols in the order of their codes. -/
  symbols : Array Nat

namespace CodeTable

def maxLength : Nat := 15

def symbolsOf (lengths : List Nat) (length : Nat) : List Nat :=
  (lengths.zipIdx.filter (·.1 == length)).map (·.2)

def trimEnd (counts : List Nat) : List Nat :=
  (counts.reverse.dropWhile (· == 0)).reverse

/-- The table of the codes with these lengths; a symbol of length zero has no code. -/
def ofLengths (lengths : List Nat) : CodeTable :=
  let groups := (List.range maxLength).map fun i => symbolsOf lengths (i + 1)
  { counts := trimEnd (groups.map List.length), symbols := groups.flatten.toArray }

/-- How many codes of the greatest length are not taken; it is negative if there are more codes than
fit. -/
def slack (t : CodeTable) : Int :=
  t.counts.foldl (fun (free : Int) (count : Nat) => 2 * free - count) 1

/-- Whether every string of bits leads to a symbol, or there are no codes at all. -/
def isComplete (t : CodeTable) : Bool :=
  t.counts.isEmpty || t.slack == 0

/-- Whether the table may be used for data: a single code of one bit may stand alone. -/
def isUsable (t : CodeTable) : Bool :=
  t.isComplete || (t.counts.length == 1 && t.slack == 1)

/-- Reads on from a code that is too short for a symbol. `first` is the first code of this length,
and `index` the place of its symbol. -/
def symbolFrom (symbols : Array Nat) (code first index : Nat) : List Nat → Reading Nat
  | [] => .bad
  | count :: rest => do
    let b ← Reading.bit
    let code := 2 * code + b
    if code < first + count then return symbols.getD (index + (code - first)) 0
    else symbolFrom symbols code (2 * (first + count)) (index + count) rest

def symbol (t : CodeTable) : Reading Nat :=
  match t.counts with
  | [] => do
    let _ ← Reading.bit
    .bad
  | counts => symbolFrom t.symbols 0 0 0 counts

end CodeTable

end WebAudit.Archive
