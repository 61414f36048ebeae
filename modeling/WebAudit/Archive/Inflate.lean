import WebAudit.Archive.CodeTable

/-!
# Inflating

Packed data is a sequence of blocks, the last of which is marked. A block holds bytes as they are, or
codes of literals and of copies of what was written before. Inflating can stop where the packed
bytes run out or where enough is written, and goes on from there.
-/

namespace WebAudit.Archive

/-- The tables of a block. -/
structure Codes where
  literals : CodeTable
  distances : CodeTable

inductive Token where
  | literal (byte : UInt8)
  | copy (length distance : Nat)
  | endOfBlock

namespace Codes

/-- Least length and number of extra bits for the symbols of lengths. -/
def lengthBases : Array (Nat × Nat) :=
  #[(3, 0), (4, 0), (5, 0), (6, 0), (7, 0), (8, 0), (9, 0), (10, 0), (11, 1), (13, 1), (15, 1),
    (17, 1), (19, 2), (23, 2), (27, 2), (31, 2), (35, 3), (43, 3), (51, 3), (59, 3), (67, 4),
    (83, 4), (99, 4), (115, 4), (131, 5), (163, 5), (195, 5), (227, 5), (258, 0)]

/-- Least distance and number of extra bits for the symbols of distances. -/
def distanceBases : Array (Nat × Nat) :=
  #[(1, 0), (2, 0), (3, 0), (4, 0), (5, 1), (7, 1), (9, 2), (13, 2), (17, 3), (25, 3), (33, 4),
    (49, 4), (65, 5), (97, 5), (129, 6), (193, 6), (257, 7), (385, 7), (513, 8), (769, 8),
    (1025, 9), (1537, 9), (2049, 10), (3073, 10), (4097, 11), (6145, 11), (8193, 12), (12289, 12),
    (16385, 13), (24577, 13)]

def endSymbol : Nat := 256

def withExtra : Option (Nat × Nat) → Reading Nat
  | none => .bad
  | some (base, extra) => do
    let more ← Reading.number extra
    return base + more

def token (c : Codes) : Reading Token := do
  let symbol ← c.literals.symbol
  if symbol < endSymbol then return .literal (UInt8.ofNat symbol)
  else if symbol = endSymbol then return .endOfBlock
  else
    let length ← withExtra lengthBases[symbol - 257]?
    let code ← c.distances.symbol
    let distance ← withExtra distanceBases[code]?
    return .copy length distance

def fixed : Codes where
  literals := .ofLengths (List.replicate 144 8 ++ List.replicate 112 9 ++ List.replicate 24 7 ++
    List.replicate 8 8)
  distances := .ofLengths (List.replicate 32 5)

def lengthOrder : List Nat :=
  [16, 17, 18, 0, 8, 7, 9, 6, 10, 5, 11, 4, 12, 3, 13, 2, 14, 1, 15]

def readWidths : Nat → Reading (List Nat)
  | 0 => pure []
  | n + 1 => do
    let width ← Reading.number 3
    let rest ← readWidths n
    return width :: rest

def lengthTable (widths : List Nat) : CodeTable :=
  let given := lengthOrder.zip widths
  .ofLengths ((List.range 19).map fun i => (given.lookup i).getD 0)

/-- Without codes a single bit stands for a length of zero. -/
def lengthSymbol (t : CodeTable) : Reading Nat :=
  if t.counts.isEmpty then do
    let _ ← Reading.bit
    return 0
  else t.symbol

def addLengths (found : List Nat) (symbol : Nat) : Reading (List Nat) :=
  match symbol with
  | 16 => do
    let more ← Reading.number 2
    match found with
    | [] => .bad
    | last :: _ => return List.replicate (3 + more) last ++ found
  | 17 => do
    let more ← Reading.number 3
    return List.replicate (3 + more) 0 ++ found
  | 18 => do
    let more ← Reading.number 7
    return List.replicate (11 + more) 0 ++ found
  | length => return length :: found

/-- Reads lengths until there are `total`. Every symbol adds at least one, so `total` symbols are
enough. -/
def readLengths (t : CodeTable) (total : Nat) : Nat → List Nat → Reading (List Nat)
  | 0, found => return found.reverse
  | n + 1, found =>
    if total ≤ found.length then return found.reverse
    else do
      let symbol ← lengthSymbol t
      let found ← addLengths found symbol
      if total < found.length then .bad else readLengths t total n found

def dynamic : Reading Codes := do
  let literals := (← Reading.number 5) + 257
  let distances := (← Reading.number 5) + 1
  let widths := (← Reading.number 4) + 4
  if 286 < literals || 30 < distances then Reading.bad
  else
    let t := lengthTable (← readWidths widths)
    if !t.isComplete then Reading.bad
    else
      let total := literals + distances
      let lengths ← readLengths t total total []
      if lengths.getD endSymbol 0 = 0 then Reading.bad
      else
        let codes : Codes := ⟨.ofLengths (lengths.take literals), .ofLengths (lengths.drop literals)⟩
        if codes.literals.isUsable && codes.distances.isUsable then return codes else Reading.bad

end Codes

namespace Inflate

inductive Mode where
  /-- A block comes next. -/
  | start
  /-- Bytes as they are, and how many are left. -/
  | stored (left : Nat)
  | coded (codes : Codes)
  /-- A token that is not written yet, or not to its end. -/
  | writing (codes : Codes) (token : Token)
  | done

structure State where
  /-- Counted in bits. -/
  position : Nat := 0
  out : Array UInt8 := #[]
  /-- This block is the last one. -/
  last : Bool := false
  mode : Mode := .start

inductive Pause where
  /-- Enough is written. -/
  | full
  /-- The packed bytes run out. -/
  | short
  | bad
  | done
deriving DecidableEq, Repr, Inhabited

def blockHead : Reading (Bool × Mode) := do
  let last := (← Reading.bit) == 1
  match ← Reading.number 2 with
  | 0 => do
    Reading.toByte
    let length ← Reading.number 16
    let check ← Reading.number 16
    if length + check = 65535 then return (last, .stored length) else Reading.bad
  | 1 => return (last, .coded .fixed)
  | 2 => return (last, .coded (← Codes.dynamic))
  | _ => Reading.bad

/-- How much of `wanted` may still be written behind `written` bytes. -/
def room (limit : Option Nat) (written wanted : Nat) : Nat :=
  match limit with
  | none => wanted
  | some limit => min wanted (limit - written)

/-- Writes bytes again that stand `distance` back. -/
def repeatBack (distance : Nat) : Nat → Array UInt8 → Array UInt8
  | 0, out => out
  | n + 1, out => repeatBack distance n (out.push (out.getD (out.size - distance) 0))

def State.leaveBlock (s : State) : State :=
  { s with mode := if s.last then .done else .start }

/-- One step on, or the reason to stop. A token is read before it is asked whether there is room for
it. -/
def step (bits : Bits) (limit : Option Nat) (s : State) : State ⊕ Pause :=
  match s.mode with
  | .done => .inr .done
  | .start =>
    match blockHead bits s.position with
    | .got (last, mode) position => .inl { s with position, last, mode }
    | .short => .inr .short
    | .bad => .inr .bad
  | .stored 0 => .inl s.leaveBlock
  | .stored left =>
    let place := s.position / 8
    if bits.size ≤ place then .inr .short
    else
      let count := room limit s.out.size (min left (bits.size - place))
      if count = 0 then .inr .full
      else .inl { s with
        position := s.position + 8 * count
        out := s.out ++ bits.bytes.extract place (place + count)
        mode := .stored (left - count) }
  | .coded codes =>
    match codes.token bits s.position with
    | .got .endOfBlock position => .inl { s with position }.leaveBlock
    | .got token position => .inl { s with position, mode := .writing codes token }
    | .short => .inr .short
    | .bad => .inr .bad
  | .writing codes (.literal byte) =>
    if room limit s.out.size 1 = 0 then .inr .full
    else .inl { s with out := s.out.push byte, mode := .coded codes }
  | .writing codes (.copy length distance) =>
    let count := room limit s.out.size length
    if count = 0 then .inr .full
    else if s.out.size < distance then .inr .bad
    else .inl { s with
      out := repeatBack distance count s.out
      mode := if count < length then .writing codes (.copy (length - count) distance)
        else .coded codes }
  | .writing codes .endOfBlock => .inl { s with mode := .coded codes }.leaveBlock

def steps (bits : Bits) (limit : Option Nat) : Nat → State → State × Pause
  | 0, s => (s, .short)
  | n + 1, s =>
    match step bits limit s with
    | .inl s => steps bits limit n s
    | .inr pause => (s, pause)

/-- Goes on until the packed bytes run out, `limit` bytes are written, the data ends or is bad. A
step that reads takes at least one bit, and at most two that do not read follow it. -/
def resume (bits : Bits) (limit : Option Nat) (s : State) : State × Pause :=
  steps bits limit (3 * (8 * bits.size - s.position) + 4) s

end Inflate

end WebAudit.Archive
