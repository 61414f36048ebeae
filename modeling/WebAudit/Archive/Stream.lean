import WebAudit.Archive.Inflate
import WebAudit.Digest.Crc32
import WebAudit.Text.Quoted
import WebAudit.Text.Utf8

/-!
# The data of an entry

The data of an archive entry comes in chunks, and then it ends: it is complete, or something is
wrong with it. Packed data is taken in and unpacked in pieces, at most as much comes out as the
archive declares, and the checksum is compared when the end is reached. Of the ways to pack data,
two are left to libraries that may or may not be there.
-/

namespace WebAudit.Archive

/-- Where the bytes of an archive are; a place in front of them is treated differently. -/
inductive Carrier where
  | memory
  | file
deriving DecidableEq, Repr, Inhabited

/-- What stops the reading of an archive altogether. -/
inductive Failure where
  /-- The packed data cannot be unpacked. -/
  | garbled
  /-- The packed data is refused by its library. -/
  | damaged (detail : String)
  /-- An entry is said to lie in front of the archive. -/
  | beforeStart (offset : Int)
  /-- An entry is said to lie where no place can be. -/
  | outOfReach (carrier : Carrier)
  /-- A name that is marked as text is none. -/
  | nameNotText (fault : Text.Utf8.Fault)
  /-- The entry needs a later version of the format. -/
  | futureVersion (version : Nat)
  /-- An entry without a name. -/
  | nameless
deriving DecidableEq, Repr, Inhabited

def Failure.message : Failure → String
  | garbled => ""
  | damaged detail => detail
  | beforeStart offset => "negative seek value " ++ toString offset
  | outOfReach .memory => "Python int too large to convert to C ssize_t"
  | outOfReach .file => "cannot fit 'int' into an offset-sized integer"
  | nameNotText fault => fault.message
  | futureVersion version =>
    "zip file version " ++ toString (version / 10) ++ "." ++ toString (version % 10)
  | nameless => "string index out of range"

inductive Ending where
  | complete
  | corrupt (detail : String)
  | unsupported (detail : String)
  | failed (failure : Failure)
deriving DecidableEq, Repr, Inhabited

structure Stream where
  chunks : List (List UInt8) := []
  ending : Ending
deriving DecidableEq, Repr, Inhabited

def Stream.bytes (s : Stream) : List UInt8 :=
  s.chunks.flatten

/-! ## Libraries -/

/-- A decompressor that is handed one piece after the other: what comes of the last of the pieces, and whether the
data has come to its end. -/
abbrev Decompressor (ε : Type) := List (List UInt8) → Except ε (List UInt8 × Bool)

/-- The decompressors that come with libraries, if they are there. They fail with a text. -/
structure Codecs where
  bzip2 : Option (Decompressor String) := none
  /-- The decompressor for data with the properties. -/
  lzma : Option (List UInt8 → Decompressor String) := none

/-- The properties in front of LZMA data and the pieces of the data itself, once all properties are there; `head`
is what was handed over before. -/
def splitProperties (head : List UInt8) : List (List UInt8) → Option (List UInt8 × List (List UInt8))
  | [] => none
  | piece :: pieces =>
    let head := head ++ piece
    let size := (head.getD 2 0).toNat + 256 * (head.getD 3 0).toNat
    if head.length ≤ 4 || head.length ≤ 4 + size then splitProperties head pieces
    else some ((head.drop 4).take size, head.drop (4 + size) :: pieces)

inductive Method where
  | stored
  | deflated
  | foreign (decompress : Decompressor Ending)

namespace Codecs

def bzip2Method (decompress : Decompressor String) : Method :=
  .foreign fun pieces => (decompress pieces).mapError .corrupt

def lzmaMethod (decompress : List UInt8 → Decompressor String) : Method :=
  .foreign fun pieces =>
    match splitProperties [] pieces with
    | none => .ok ([], false)
    | some (properties, data) => (decompress properties data).mapError fun detail => .failed (.damaged detail)

def missing (library : String) : String :=
  "Compression requires the (missing) " ++ library ++ " module"

/-- The method with a number, or why it is not supported. -/
def method (codecs : Codecs) : Nat → Except String Method
  | 0 => .ok .stored
  | 8 => .ok .deflated
  | 12 => (codecs.bzip2.map bzip2Method).elim (.error (missing "bz2")) .ok
  | 14 => (codecs.lzma.map lzmaMethod).elim (.error (missing "lzma")) .ok
  | _ => .error "That compression method is not supported"

end Codecs

/-- What an archive holds of an entry. -/
structure Packed where
  name : String
  method : Method
  /-- The packed bytes, as far as the archive has them. -/
  data : Array UInt8
  /-- How many packed bytes there should be. -/
  size : Nat
  /-- How many bytes there should be when they are unpacked. -/
  declared : Nat
  crc : UInt32

namespace Packed

def leastRead : Nat := 4096

/-- How far unpacking has come. -/
structure Cursor where
  /-- Packed bytes that were taken in. -/
  taken : Nat := 0
  inflate : Inflate.State := {}
  /-- Bytes among those taken in that are not looked at yet. -/
  tail : Nat := 0
  /-- What was handed to a library. -/
  pieces : List (List UInt8) := []
  /-- Declared bytes that are still to come. -/
  left : Nat
  register : UInt32 := Digest.Crc32.start
  ended : Bool := false
  /-- Unpacked bytes that were not asked for yet. -/
  ahead : List UInt8 := []

def start (p : Packed) : Cursor :=
  { left := p.declared }

/-- Takes in packed bytes, if more should come. -/
def takeIn (p : Packed) (wanted : Nat) (c : Cursor) : Except Ending Cursor :=
  let missing := p.size - c.taken
  if missing = 0 then .ok c
  else
    let count := min (min (max wanted leastRead) missing) (p.data.size - c.taken)
    if count = 0 then .error (.corrupt "") else .ok { c with taken := c.taken + count }

/-- Unpacks up to `wanted` bytes. When all has been taken in and looked at, what is still to be
written follows at once. -/
def unpack (p : Packed) (wanted : Nat) (c : Cursor) : Except Ending (List UInt8 × Cursor) := do
  let c ← if c.tail < wanted then p.takeIn (wanted - c.tail) c else .ok c
  let written := c.inflate.out.size
  let bits : Bits := ⟨p.data, c.taken⟩
  let (state, pause) := Inflate.resume bits (some (written + max wanted leastRead)) c.inflate
  if pause = .bad then .error (.failed .garbled)
  else
    let tail := if pause = .full then c.taken - (state.position + 7) / 8 else 0
    let ended := pause = .done || (p.size ≤ c.taken && tail = 0)
    let state := if ended then (Inflate.resume bits none state).1 else state
    return ((state.out.extract written state.out.size).toList,
      { c with inflate := state, tail, ended })

def copyOut (p : Packed) (wanted : Nat) (c : Cursor) : Except Ending (List UInt8 × Cursor) := do
  let next ← p.takeIn wanted c
  return ((p.data.extract c.taken next.taken).toList, { next with ended := p.size ≤ next.taken })

def handOver (p : Packed) (decompress : Decompressor Ending) (wanted : Nat) (c : Cursor) :
    Except Ending (List UInt8 × Cursor) := do
  let next ← p.takeIn wanted c
  let pieces := c.pieces ++ [(p.data.extract c.taken next.taken).toList]
  let (bytes, isDone) ← decompress pieces
  return (bytes, { next with pieces, ended := isDone || p.size ≤ next.taken })

/-- Keeps no more than is declared, and compares the checksum at the end. -/
def settle (p : Packed) (bytes : List UInt8) (c : Cursor) : Except Ending (List UInt8 × Cursor) :=
  let kept := bytes.take c.left
  let left := c.left - kept.length
  let ended := c.ended || left = 0
  let register := Digest.Crc32.update c.register kept
  if ended && Digest.Crc32.checksum register != p.crc then
    .error (.corrupt ("Bad CRC-32 for file " ++ Text.quote p.name))
  else .ok (kept, { c with left, ended, register })

def next (p : Packed) (wanted : Nat) (c : Cursor) : Except Ending (List UInt8 × Cursor) := do
  let (bytes, c) ← match p.method with
    | .stored => p.copyOut wanted c
    | .deflated => p.unpack wanted c
    | .foreign decompress => p.handOver decompress wanted c
  p.settle bytes c

/-- Fills a chunk that lacks `wanted` bytes; what comes in excess is kept ahead. Each time a byte is
taken in, a byte comes out or the end is reached, so `fuel` can be their number. -/
def fill (p : Packed) : Nat → Nat → List UInt8 → Cursor → Except Ending (List UInt8 × Cursor)
  | 0, _, chunk, c => .ok (chunk, c)
  | fuel + 1, wanted, chunk, c =>
    if wanted = 0 || c.ended then .ok (chunk, c)
    else do
      let (bytes, c) ← p.next wanted c
      if wanted < bytes.length then
        return (chunk ++ bytes.take wanted, { c with ahead := bytes.drop wanted })
      else p.fill fuel (wanted - bytes.length) (chunk ++ bytes) c

def chunkSize : Nat := 8192

def chunk (p : Packed) (c : Cursor) : Except Ending (List UInt8 × Cursor) :=
  if chunkSize < c.ahead.length then
    .ok (c.ahead.take chunkSize, { c with ahead := c.ahead.drop chunkSize })
  else
    p.fill (p.data.size + chunkSize + 2) (chunkSize - c.ahead.length) c.ahead { c with ahead := [] }

/-- The chunks from a place on. None of them is empty, and together they have no more bytes than
are declared, so `fuel` can be that number. -/
def chunks (p : Packed) : Nat → Cursor → Stream
  | 0, _ => { ending := .complete }
  | fuel + 1, c =>
    match p.chunk c with
    | .error ending => { ending }
    | .ok ([], _) => { ending := .complete }
    | .ok (chunk, c) =>
      let rest := p.chunks fuel c
      { rest with chunks := chunk :: rest.chunks }

def stream (p : Packed) : Stream :=
  p.chunks (p.declared + 1) p.start

end Packed

end WebAudit.Archive
