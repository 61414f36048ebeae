import WebAudit.Archive.Stream
import WebAudit.Text.CodePage437
import WebAudit.Text.Slice

/-!
# Archive entries

An archive ends with a record that says where its directory lies. The directory has a header for
every entry, and each entry has a second header in front of its data. Bytes in front of the archive
shift all places alike.
-/

namespace WebAudit.Archive

/-- An entry as a reader sees it. -/
structure Entry where
  name : String
  /-- How many bytes the entry should have. -/
  declared : Nat
  data : Thunk Stream

def Entry.stream (e : Entry) : Stream :=
  e.data.get

def Carrier.place? (carrier : Carrier) (position : Int) : Option Nat :=
  if 0 ≤ position then some position.toNat
  else match carrier with
    | memory => some 0
    | file => none

inductive OpenFault where
  /-- The bytes are no archive. -/
  | malformed
  | failed (failure : Failure)
deriving DecidableEq, Repr, Inhabited

def word (bytes : Array UInt8) (position : Nat) : Nat → Nat
  | 0 => 0
  | count + 1 => (bytes.getD position 0).toNat + 256 * word bytes (position + 1) count

/-! ## The end record -/

def endSize : Nat := 22

def endMark : Nat := 0x06054b50

/-- A comment behind the end record has fewer bytes than this. -/
def maxComment : Nat := 65536

def hasMark (bytes : Array UInt8) (mark position : Nat) : Bool :=
  position + 4 ≤ bytes.size && word bytes position 4 == mark

/-- The place of the end record: at the very end if there is no comment, else where its mark stands
last. -/
def endPlace? (bytes : Array UInt8) : Option Nat :=
  let size := bytes.size
  if endSize ≤ size && hasMark bytes endMark (size - endSize) && word bytes (size - 2) 2 == 0 then
    some (size - endSize)
  else
    let low := size - maxComment - endSize
    match (List.range (size - low)).reverse.find? fun i => hasMark bytes endMark (low + i) with
    | some i => if low + i + endSize ≤ size then some (low + i) else none
    | none => none

/-- Where the directory lies. -/
structure Extent where
  /-- The end of the directory. -/
  stop : Int
  size : Nat
  /-- Where the directory starts, as far as the archive knows. -/
  offset : Nat

def locatorSize : Nat := 20

def locatorMark : Nat := 0x07064b50

def wideSize : Nat := 56

def wideMark : Nat := 0x06064b50

def narrowExtent (bytes : Array UInt8) (place : Nat) : Extent :=
  ⟨place, word bytes (place + 12) 4, word bytes (place + 16) 4⟩

/-- The extent by the records for large archives, which stand in front of the end record. -/
def wideExtent? (bytes : Array UInt8) (place wide : Nat) : Option Extent :=
  if wide + wideSize ≤ bytes.size && hasMark bytes wideMark wide then
    some ⟨(place : Int) - wideSize - locatorSize, word bytes (wide + 40) 8, word bytes (wide + 48) 8⟩
  else none

def extent (bytes : Array UInt8) (carrier : Carrier) (place : Nat) : Except OpenFault Extent :=
  let narrow := narrowExtent bytes place
  match carrier.place? ((place : Int) - locatorSize) with
  | none => .ok narrow
  | some locator =>
    if locator + locatorSize ≤ bytes.size && hasMark bytes locatorMark locator then
      if word bytes (locator + 4) 4 != 0 || 1 < word bytes (locator + 16) 4 then .error .malformed
      else
        match carrier.place? ((place : Int) - locatorSize - wideSize) with
        | none => .error .malformed
        | some wide => .ok ((wideExtent? bytes place wide).getD narrow)
    else .ok narrow

/-! ## The directory -/

structure Header where
  /-- The name as it is stored. -/
  fullName : String
  flags : Nat
  method : Nat
  crc : UInt32
  packed : Nat
  declared : Nat
  /-- What systems keep about the entry; the upper half is the mode of a file. -/
  attributes : Nat
  offset : Int

/-- The name ends at the first character with the code zero. -/
def Header.name (h : Header) : String :=
  String.ofList (h.fullName.toList.takeWhile (· != '\x00'))

def headerSize : Nat := 46

def headerMark : Nat := 0x02014b50

/-- The latest version of the format that is read, times ten. -/
def latestVersion : Nat := 63

def hasFlag (flags bit : Nat) : Bool :=
  flags.testBit bit

def decodeName (flags : Nat) (bytes : List UInt8) : Except Failure String :=
  if hasFlag flags 11 then
    ((Text.Utf8.decodeFrom 0 [] bytes).map String.ofList).mapError .nameNotText
  else .ok (Text.CodePage437.decode bytes)

/-- Sizes and places that can be too large for their fields. -/
structure Measures where
  declared : Nat
  packed : Nat
  offset : Nat

def fullField : Nat := 0xFFFFFFFF

def wideValue (data : List UInt8) : Option (Nat × List UInt8) :=
  if data.length < 8 then none else some (word (data.take 8).toArray 0 8, data.drop 8)

/-- Replaces a value that is too large for its field by one from the extra data. -/
def widen (isFull : Bool) (value : Nat) (data : List UInt8) : Option (Nat × List UInt8) :=
  if isFull then wideValue data else some (value, data)

/-- Replaces the measures that are too large for their fields. -/
def Measures.widen (m : Measures) (data : List UInt8) : Option Measures := do
  let (declared, data) ←
    Archive.widen (m.declared == fullField || m.declared == 0xFFFFFFFFFFFFFFFF) m.declared data
  let (packed, data) ← Archive.widen (m.packed == fullField) m.packed data
  let (offset, _) ← Archive.widen (m.offset == fullField) m.offset data
  return ⟨declared, packed, offset⟩

/-- Takes the extra data of a header into account: fields, each with a tag and a length in front. -/
def Measures.withExtra (m : Measures) (extra : List UInt8) : Option Measures :=
  if extra.length < 4 then some m
  else
    let tag := word (extra.take 2).toArray 0 2
    let length := word ((extra.drop 2).take 2).toArray 0 2
    if extra.length < length + 4 then none
    else
      let rest := extra.drop (length + 4)
      if tag = 1 then
        match m.widen ((extra.drop 4).take length) with
        | some m => m.withExtra rest
        | none => none
      else m.withExtra rest
termination_by extra.length
decreasing_by all_goals simp only [List.length_drop]; omega

def slice (bytes : Array UInt8) (position count : Nat) : List UInt8 :=
  (bytes.extract position (position + count)).toList

def header (directory : Array UInt8) (shift : Int) (position : Nat) :
    Except OpenFault (Header × Nat) := do
  if directory.size < position + headerSize || !hasMark directory headerMark position then
    .error .malformed
  else
    let field (offset count : Nat) : Nat := word directory (position + offset) count
    let flags := field 8 2
    let nameSize := field 28 2
    let extraSize := field 30 2
    let nameStart := position + headerSize
    let fullName ← (decodeName flags (slice directory nameStart nameSize)).mapError .failed
    if latestVersion < field 6 1 then .error (.failed (.futureVersion (field 6 1)))
    else
      let extra := slice directory (nameStart + nameSize) extraSize
      match Measures.withExtra ⟨field 24 4, field 20 4, field 42 4⟩ extra with
      | none => .error .malformed
      | some m =>
        return ({
            fullName, flags
            method := field 10 2
            crc := UInt32.ofNat (field 16 4)
            packed := m.packed
            declared := m.declared
            attributes := field 38 4
            offset := m.offset + shift },
          nameStart + nameSize + extraSize + field 32 2)

/-- The headers from a place on; each has at least `headerSize` bytes, so `fuel` can be the number of
those that fit. -/
def headersFrom (directory : Array UInt8) (shift : Int) :
    Nat → Nat → Except OpenFault (List Header)
  | 0, _ => .ok []
  | fuel + 1, position =>
    if directory.size ≤ position then .ok []
    else do
      let (h, position) ← header directory shift position
      let rest ← headersFrom directory shift fuel position
      return h :: rest

/-- The headers of an archive, and where its directory starts. -/
structure Directory where
  start : Int
  headers : List Header

def directory (bytes : Array UInt8) (carrier : Carrier) : Except OpenFault Directory :=
  match endPlace? bytes with
  | none => .error .malformed
  | some place => do
    let e ← extent bytes carrier place
    let start := e.stop - e.size
    if start < 0 then .error .malformed
    else
      let part := bytes.extract start.toNat (start.toNat + e.size)
      let headers ← headersFrom part (start - e.offset) (part.size / headerSize + 1) 0
      return { start, headers }

/-- Where the bytes of an entry have to end: in front of the entry that follows in the archive, or
of the directory. Of two entries at one place only the first has bytes of its own. -/
def Directory.limit (d : Directory) (earlier : List Header) (h : Header) : Int :=
  if earlier.any (·.offset == h.offset) then h.offset
  else (((d.headers.map Header.offset).filter (h.offset < ·)).min?).getD d.start

/-! ## The data -/

def localSize : Nat := 30

def localMark : Nat := 0x04034b50

def methodNames : List (Nat × String) :=
  [(0, "store"), (1, "shrink"), (2, "reduce"), (3, "reduce"), (4, "reduce"), (5, "reduce"), (6, "implode"),
   (7, "tokenize"), (8, "deflate"), (9, "deflate64"), (10, "implode"), (12, "bzip2"), (14, "lzma"), (18, "terse"),
   (19, "lz77"), (97, "wavpack"), (98, "ppmd")]

def kindLetter (mode : Nat) : Char :=
  match mode / 0o10000 with
  | 0o10 => '-'
  | 0o4 => 'd'
  | 0o12 => 'l'
  | 0o6 => 'b'
  | 0o2 => 'c'
  | 0o1 => 'p'
  | 0o14 => 's'
  | _ => '?'

/-- The letters for what one class of users may do; `special` stands for the third of them if its bit is set. -/
def rightLetters (bits : Nat) (isSpecial : Bool) (special : Char) : List Char :=
  [if bits.testBit 2 then 'r' else '-', if bits.testBit 1 then 'w' else '-',
   match bits.testBit 0, isSpecial with
   | true, true => special
   | false, true => special.toUpper
   | true, false => 'x'
   | false, false => '-']

def modeText (mode : Nat) : String :=
  String.ofList <| kindLetter mode :: (rightLetters (mode / 64) (mode.testBit 11) 's' ++
    rightLetters (mode / 8) (mode.testBit 10) 's' ++ rightLetters mode (mode.testBit 9) 't')

def Header.description (h : Header) : String :=
  let mode := h.attributes / 65536
  let rest := h.attributes % 65536
  let isDirectory := Text.endsWith h.name "/"
  "<ZipInfo filename=" ++ Text.quote h.name ++
    (if h.method = 0 then ""
      else " compress_type=" ++ (methodNames.lookup h.method).getD (toString h.method)) ++
    (if mode = 0 then "" else " filemode='" ++ modeText mode ++ "'") ++
    (if rest = 0 then "" else " external_attr=0x" ++ String.ofList (Nat.toDigits 16 rest)) ++
    (if isDirectory && h.declared = 0 then "" else " file_size=" ++ toString h.declared) ++
    (if (isDirectory && h.packed = 0) || (h.method = 0 && h.declared = h.packed) then ""
      else " compress_size=" ++ toString h.packed) ++ ">"

/-- What the archive holds for a header whose second header is at `place`; it may not reach beyond
`limit`. -/
def Header.packedAt (h : Header) (codecs : Codecs) (bytes : Array UInt8) (place : Nat) (limit : Int) :
    Except Ending Packed := do
  if bytes.size < place + localSize then .error (.corrupt "Truncated file header")
  else if !hasMark bytes localMark place then .error (.corrupt "Bad magic number for file header")
  else
    let nameSize := word bytes (place + 26) 2
    let extraSize := word bytes (place + 28) 2
    let nameBytes := slice bytes (place + localSize) nameSize
    let first := place + localSize + nameSize + extraSize
    if hasFlag h.flags 5 then .error (.unsupported "compressed patched data (flag bit 5)")
    else if hasFlag h.flags 6 then .error (.unsupported "strong encryption (flag bit 6)")
    else
      let name ← (decodeName (word bytes (place + 6) 2) nameBytes).mapError .failed
      if name != h.fullName then
        .error (.corrupt ("File name in directory " ++ Text.quote h.fullName ++ " and header " ++
          Text.quoteBytes nameBytes ++ " differ."))
      else if limit < min first bytes.size + h.packed then
        .error (.corrupt ("Overlapped entries: " ++ Text.quote h.fullName ++ " (possible zip bomb)"))
      else if hasFlag h.flags 0 then
        .error (.unsupported ("File " ++ h.description ++
          " is encrypted, password required for extraction"))
      else
        match codecs.method h.method with
        | .error detail => .error (.unsupported detail)
        | .ok method =>
          return {
            method
            name := h.name
            data := bytes.extract first (first + h.packed)
            size := h.packed
            declared := h.declared
            crc := h.crc }

/-- Places are numbers of sixty-three bits and a sign. -/
def maxPlace : Int := 9223372036854775808

def Header.stream (h : Header) (codecs : Codecs) (bytes : Array UInt8) (carrier : Carrier) (limit : Int) : Stream :=
  if h.offset < -maxPlace || maxPlace ≤ h.offset then { ending := .failed (.outOfReach carrier) }
  else if h.offset < 0 then
    match carrier with
    | .memory => { ending := .failed (.beforeStart h.offset) }
    | .file => { ending := .corrupt "[Errno 22] Invalid argument" }
  else
    match h.packedAt codecs bytes h.offset.toNat limit with
    | .ok packed => packed.stream
    | .error ending => { ending }

def Directory.entry (d : Directory) (codecs : Codecs) (bytes : Array UInt8) (carrier : Carrier)
    (earlier : List Header) (h : Header) : Entry where
  name := h.name
  declared := h.declared
  data := .mk fun _ => h.stream codecs bytes carrier (d.limit earlier h)

/-- The entries of the headers from one on; `earlier` are those in front of it, latest first. -/
def Directory.entriesFrom (d : Directory) (codecs : Codecs) (bytes : Array UInt8) (carrier : Carrier) :
    List Header → List Header → List Entry
  | _, [] => []
  | earlier, h :: rest =>
    d.entry codecs bytes carrier earlier h :: d.entriesFrom codecs bytes carrier (h :: earlier) rest

def entries (codecs : Codecs) (bytes : List UInt8) (carrier : Carrier) : Except OpenFault (List Entry) :=
  let bytes := bytes.toArray
  (directory bytes carrier).map fun d => d.entriesFrom codecs bytes carrier [] d.headers

def Entry.isDirectory (e : Entry) : Except Failure Bool :=
  if e.name.isEmpty then .error .nameless else .ok (Text.endsWith e.name "/")

def files (entries : List Entry) : Except Failure (List Entry) :=
  entries.filterM fun e => (!·) <$> e.isDirectory

end WebAudit.Archive
