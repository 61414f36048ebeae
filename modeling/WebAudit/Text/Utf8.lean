/-!
# UTF-8

Bytes are read into characters. Only the shortest form of a character is accepted, and no
surrogates; the first fault is known by its place and by how many bytes it covers.
-/

namespace WebAudit.Text.Utf8

inductive Cause where
  /-- A byte with which no character starts. -/
  | startByte
  /-- A byte that cannot go on with the character that was started. -/
  | continuation
  /-- The input ends inside a character. -/
  | endOfData
deriving DecidableEq, Repr, Inhabited

def Cause.message : Cause → String
  | startByte => "invalid start byte"
  | continuation => "invalid continuation byte"
  | endOfData => "unexpected end of data"

structure Fault where
  position : Nat
  /-- How many bytes the fault covers. -/
  length : Nat
  first : UInt8
  cause : Cause
deriving DecidableEq, Repr, Inhabited

def hexByte (b : UInt8) : String :=
  let digits := Nat.toDigits 16 b.toNat
  String.ofList (List.replicate (2 - digits.length) '0' ++ digits)

def Fault.message (f : Fault) : String :=
  let place :=
    if f.length = 1 then
      "byte 0x" ++ hexByte f.first ++ " in position " ++ toString f.position
    else
      "bytes in position " ++ toString f.position ++ "-" ++ toString (f.position + f.length - 1)
  "'utf-8' codec can't decode " ++ place ++ ": " ++ f.cause.message

/-- What the first byte of a character says about the others. -/
structure Lead where
  /-- The bits that the first byte contributes. -/
  bits : Nat
  /-- How many bytes follow. -/
  more : Nat
  /-- The least and the greatest second byte. -/
  low : UInt8 := 0x80
  high : UInt8 := 0xBF
deriving DecidableEq, Repr, Inhabited

def leadOf (b : UInt8) : Option Lead :=
  if b < 0x80 then some { bits := b.toNat, more := 0 }
  else if b < 0xC2 then none
  else if b < 0xE0 then some { bits := b.toNat - 0xC0, more := 1 }
  else if b < 0xF0 then
    some { bits := b.toNat - 0xE0, more := 2, low := if b = 0xE0 then 0xA0 else 0x80,
           high := if b = 0xED then 0x9F else 0xBF }
  else if b < 0xF5 then
    some { bits := b.toNat - 0xF0, more := 3, low := if b = 0xF0 then 0x90 else 0x80,
           high := if b = 0xF4 then 0x8F else 0xBF }
  else none

/-- How many of the bytes in front can go on with a character, at most as many as it needs. -/
def goodCount (low high : UInt8) : Nat → List UInt8 → Nat
  | 0, _ => 0
  | _ + 1, [] => 0
  | n + 1, b :: bs => if low ≤ b && b ≤ high then goodCount 0x80 0xBF n bs + 1 else 0

/-- The code that some bits and the bytes after them make. -/
def codeOf (bits : Nat) (bs : List UInt8) : Nat :=
  bs.foldl (fun code b => code * 64 + (b.toNat - 0x80)) bits

/-- The first character and the bytes after it; a fault is placed relative to the first byte. -/
def first (b : UInt8) (bs : List UInt8) : Except Fault (Char × List UInt8) :=
  match leadOf b with
  | none => .error ⟨0, 1, b, .startByte⟩
  | some lead =>
    let good := goodCount lead.low lead.high lead.more bs
    if good = lead.more then
      .ok (Char.ofNat (codeOf lead.bits (bs.take good)), bs.drop good)
    else if bs.length ≤ good then .error ⟨0, good + 1, b, .endOfData⟩
    else .error ⟨0, good + 1, b, .continuation⟩

/-- No more bytes are left after a character than there were. -/
theorem first_length {b : UInt8} {bs rest : List UInt8} {c : Char}
    (h : first b bs = .ok (c, rest)) : rest.length ≤ bs.length := by
  simp only [first] at h
  split at h
  · contradiction
  · split at h
    · injection h with h
      injection h with _ h
      subst h
      simp
    · split at h <;> contradiction

/-- Reads on, with the characters so far, the last one first. -/
def decodeFrom (position : Nat) (found : List Char) : List UInt8 → Except Fault (List Char)
  | [] => .ok found.reverse
  | b :: bs =>
    match h : first b bs with
    | .ok (c, rest) =>
      have := first_length h
      decodeFrom (position + (bs.length + 1 - rest.length)) (c :: found) rest
    | .error fault => .error { fault with position }
termination_by bs => bs.length
decreasing_by simp only [List.length_cons]; omega

def byteOrderMark : List UInt8 := [0xEF, 0xBB, 0xBF]

def withoutMark (bs : List UInt8) : List UInt8 :=
  if byteOrderMark.isPrefixOf bs then bs.drop 3 else bs

/-- The text of some bytes; a byte order mark in front is no part of it, and places are counted from
behind it. -/
def decode (bs : List UInt8) : Except Fault String :=
  (decodeFrom 0 [] (withoutMark bs)).map String.ofList

end WebAudit.Text.Utf8
