/-!
# Reading bits

Bits are read from bytes, the lowest bit of a byte first. Of the bytes only so many are there yet:
a reading that runs out of them comes up short, which is no fault.
-/

namespace WebAudit.Archive

structure Bits where
  bytes : Array UInt8
  /-- How many of the bytes are there. -/
  size : Nat

/-- What a reading gives: a value and the place behind it, or it comes up short, or the bits say
something that is not allowed. -/
inductive Fetch (α : Type) where
  | got (value : α) (position : Nat)
  | short
  | bad

def Reading (α : Type) : Type :=
  Bits → Nat → Fetch α

namespace Reading

instance : Monad Reading where
  pure value := fun _ position => .got value position
  bind reading next := fun bits position =>
    match reading bits position with
    | .got value position => next value bits position
    | .short => .short
    | .bad => .bad

def bad {α : Type} : Reading α :=
  fun _ _ => .bad

def bit : Reading Nat :=
  fun bits position =>
    if position < 8 * bits.size then
      .got (((bits.bytes.getD (position / 8) 0).toNat >>> (position % 8)) % 2) (position + 1)
    else .short

def number : Nat → Reading Nat
  | 0 => pure 0
  | n + 1 => do
    let low ← bit
    let high ← number n
    return low + 2 * high

def toByte : Reading Unit :=
  fun _ position => .got () ((position + 7) / 8 * 8)

end Reading

end WebAudit.Archive
