import WebAudit.Archive.Entry
import WebAudit.Path.Normal

/-!
# Reading an archive

Entries are read one after the other, within limits: on the size of an entry, on the length of its
name, and on what is read in total. An entry that leads out of the archive is not read.
-/

namespace WebAudit.Archive

structure Limits where
  maxEntry : Int := 1048576
  maxTotal : Int := 209715200
deriving DecidableEq, Repr, Inhabited

def maxNameLength : Nat := 260

/-- Why an entry is not read, or not to its end. -/
inductive EntryFault where
  | escapes (name : String)
  | nameTooLong (length : Nat)
  | tooLarge (declared : Nat) (limit : Int)
  /-- More came out than is allowed for an entry. -/
  | outgrown (name : String)
  /-- More was read in total than is allowed. -/
  | spent
  | corrupt (name detail : String)
  | unsupported (name detail : String)
deriving DecidableEq, Repr, Inhabited

def EntryFault.message : EntryFault → String
  | escapes name => "Path traversal detected: " ++ name
  | nameTooLong length =>
    "Path too long: " ++ toString length ++ " > " ++ toString maxNameLength
  | tooLarge declared limit =>
    "Entry too large: " ++ toString declared ++ " > " ++ toString limit
  | outgrown name => "Entry size exceeded while reading: " ++ name
  | spent => "Total archive read limit exceeded"
  | corrupt name detail => "Corrupt entry " ++ name ++ ": " ++ detail
  | unsupported name detail => "Unsupported entry " ++ name ++ ": " ++ detail

inductive ReadFault where
  | entry (fault : EntryFault)
  | failed (failure : Failure)
deriving DecidableEq, Repr, Inhabited

def Entry.check (e : Entry) (limits : Limits) : Except EntryFault Unit :=
  if Path.escapes e.name then .error (.escapes e.name)
  else if maxNameLength < e.name.length then .error (.nameTooLong e.name.length)
  else if limits.maxEntry < e.declared then .error (.tooLarge e.declared limits.maxEntry)
  else .ok ()

structure Session where
  limits : Limits := {}
  totalRead : Nat := 0
  /-- The limit on the total was passed. -/
  exhausted : Bool := false
deriving DecidableEq, Repr, Inhabited

namespace Session

def endFault (name : String) : Ending → Except ReadFault Unit
  | .complete => .ok ()
  | .corrupt detail => .error (.entry (.corrupt name detail))
  | .unsupported detail => .error (.entry (.unsupported name detail))
  | .failed failure => .error (.failed failure)

/-- Takes the chunks of an entry in, of which `size` bytes are there already. -/
def takeChunks (s : Session) (name : String) (ending : Ending) (size : Nat) :
    List (List UInt8) → Except ReadFault Unit × Session
  | [] => (endFault name ending, s)
  | chunk :: rest =>
    let s := { s with totalRead := s.totalRead + chunk.length }
    let size := size + chunk.length
    if s.limits.maxEntry < (size : Int) then (.error (.entry (.outgrown name)), s)
    else if s.limits.maxTotal < (s.totalRead : Int) then (.error (.entry .spent), { s with exhausted := true })
    else s.takeChunks name ending size rest

def read (s : Session) (e : Entry) : Except ReadFault (List UInt8) × Session :=
  match e.check s.limits with
  | .error fault => (.error (.entry fault), s)
  | .ok () =>
    let (result, s) := s.takeChunks e.name e.stream.ending 0 e.stream.chunks
    (result.map fun _ => e.stream.bytes, s)

end Session

end WebAudit.Archive
