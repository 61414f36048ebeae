import WebAudit.Text.Lines
import WebAudit.Text.Quoted

/-!
# Hosts in brackets

An address between brackets has to be one of the sixth version of the internet protocol, or of a
later one.
-/

namespace WebAudit.Url

/-- Why an address is refused. -/
inductive Fault where
  | brackets
  | host (text : String)
  | futureHost
  | oldHost
  | hiddenDelimiter (netloc : String)
deriving DecidableEq, Repr, Inhabited

def Fault.message : Fault → String
  | brackets => "Invalid IPv6 URL"
  | host text => Text.quote text ++ " does not appear to be an IPv4 or IPv6 address"
  | futureHost => "IPvFuture address is invalid"
  | oldHost => "An IPv4 address cannot be in brackets"
  | hiddenDelimiter netloc =>
    "netloc '" ++ netloc ++ "' contains invalid characters under NFKC normalization"

def isHexChar (c : Char) : Bool :=
  c.isDigit || ('a' ≤ c && c ≤ 'f') || ('A' ≤ c && c ≤ 'F')

/-- One of four numbers: at most 255 and without a zero in front. -/
def isOctet (cs : List Char) : Bool :=
  !cs.isEmpty && cs.length ≤ 3 && cs.all Char.isDigit && (cs.length == 1 || cs.head? != some '0') &&
  cs.foldl (fun n c => 10 * n + (c.toNat - 48)) 0 ≤ 255

def isOldAddress (cs : List Char) : Bool :=
  let parts := Text.cutAtFrom '.' [] cs
  parts.length == 4 && parts.all isOctet

def isHextet (cs : List Char) : Bool :=
  !cs.isEmpty && cs.length ≤ 4 && cs.all isHexChar

/-- The parts between colons, where an address of four numbers at the end counts as two. -/
def hextets (cs : List Char) : Option (List (List Char)) :=
  let parts := Text.cutAtFrom ':' [] cs
  let last := parts.getLastD []
  if parts.length < 3 then none
  else if last.contains '.' then
    if isOldAddress last then some (parts.dropLast ++ [['0'], ['0']]) else none
  else some parts

/-- Whether parts make eight numbers, once a double colon stands for those left out. -/
def fitsEight (parts : List (List Char)) : Bool :=
  let inner := (parts.drop 1).dropLast
  let first := parts.headD []
  let last := parts.getLastD []
  if 9 < parts.length then false
  else
    match inner.findIdx? List.isEmpty with
    | none => parts.length == 8 && parts.all isHextet
    | some i =>
      let front := parts.take (i + 1)
      let back := parts.drop (i + 2)
      let front' := if first.isEmpty then front.drop 1 else front
      let back' := if last.isEmpty then back.dropLast else back
      !(inner.drop (i + 1)).any List.isEmpty &&
      (!first.isEmpty || front'.isEmpty) && (!last.isEmpty || back'.isEmpty) &&
      front'.length + back'.length ≤ 7 && front'.all isHextet && back'.all isHextet

/-- An address of eight numbers, with an optional zone after a percent sign. -/
def isAddress (cs : List Char) : Bool :=
  let address := cs.takeWhile (· != '%')
  let zone := cs.drop address.length
  let zoneFits := zone.isEmpty || (1 < zone.length && !(zone.drop 1).contains '%')
  !cs.contains '/' && zoneFits && (hextets address).any fitsEight

/-- A later version: `v`, hexadecimal digits, a point and at least one more character. -/
def isFutureAddress (cs : List Char) : Bool :=
  let digits := (cs.drop 1).takeWhile isHexChar
  match cs.drop (1 + digits.length) with
  | '.' :: rest => !digits.isEmpty && !rest.isEmpty && !rest.contains '\n'
  | _ => false

def checkHost (cs : List Char) : Except Fault Unit :=
  if cs.head? == some 'v' then if isFutureAddress cs then .ok () else .error .futureHost
  else if isOldAddress cs then .error .oldHost
  else if isAddress cs then .ok ()
  else .error (.host (String.ofList cs))

end WebAudit.Url
