import WebAudit.Text.Blank
import WebAudit.Text.Digit
import WebAudit.Url.Join

/-!
# Addresses of requests

How a text is read as an address is up to the client that makes the requests. Usually the address gets a
fixed form: scheme and host are in lower case, the port is left out where it is the usual one, dots in
the path are resolved, and what may not stand in a part is written as percent signs with the bytes of its
UTF-8 form. A host that is not ASCII is left to a library for such names.
-/

namespace WebAudit.Web

structure Address where
  scheme : List Char := []
  user : List Char := []
  host : List Char := []
  port : Option Int := none
  path : List Char := []
  query : Option (List Char) := none
  fragment : Option (List Char) := none
deriving DecidableEq, Repr, Inhabited

/-- Why a text is no address for a request. -/
inductive AddressFault where
  | tooLong
  | unprintable (c : Char) (position : Nat)
  | oldHost (text : String)
  | newHost (text : String)
  | badPort (text : String)
  | doubleSlash
  | colon
  /-- A path behind a host that does not start with a slash. -/
  | rootless
  | partTooLong (part : String)
  /-- A host that is not ASCII and has no ASCII form. -/
  | foreignHost (text : String)
  | other (text : String)
deriving DecidableEq, Repr, Inhabited

def AddressFault.message : AddressFault → String
  | tooLong => "URL too long"
  | unprintable c position =>
    "Invalid non-printable ASCII character in URL, " ++ Text.quote (String.singleton c) ++
      " at position " ++ toString position ++ "."
  | oldHost text => "Invalid IPv4 address: " ++ Text.quote text
  | newHost text => "Invalid IPv6 address: " ++ Text.quote text
  | badPort text => "Invalid port: " ++ Text.quote text
  | doubleSlash => "Relative URLs cannot have a path starting with '//'"
  | colon => "Relative URLs cannot have a path starting with ':'"
  | rootless => "For absolute URLs, path must be empty or begin with '/'"
  | partTooLong part => "URL component '" ++ part ++ "' too long"
  | foreignHost text => "Invalid IDNA hostname: " ++ Text.quote text
  | other text => text

/-- How a client reads addresses and makes others of them. -/
structure Reader where
  parse : String → Except AddressFault Address
  withHost : Address → List Char → Except AddressFault Address
  withFragment : Address → List Char → Except AddressFault Address
  /-- The second address as seen from the first. -/
  join : Address → Address → Except (AddressFault ⊕ Url.Fault) Address

namespace Address

def maxLength : Nat := 65536

/-! ## Escapes -/

def hexUpper (n : Nat) : Char :=
  if n < 10 then Char.ofNat (48 + n) else Char.ofNat (55 + n)

def escapeByte (b : UInt8) : List Char :=
  ['%', hexUpper (b.toNat / 16), hexUpper (b.toNat % 16)]

/-- Escapes the characters that are not ASCII, unprintable, or among those excluded. -/
def escape (excluded : List Char) (cs : List Char) : List Char :=
  cs.flatMap fun c =>
    if 0x20 < c.toNat && c.toNat < 0x7F && !excluded.contains c then [c]
    else (String.utf8EncodeChar c).flatMap escapeByte

def fragmentExcluded : List Char := ['"', '<', '>', '\x60']

def queryExcluded : List Char := ['"', '#', '<', '>']

def pathExcluded : List Char := queryExcluded ++ ['?', '\x60', '\x7b', '\x7d']

def userExcluded : List Char := pathExcluded ++ ['/', ';', '=', '@', '[', '\\', ']', '^', '|']

def hostExcluded : List Char := ['#', '/', ':', '<', '>', '?', '@', '[', ']', '^']

/-! ## Parts -/

/-- The text in front of a mark and the text behind it, if the mark is there. -/
def cutOptional (mark : Char) (cs : List Char) : List Char × Option (List Char) :=
  let front := cs.takeWhile (· != mark)
  (front, if front.length < cs.length then some (cs.drop (front.length + 1)) else none)

/-- The user in front of the last at sign, and the rest. -/
def splitUser (cs : List Char) : List Char × List Char :=
  if cs.contains '@' then
    let rest := (cs.reverse.takeWhile (· != '@')).reverse
    (cs.take (cs.length - rest.length - 1), rest)
  else ([], cs)

/-- The host, between brackets or up to a colon, and the text of the port. -/
def splitPort (cs : List Char) : List Char × List Char :=
  let host :=
    if cs.head? == some '[' && cs.contains ']' then
      cs.take (cs.length - (cs.reverse.takeWhile (· != ']')).length)
    else cs.takeWhile (· != ':')
  let rest := cs.drop host.length
  (host, if rest.head? == some ':' then rest.drop 1 else rest)

/-- Digits, and before them so many times digits and one character of any kind. -/
def isDigitRuns : Nat → List Char → Bool
  | 0, cs => !cs.isEmpty && cs.all Char.isDigit
  | n + 1, cs =>
    (List.range cs.length).any fun k =>
      0 < k && (cs.take k).all Char.isDigit &&
      match cs.drop k with
      | _ :: rest => isDigitRuns n rest
      | [] => false

def looksOld (host : List Char) : Bool :=
  isDigitRuns 3 host

/-- The form of a host; `toAscii` gives that of a name that is not ASCII. -/
def hostForm (toAscii : List Char → Option (List Char)) (host : List Char) : Except AddressFault (List Char) :=
  if looksOld host then
    if Url.isOldAddress host then .ok host else .error (.oldHost (String.ofList host))
  else if host.head? == some '[' && host.getLast? == some ']' then
    let inner := (host.drop 1).dropLast
    if Url.isAddress inner then .ok inner else .error (.newHost (String.ofList host))
  else if host.all (·.toNat < 0x80) then .ok (escape hostExcluded (Text.lowerChars host))
  else (toAscii (Text.lowerChars host)).elim (.error (.foreignHost (String.ofList host))) .ok

def usualPort (scheme : List Char) : Option Int :=
  [("ftp", 21), ("http", 80), ("https", 443), ("ws", 80), ("wss", 443)].lookup (String.ofList scheme)

def maxDigits : Nat := 4300

/-- A whole number: digits of any script, in groups between low lines, with a sign in front and blanks around
them. -/
def wholeNumber? (cs : List Char) : Option Int :=
  let body := Text.stripChars cs
  let groups := Text.cutAtFrom '_' [] (if body.head?.any ['+', '-'].contains then body.drop 1 else body)
  let digits := groups.flatten
  if groups.all (fun group => !group.isEmpty && group.all Text.isDecimalDigit) && digits.length ≤ maxDigits then
    let size : Nat := digits.foldl (fun n c => 10 * n + (Text.digitValue? c).getD 0) 0
    some (if body.head? == some '-' then -size else size)
  else none

def portForm (scheme port : List Char) : Except AddressFault (Option Int) :=
  if port.isEmpty then .ok none
  else
    match wholeNumber? port with
    | some n => .ok (if usualPort scheme = some n then none else some n)
    | none => .error (.badPort (String.ofList port))

/-- Takes one more segment of a path in; `out` are those so far, the last one first. -/
def pushSegment (out : List (List Char)) (segment : List Char) : List (List Char) :=
  if segment = ['.'] then out
  else if segment = ['.', '.'] then if out = [] || out = [[]] then out else out.drop 1
  else segment :: out

def pathForm (path : List Char) : List Char :=
  let segments := Text.cutAtFrom '/' [] path
  if segments.any fun s => s = ['.'] || s = ['.', '.'] then
    ['/'].intercalate (segments.foldl pushSegment []).reverse
  else path

/-! ## Whole addresses -/

def isUnprintable (c : Char) : Bool :=
  c.toNat < 0x20 || c.toNat = 0x7F

def splitScheme (cs : List Char) : List Char × List Char :=
  let word := cs.takeWhile Url.isSchemeChar
  match cs.drop word.length with
  | ':' :: rest => if word.isEmpty || word.head?.any Char.isAlpha then (word, rest) else ([], cs)
  | _ => ([], cs)

def parse (toAscii : List Char → Option (List Char)) (text : String) : Except AddressFault Address := do
  let cs := text.toList
  if maxLength < cs.length then throw .tooLong
  match cs.find? isUnprintable with
  | some c => throw (.unprintable c (cs.takeWhile (· != c)).length)
  | none =>
    let (rawScheme, rest) := splitScheme cs
    let (authority, rest) := Url.splitHost rest
    let (rest, fragment) := cutOptional '#' rest
    let (path, query) := cutOptional '?' rest
    let (user, rest) := splitUser authority
    let (rawHost, rawPort) := splitPort rest
    let scheme := Text.lowerChars rawScheme
    let host ← hostForm toAscii rawHost
    let port ← portForm scheme rawPort
    let user := escape userExcluded user
    let hasAuthority := !user.isEmpty || !host.isEmpty || port.isSome
    if scheme.isEmpty && !hasAuthority && ['/', '/'].isPrefixOf path then throw .doubleSlash
    else if scheme.isEmpty && !hasAuthority && path.head? == some ':' then throw .colon
    else
      let path := if scheme.isEmpty && !hasAuthority then path else pathForm path
      return {
        scheme, user, host, port
        path := escape pathExcluded path
        query := query.map (escape queryExcluded)
        fragment := fragment.map (escape fragmentExcluded) }

def authority (a : Address) : List Char :=
  let user := if a.user.isEmpty then [] else a.user ++ ['@']
  let host := if a.host.contains ':' then '[' :: a.host ++ [']'] else a.host
  let port := match a.port with
    | some n => ':' :: (toString n).toList
    | none => []
  user ++ host ++ port

def text (a : Address) : String :=
  let part (mark : Char) : Option (List Char) → List Char
    | some cs => mark :: cs
    | none => []
  String.ofList <|
    (if a.scheme.isEmpty then [] else a.scheme ++ [':']) ++
    (if a.authority.isEmpty then [] else '/' :: '/' :: a.authority) ++
    a.path ++ part '?' a.query ++ part '#' a.fragment

/-! ## Addresses with another part -/

def parts (a : Address) : List (String × List Char) :=
  [("scheme", a.scheme), ("authority", a.authority), ("path", a.path)] ++
    a.query.toList.map (("query", ·)) ++ a.fragment.toList.map (("fragment", ·))

def checkParts (parts : List (String × List Char)) : Except AddressFault Unit :=
  match parts.find? fun part => maxLength < part.2.length with
  | some part => .error (.partTooLong part.1)
  | none => .ok ()

def withHost (a : Address) (host : List Char) : Except AddressFault Address := do
  checkParts (a.parts ++ [("host", host)])
  let hasAuthority := !a.user.isEmpty || !host.isEmpty || a.port.isSome
  if hasAuthority && a.path.head?.any (· != '/') then throw .rootless
  else return { a with host }

def withFragment (a : Address) (fragment : List Char) : Except AddressFault Address := do
  let a := { a with fragment := some fragment }
  checkParts a.parts
  return a

def join (toAscii : List Char → Option (List Char)) (base target : Address) :
    Except (AddressFault ⊕ Url.Fault) Address :=
  match Url.join base.text target.text with
  | .error fault => .error (.inr fault)
  | .ok joined => (parse toAscii joined).mapError .inl

end Address

def Reader.usual (toAscii : List Char → Option (List Char)) : Reader where
  parse := Address.parse toAscii
  withHost := Address.withHost
  withFragment := Address.withFragment
  join := Address.join toAscii

end WebAudit.Web
