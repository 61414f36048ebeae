import WebAudit.Text.Lowercase
import WebAudit.Text.Slice
import WebAudit.Url.Host

/-!
# Addresses of resources

An address is a scheme, a host, a path with parameters, a query and a fragment, each of which may be
empty.
-/

namespace WebAudit

structure Url where
  scheme : List Char := []
  netloc : List Char := []
  path : List Char := []
  params : List Char := []
  query : List Char := []
  fragment : List Char := []
deriving DecidableEq, Repr, Inhabited

namespace Url

def relativeSchemes : List String :=
  ["", "ftp", "http", "gopher", "nntp", "imap", "wais", "file", "https", "shttp", "mms", "prospero",
   "rtsp", "rtsps", "rtspu", "sftp", "svn", "svn+ssh", "ws", "wss"]

def hostSchemes : List String :=
  ["", "ftp", "http", "gopher", "nntp", "telnet", "imap", "wais", "file", "mms", "https", "shttp",
   "snews", "prospero", "rtsp", "rtsps", "rtspu", "rsync", "svn", "svn+ssh", "sftp", "nfs", "git",
   "git+ssh", "ws", "wss"]

def paramSchemes : List String :=
  ["", "ftp", "hdl", "prospero", "http", "imap", "https", "shttp", "rtsp", "rtsps", "rtspu", "sip",
   "sips", "mms", "sftp", "tel"]

def usesScheme (schemes : List String) (scheme : List Char) : Bool :=
  schemes.contains (String.ofList scheme)

def isSchemeChar (c : Char) : Bool :=
  c.isAlphanum || c == '+' || c == '-' || c == '.'

/-- The part in front of the first occurrence of a character, and the part after it. -/
def cutFirst (c : Char) (cs : List Char) : List Char × List Char :=
  let front := cs.takeWhile (· != c)
  (front, cs.drop (front.length + 1))

/-- The scheme in front of the first colon, in lower case, and the rest. -/
def splitScheme (fallback cs : List Char) : List Char × List Char :=
  let word := cs.takeWhile (· != ':')
  if word.length < cs.length && word.head?.any Char.isAlpha && word.all isSchemeChar then
    (Text.lowerChars word, cs.drop (word.length + 1))
  else (fallback, cs)

def splitHost (cs : List Char) : List Char × List Char :=
  match cs with
  | '/' :: '/' :: rest =>
    let host := rest.takeWhile fun c => !(c == '/' || c == '?' || c == '#')
    (host, rest.drop host.length)
  | _ => ([], cs)

/-- Characters that turn into a delimiter when they are normalized. -/
def delimiterLike : List Nat :=
  [0x2047, 0x2048, 0x2049, 0x2100, 0x2101, 0x2105, 0x2106, 0x2A74, 0xFE13, 0xFE16, 0xFE55, 0xFE56,
   0xFE5F, 0xFE6B, 0xFF03, 0xFF0F, 0xFF1A, 0xFF1F, 0xFF20]

/-- Checks the brackets of a host and what stands between them. -/
def checkBrackets (netloc : List Char) : Except Fault Unit :=
  match netloc.contains '[', netloc.contains ']' with
  | true, true => checkHost (cutFirst ']' (cutFirst '[' netloc).2).1
  | false, false => .ok ()
  | _, _ => .error .brackets

def checkDelimiters (netloc : List Char) : Except Fault Unit :=
  if netloc.any fun c => delimiterLike.contains c.toNat then
    .error (.hiddenDelimiter (String.ofList netloc))
  else .ok ()

/-- Splits off the parameters of the last segment of a path. -/
def splitParams (path : List Char) : List Char × List Char :=
  let name := path.reverse.takeWhile (· != '/') |>.reverse
  let front := path.take (path.length - name.length)
  let (name, params) := cutFirst ';' name
  (front ++ name, params)

/-- An address without control characters in front and without line ends and tabs. -/
def clean (cs : List Char) : List Char :=
  (cs.dropWhile (·.toNat ≤ 0x20)).filter fun c => !(c == '\t' || c == '\r' || c == '\n')

/-- The parts of an address; one without a scheme gets the given one. -/
def parse (text : String) (fallback : List Char := []) : Except Fault Url := do
  let (scheme, rest) := splitScheme fallback (clean text.toList)
  let (netloc, rest) := splitHost rest
  checkBrackets netloc
  let (rest, fragment) := cutFirst '#' rest
  let (path, query) := cutFirst '?' rest
  checkDelimiters netloc
  let (path, params) := if usesScheme paramSchemes scheme then splitParams path else (path, [])
  return { scheme, netloc, path, params, query, fragment }

def marked (mark : Char) (part : List Char) : List Char :=
  if part.isEmpty then [] else mark :: part

def text (u : Url) : String :=
  let path := u.path ++ marked ';' u.params
  let hasHost := !u.netloc.isEmpty || (!u.scheme.isEmpty && usesScheme hostSchemes u.scheme) ||
    ['/', '/'].isPrefixOf path
  let path :=
    if hasHost then
      let rooted := if path.isEmpty || path.head? == some '/' then path else '/' :: path
      '/' :: '/' :: u.netloc ++ rooted
    else path
  let scheme := if u.scheme.isEmpty then [] else u.scheme ++ [':']
  String.ofList (scheme ++ path ++ marked '?' u.query ++ marked '#' u.fragment)

def isRemote (locator : String) : Except Fault Bool := do
  let u ← parse locator
  return u.scheme == "http".toList || u.scheme == "https".toList

end Url

end WebAudit
