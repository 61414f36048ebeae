import WebAudit.Table
import WebAudit.Web.Address

/-!
# Requests

The web is a table of replies, with a client that reads addresses. A request follows redirections, and
its answer counts only if the status says that it was successful.
-/

namespace WebAudit

namespace Web

structure Response where
  status : Int := 200
  headers : List (String × String) := []
  body : List UInt8 := []
deriving DecidableEq, Repr, Inhabited

inductive Reply where
  | response (r : Response)
  /-- There is no connection. -/
  | broken (cause : String)
deriving DecidableEq, Repr, Inhabited

/-- Why a request has no answer. -/
inductive FetchFault where
  | address (fault : AddressFault)
  /-- The place that a redirection names cannot be resolved. -/
  | unresolved (fault : Url.Fault)
  | unreachable (cause : String)
  | status (code : Int)
deriving DecidableEq, Repr, Inhabited

namespace Response

def isSuccess (r : Response) : Bool :=
  200 ≤ r.status && r.status ≤ 299

/-- The headers by their names in lower case; values under one name are joined. -/
def fields (r : Response) : List (String × String) :=
  r.headers.foldl (fun table (name, value) =>
    let name := Text.lower name
    match table.lookup name with
    | some old => Table.put name (old ++ ", " ++ value) table
    | none => Table.put name value table) []

def redirection? (r : Response) : Option String :=
  if [301, 302, 303, 307, 308].contains r.status then r.fields.lookup "location" else none

end Response

namespace Reader

/-- An absolute address that a redirection from `base` names. -/
def resolve (reader : Reader) (base target : Address) : Except FetchFault Address :=
  if target.scheme.isEmpty || target.host.isEmpty then
    (reader.join base target).mapError (Sum.elim .address .unresolved)
  else .ok target

/-- The address that a redirection from `base` names. The host and the fragment of `base` stand in for those
that are missing. -/
def redirect (reader : Reader) (base : Address) (location : String) : Except FetchFault Address := do
  let target ← (reader.parse location).mapError fun fault =>
    .unreachable ("Invalid URL in location header: " ++ fault.message ++ ".")
  let target ←
    if !target.scheme.isEmpty && target.host.isEmpty then (reader.withHost target base.host).mapError .address
    else pure target
  let target ← reader.resolve base target
  match base.fragment.getD [], target.fragment.getD [] with
  | c :: cs, [] => (reader.withFragment target (c :: cs)).mapError .address
  | _, _ => return target

end Reader

end Web

structure Web where
  /-- The replies to requests, by address. -/
  replies : List (String × Web.Reply) := []
  reader : Web.Reader := .usual fun _ => none

namespace Web

/-- The reply to a request; what is not there is reported as missing. -/
def reply (web : Web) (address : Address) : Reply :=
  (web.replies.lookup address.text).getD (.response { status := 404 })

def maxRedirections : Nat := 20

/-- Makes up to `requests` requests, each where the one before it is redirected to. -/
def request (web : Web) : Nat → Address → Except FetchFault Response
  | 0, _ => .error (.unreachable "Exceeded maximum allowed redirects.")
  | requests + 1, address =>
    match web.reply address with
    | .broken cause => .error (.unreachable cause)
    | .response r =>
      match r.redirection? with
      | some location => do
        let next ← web.reader.redirect address location
        web.request requests next
      | none => if r.isSuccess then .ok r else .error (.status r.status)

def fetch (web : Web) (url : String) : Except FetchFault Response := do
  let address ← (web.reader.parse url).mapError .address
  web.request (maxRedirections + 1) address

end Web

end WebAudit
