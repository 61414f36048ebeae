import WebAudit.Archive.Stream
import WebAudit.Collect.Ledger
import WebAudit.Config.Source
import WebAudit.Disk.Tree
import WebAudit.Web.Fetch

/-!
# Pages and their assets

A page is handed over, requested, or read from a file. The scripts and stylesheets that it refers to
are requested one by one.
-/

namespace WebAudit.Collect

/-- Where material comes from, and the libraries that unpack it. -/
structure World where
  disk : Disk
  web : Web := {}
  codecs : Archive.Codecs := {}

inductive PageFault where
  | missing
  /-- The file is there and may not be read. -/
  | unreadable
  /-- The system refuses to look for the file. -/
  | lookup (fault : Disk.LookupFault)
  | refused (status : Int)
  | unreachable (cause : String)
  | tooLarge (size : Nat) (limit : Int)
  | undecodable (fault : Text.Utf8.Fault)
  /-- Neither a place nor material is given. -/
  | unnamed
  /-- The address cannot be read. -/
  | malformed (fault : Url.Fault)
  /-- No request can be made to the address. -/
  | unusable (fault : Web.AddressFault)
deriving DecidableEq, Repr, Inhabited

/-- A path in the form that messages of the system show. -/
def tidyText (path : String) : String :=
  String.ofList (Path.tidy path.toList)

def PageFault.message (locator : String) : PageFault → String
  | missing => "Page not found: " ++ locator
  | unreadable =>
    "Cannot read page " ++ locator ++ ": " ++ Disk.LookupFault.forbidden.message (tidyText locator)
  | lookup fault => fault.message (tidyText locator)
  | refused status => "Page request failed with HTTP " ++ toString status ++ ": " ++ locator
  | unreachable cause => "Cannot fetch page " ++ locator ++ ": " ++ cause
  | tooLarge size limit =>
    "Page too large: " ++ toString size ++ " > " ++ toString limit ++ " bytes"
  | undecodable fault => "Page is not valid UTF-8: " ++ fault.message
  | unnamed => "Page source needs a locator or content"
  | malformed fault => fault.message
  | unusable fault => fault.message

def defaultPagePath : String := "page.html"

structure RawPage where
  path : String
  data : List UInt8
  metadata : List (String × String) := []

def Content.data : Content → List UInt8
  | .text s => s.toUTF8.data.toList
  | .bytes b => b

def PageFault.ofFetch : Web.FetchFault → PageFault
  | .address fault => .unusable fault
  | .unresolved fault => .malformed fault
  | .unreachable cause => .unreachable cause
  | .status 404 => .missing
  | .status code => .refused code

def lastComponent (path : String) : String :=
  String.ofList ((Path.tidyComponents path.toList).getLastD [])

def rawPage (world : World) (source : Source) : Except PageFault RawPage := do
  match source.content with
  | some content =>
    return {
      path := if source.locator.isEmpty then defaultPagePath else source.locator
      data := Content.data content }
  | none =>
    if ← (Url.isRemote source.locator).mapError .malformed then
      let response ← (world.web.fetch source.locator).mapError .ofFetch
      return { path := source.locator, data := response.body, metadata := response.fields }
    else if source.locator.isEmpty then throw .unnamed
    else
      match world.disk.find source.locator with
      | .ok (.file data) => return { path := lastComponent source.locator, data }
      | .ok (.locked _) => throw .unreadable
      | .ok _ | .error .absent => throw .missing
      | .error fault => throw (.lookup fault)

def page (world : World) (options : Options) (source : Source) : Except PageFault Record := do
  let raw ← rawPage world source
  let size := raw.data.length
  if options.maxFileSize < (size : Int) then throw (.tooLarge size options.maxFileSize)
  else
    let content ← (Text.Utf8.decode raw.data).mapError .undecodable
    return { path := raw.path, content, kind := .markup, sizeBytes := size, metadata := raw.metadata }

/-! ## Assets -/

def externalMark : String × String := ("embedded", "external")

/-- Why a request for an asset cannot be made at all. -/
inductive AssetFault where
  | malformed (fault : Url.Fault)
  | unusable (fault : Web.AddressFault)
deriving DecidableEq, Repr, Inhabited

def AssetFault.message : AssetFault → String
  | malformed fault => fault.message
  | unusable fault => fault.message

def takeAsset (options : Options) (url : String) (kind : ContentKind) (origin : String)
    (data : List UInt8) (l : Ledger) : Option Record × Ledger :=
  if options.maxFileSize < (data.length : Int) then (none, l.skip url .tooLarge)
  else
    match Text.Utf8.decode data with
    | .error _ => (none, l.skip url .undecodable)
    | .ok content =>
      (some { path := url, content, kind, sizeBytes := data.length, synthetic := true,
              origin := some origin, metadata := [externalMark] }, l.count)

/-- Requests an asset of a page. Addresses of other schemes are left alone. -/
def fetchAsset (web : Web) (options : Options) (url : String) (kind : ContentKind) (origin : String)
    (l : Ledger) : Except AssetFault (Option Record × Ledger) :=
  match Url.isRemote url with
  | .error fault => .error (.malformed fault)
  | .ok false => .ok (none, l)
  | .ok true =>
    if !l.hasRoom options then .ok (none, l.meetLimit)
    else
      match web.fetch url with
      | .error (.address fault) => .error (.unusable fault)
      | .error (.unresolved fault) => .error (.malformed fault)
      | .error _ => .ok (none, l.skip url .fetchFailed)
      | .ok response => .ok (takeAsset options url kind origin response.body l)

/-- The record of an asset is of the kind that was asked for, and it is no file of its own. -/
theorem record_of_fetchAsset {web : Web} {options : Options} {url origin : String} {kind : ContentKind}
    {l l' : Ledger} {r : Record} (h : fetchAsset web options url kind origin l = .ok (some r, l')) :
    r.kind = kind ∧ r.synthetic = true ∧ r.lineOffset = 0 := by
  unfold fetchAsset at h
  split at h
  · cases h
  · cases h
  · split at h
    · cases h
    · split at h
      · cases h
      · cases h
      · cases h
      · unfold takeAsset at h
        split at h
        · cases h
        · split at h
          · cases h
          · cases h
            exact ⟨rfl, rfl, rfl⟩

end WebAudit.Collect
