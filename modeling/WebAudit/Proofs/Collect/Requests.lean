import Mathlib.Logic.ExistsUnique
import WebAudit.Proofs.Collect.Whole

/-!
# Requests for pages and their assets

Most of what can go wrong with a request is told by the fault of a page, or by a skip. Two things are not: an
address that cannot be read, and a redirection, maybe the last of many, to a place that cannot be made out. Which
addresses these are is up to the client. A page from a file has a third: the system may refuse to look for the file.
A page or an asset fails by an error of its own kind except for these, and the account of all calls for assets
balances.
-/

namespace WebAudit

namespace Web

/-! ## Redirections -/

def FetchFault.lacksAddress : FetchFault → Bool
  | .address _ | .unresolved _ => true
  | .unreachable _ | .status _ => false

/-- Requests that start at one address get to another by so many redirections. -/
inductive Leads (web : Web) : Nat → Address → Address → Prop
  | here (a : Address) : Leads web 0 a a
  | onward {n : Nat} {a b c : Address} {r : Response} {location : String}
      (hReply : web.reply a = .response r) (hLocation : r.redirection? = some location)
      (hNext : web.reader.redirect a location = .ok b) (hRest : Leads web n b c) : Leads web (n + 1) a c

structure Strands (web : Web) (a : Address) (r : Response) (location : String) (fault : FetchFault) : Prop where
  reply : web.reply a = .response r
  redirection : r.redirection? = some location
  stranded : web.reader.redirect a location = .error fault
  lacksAddress : fault.lacksAddress = true

variable {web : Web} {fault : FetchFault}

/-- No request is left to make: the text is no address, or redirections lead from it to no address. -/
inductive Refuses (web : Web) (url : String) : FetchFault → Prop
  | address {fault : AddressFault} (hParse : web.reader.parse url = .error fault) :
      Refuses web url (.address fault)
  | redirected {n : Nat} {a b : Address} {r : Response} {location : String} {fault : FetchFault}
      (hParse : web.reader.parse url = .ok a) (hBound : n ≤ maxRedirections) (hLeads : web.Leads n a b)
      (hStrands : web.Strands b r location fault) : Refuses web url fault

theorem Refuses.lacksAddress {url : String} (h : web.Refuses url fault) : fault.lacksAddress = true := by
  cases h with
  | address => rfl
  | redirected _ _ _ hStrands => exact hStrands.lacksAddress

end Web

namespace Collect

/-! ## Pages -/

variable {world : World} {options : Options} {source : Source}

def Usable (web : Web) (options : Options) (url : String) : Prop :=
  ∃ response content, web.fetch url = .ok response ∧ (response.body.length : Int) ≤ options.maxFileSize ∧
    Text.Utf8.decode response.body = .ok content

variable {web : Web} {url : String} {l : Ledger}

structure Call where
  url : String
  kind : ContentKind
  origin : String

/-- A call for an asset, the account before it and what it comes to. -/
structure Step where
  call : Call
  before : Ledger
  outcome : Except AssetFault (Option Record × Ledger)

namespace Step

/-- The account after a call; a call that fails leaves it as it is. -/
def after (s : Step) : Ledger :=
  match s.outcome with
  | .ok (_, l) => l
  | .error _ => s.before

def record? (s : Step) : Option Record :=
  match s.outcome with
  | .ok (record, _) => record
  | .error _ => none

def Fails (s : Step) : Prop :=
  ∃ fault, s.outcome = .error fault

end Step

def Call.step (web : Web) (options : Options) (l : Ledger) (call : Call) : Step :=
  ⟨call, l, fetchAsset web options call.url call.kind call.origin l⟩

def steps (web : Web) (options : Options) : Ledger → List Call → List Step
  | _, [] => []
  | l, call :: calls =>
    let s := call.step web options l
    s :: steps web options s.after calls

inductive Way where
  | delivers
  | skips
  | rests

inductive Step.Takes (web : Web) (options : Options) (s : Step) : Way → Prop
  | delivers {r : Record} (hOutcome : s.outcome = .ok (some r, s.after)) (hUsable : Usable web options s.call.url)
      (hSynthetic : r.synthetic = true) (hPath : r.path = s.call.url)
      (hSize : (r.sizeBytes : Int) ≤ options.maxFileSize) (hSkipped : s.after.skipped = s.before.skipped) :
      Takes web options s .delivers
  | skips {reason : SkipReason} (hOutcome : s.outcome = .ok (none, s.after))
      (hUsable : ¬Usable web options s.call.url)
      (hSkipped : s.after.skipped = s.before.skipped ++ [⟨s.call.url, reason⟩]) : Takes web options s .skips
  | rests (hOutcome : s.outcome = .ok (none, s.after))
      (hCause : Url.isRemote s.call.url = .ok false ∨ s.before.hasRoom options = false)
      (hSkipped : s.after.skipped = s.before.skipped) : Takes web options s .rests

theorem Step.Takes.unique {s : Step} {way way' : Way} (h : s.Takes web options way)
    (h' : s.Takes web options way') : way = way' := by
  cases h <;> cases h' <;> simp_all

@[simp] theorem Ledger.truncated_meetLimit (l : Ledger) : l.meetLimit.truncated = true := by
  unfold meetLimit
  split
  · assumption
  · rfl

def Ledger.Settled (options : Options) (l : Ledger) : Prop :=
  l.truncated = true → l.hasRoom options = false

namespace Step

variable {s : Step}

end Step

/-! ## Runs of calls -/

end Collect

end WebAudit
