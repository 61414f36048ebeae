import WebAudit.Classify
import WebAudit.Journal.Event
import WebAudit.Text.Utf8

/-!
# Keeping account of a collection

While material is collected, it is kept how many records there are, what was left out and why, and
whether the collection stopped at a limit.
-/

namespace WebAudit.Collect

def defaultDenied : List String :=
  ["node_modules", ".git", ".svn", ".hg", "dist", "build", "coverage", ".next", ".nuxt", ".cache",
   "temp", "tmp", "__pycache__", ".venv", "venv"]

structure Options where
  kinds : KindTable := defaultKinds
  /-- Names of folders that are passed over. -/
  denied : List String := defaultDenied
  maxFileSize : Int := 1048576
  maxFiles : Int := 5000
  /-- Whether the scripts and stylesheets that a page refers to are fetched. -/
  followAssets : Bool := false
deriving Repr, Inhabited

structure Ledger where
  /-- What was left out, in order. -/
  skipped : List Skip := []
  truncated : Bool := false
  /-- How many records were produced. -/
  produced : Nat := 0
  events : List Event := []
deriving Repr, Inhabited

namespace Ledger

def note (l : Ledger) (event : Event) : Ledger :=
  { l with events := l.events ++ [event] }

def skip (l : Ledger) (path : String) (reason : SkipReason) : Ledger :=
  { l.note (.recordSkipped ⟨path, reason⟩) with skipped := l.skipped ++ [⟨path, reason⟩] }

def hasRoom (l : Ledger) (options : Options) : Bool :=
  (l.produced : Int) < options.maxFiles

def cut (l : Ledger) : Ledger :=
  { l.note (.collectionTruncated l.produced) with truncated := true }

/-- Records that the limit on records was met; the first time counts. -/
def meetLimit (l : Ledger) : Ledger :=
  if l.truncated then l else l.cut

def count (l : Ledger) : Ledger :=
  { l with produced := l.produced + 1 }

/-- Makes a record of some bytes, unless they are no text. -/
def collect (l : Ledger) (path : String) (kind : ContentKind) (data : List UInt8) :
    Option Record × Ledger :=
  match Text.Utf8.decode data with
  | .error _ => (none, l.skip path .undecodable)
  | .ok content =>
    (some { path, content, kind, sizeBytes := data.length },
      l.count.note (.recordCollected path kind data.length))

end Ledger

/-- What becomes of one candidate for a record. -/
inductive Verdict where
  | record (r : Record)
  | pass
  /-- The collection ends here. -/
  | stop
deriving DecidableEq, Repr, Inhabited

def Verdict.ofOption : Option Record → Verdict
  | some r => .record r
  | none => .pass

end WebAudit.Collect
