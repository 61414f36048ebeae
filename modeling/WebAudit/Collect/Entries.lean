import WebAudit.Archive.Session
import WebAudit.Collect.Ledger

/-!
# Collecting the entries of an archive
-/

namespace WebAudit.Collect

open Archive (Entry Session Failure)

/-- Whether a folder on the way to a path is passed over. -/
def insideDenied (denied : List String) (path : List Char) : Bool :=
  (Path.components path).dropLast.any fun c => denied.contains (String.ofList c)

/-- Judges an entry. Entries inside folders that are passed over, and those of no supported kind, are
ignored before the limit is looked at. -/
def judgeEntry (options : Options) (s : Session) (l : Ledger) (e : Entry) :
    Except Failure (Verdict × Session × Ledger) := do
  if ← e.isDirectory then return (.pass, s, l)
  else
    let path := Path.normalName e.name
    let name := String.ofList path
    let kind := classify name options.kinds
    if insideDenied options.denied path || kind = .unsupported then return (.pass, s, l)
    else if !l.hasRoom options then return (.stop, s, l.meetLimit)
    else
      match s.read e with
      | (.error (.failed failure), _) => throw failure
      | (.error (.entry fault), s) =>
        let l := l.skip name (.ofMessage fault.message)
        if s.exhausted then return (.stop, s, l.cut) else return (.pass, s, l)
      | (.ok data, s) =>
        let (record, l) := l.collect name kind data
        return (.ofOption record, s, l)

def nextEntry (options : Options) :
    List Entry → Session → Ledger → Except Failure (Option Record × List Entry × Session × Ledger)
  | [], s, l => .ok (none, [], s, l)
  | e :: es, s, l =>
    match judgeEntry options s l e with
    | .error failure => .error failure
    | .ok (.record r, s, l) => .ok (some r, es, s, l)
    | .ok (.pass, s, l) => nextEntry options es s l
    | .ok (.stop, s, l) => .ok (none, [], s, l)

/-- Fewer entries are left behind a record. -/
theorem nextEntry_length {options : Options} {es rest : List Entry} {s s' : Session} {l l' : Ledger}
    {r : Option Record} (h : nextEntry options es s l = .ok (r, rest, s', l')) :
    rest.length ≤ es.length ∧ (r.isSome → rest.length < es.length) := by
  induction es generalizing s l with
  | nil =>
    simp only [nextEntry, Except.ok.injEq, Prod.mk.injEq] at h
    obtain ⟨rfl, rfl, _⟩ := h
    simp
  | cons e es ih =>
    rw [nextEntry] at h
    split at h
    · contradiction
    · simp only [Except.ok.injEq, Prod.mk.injEq] at h
      obtain ⟨rfl, rfl, _⟩ := h
      simp
    · have := ih h
      simp only [List.length_cons]
      omega
    · simp only [Except.ok.injEq, Prod.mk.injEq] at h
      obtain ⟨rfl, rfl, _⟩ := h
      simp

end WebAudit.Collect
