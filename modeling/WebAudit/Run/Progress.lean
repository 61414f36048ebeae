import WebAudit.Number.Rounding

/-!
# Progress

Progress is a percentage with a message. Reported percentages never go down and never pass a
hundred. A listener is told of every report; should it fail, that is noted and nothing else comes of it.
-/

namespace WebAudit

structure Progress where
  percent : Rat
  message : String
deriving DecidableEq, Repr, Inhabited

namespace Progress

/-- The percentage that is shown after `previous` when `next` is reported. -/
def advance (previous next : Rat) : Rat :=
  let reached := if previous ≤ next then next else previous
  if reached ≤ 100 then reached else 100

def shownFrom (previous : Rat) : List Progress → List Progress
  | [] => []
  | p :: ps =>
    let percent := advance previous p.percent
    ⟨percent, p.message⟩ :: shownFrom percent ps

def shown (reports : List Progress) : List Progress :=
  shownFrom 0 reports

def percentText (p : Progress) : String :=
  Number.fixed 6 p.percent.num.toNat p.percent.den

end Progress

/-- One who is told of the progress of a run. What it hears changes its state, and it may fail. -/
structure Listener (σ : Type) where
  hear : Progress → σ → Except String Unit × σ
  /-- Whether it wants the run to stop. -/
  stops : σ → Bool

namespace Listener

variable {σ : Type}

def failureNote (text : String) : String :=
  "Progress callback failed: " ++ text

/-- Tells of reports, one after the other: the state after them, and what was noted of failures. -/
def tell (l : Listener σ) : List Progress → σ → σ × List String
  | [], s => (s, [])
  | p :: ps, s =>
    match l.hear p s with
    | (.ok (), s) => l.tell ps s
    | (.error text, s) =>
      let (s, notes) := l.tell ps s
      (s, failureNote text :: notes)

end Listener

end WebAudit
