import WebAudit.Script.State

/-!
# Reading a script

A reader consumes text and puts the nodes it completes on a stack; `node` folds what a reader put
there into one node. Blanks and comments between tokens are left out of the stack and kept aside.
A reader that gets stuck tells how far reading ever came and what stood on the stack there, which is
what a repair starts from: a repair puts stretches of text aside as holes, or inserts a token. Whatever
a reader does, it stays in the text.
-/

namespace WebAudit.Script

structure Reader (α : Type) where
  run : Setting → State → Outcome α
  within {text : List Char} {set : Setting} {s : State} :
    set.Within text → s.Within text → (run set s).Within text

namespace Reader

variable {α β : Type}

@[inline] protected def pure (a : α) : Reader α where
  run _ s := .ok a s
  within _ h := h

@[inline] protected def bind (p : Reader α) (f : α → Reader β) : Reader β where
  run set s :=
    match p.run set s with
    | .ok a s => (f a).run set s
    | .stuck r => .stuck r
  within {text set s} hSet h := by
    have hFirst := p.within hSet h
    split
    · rename_i a s' hOk
      rw [hOk] at hFirst
      exact (f a).within hSet hFirst
    · rename_i hStuck
      rw [hStuck] at hFirst
      exact hFirst

instance : Monad Reader where
  pure := Reader.pure
  bind := Reader.bind

/-- Reads as `p` does, or as `q` where `p` gets stuck. -/
@[inline] def orElse (p : Reader α) (q : Unit → Reader α) : Reader α where
  run set s :=
    match p.run set s with
    | .ok a s => .ok a s
    | .stuck reach =>
      if set.patience < reach.effort then .stuck reach else (q ()).run set { s with reach }
  within {text set s} hSet h := by
    have hFirst := p.within hSet h
    split
    · rename_i hOk
      rw [hOk] at hFirst
      exact hFirst
    · rename_i hStuck
      rw [hStuck] at hFirst
      split
      · exact hFirst
      · exact (q ()).within hSet (h.withReach hFirst)

instance : OrElse (Reader α) := ⟨orElse⟩

@[inline] def observe (f : Setting → State → α) : Reader α where
  run set s := .ok (f set s) s
  within _ h := h

def dialect : Reader Dialect :=
  observe fun set _ => set.dialect

def typed : Reader Bool :=
  observe fun set _ => set.dialect.isTyped

def mark : Reader Nat :=
  observe fun _ s => s.height

def ahead : Reader (List Char) :=
  observe fun set s => (s.toToken set).rest

/-- The text right after the last token. -/
def here : Reader (List Char) :=
  observe fun _ s => s.rest

/-- Whether a line break stands before the next token. -/
def breakAhead : Reader Bool :=
  observe fun set s => (s.toToken set).point.row != s.point.row

def wordAhead : Reader String :=
  observe fun set s => ((Lexeme.name (s.toToken set).rest).map (String.ofList ·.1)).getD ""

def topKind : Reader Kind :=
  observe fun _ s => (s.stack.head?.map Node.kind).getD .error

def setOperand (b : Bool) : Reader Unit where
  run _ s := .ok () { s with operand := b }
  within _ h := ⟨h.place, h.stack, h.extras, h.reach, h.order⟩

def asRole (r : Role) : Reader Unit where
  run _ s := .ok () (s.mapTop (·.withRole r))
  within _ h := h.withRole r

def reduceFrom (mark : Nat) (kind : Kind) : Reader Unit where
  run _ s := .ok () (s.reduce kind mark)
  within _ h := h.reduce kind mark

def node (kind : Kind) (body : Reader Unit) : Reader Unit := do
  let m ← mark
  body
  reduceFrom m kind

def role (r : Role) (body : Reader Unit) : Reader Unit := do
  body
  asRole r

def isWord (spelling : String) : Bool :=
  spelling.toList.head?.any Char.isAlpha

/-- The rest after a token; a word must not go on. -/
def tokenRest (spelling : String) (cs : List Char) : Option (List Char) :=
  match Lexeme.dropSpelling spelling.toList cs with
  | some rest =>
    if isWord spelling && (rest.head?.any fun c => Lexeme.isNamePart c || c == '\\') then none
    else some rest
  | none => none

def tokenSplit (spelling : String) (cs : List Char) : Lexeme.Split :=
  (tokenRest spelling cs).map (spelling.toList, ·)

instance (spelling : String) : Lexeme.Exact (tokenSplit spelling) where
  append_eq {cs text rest} h := by
    obtain ⟨after, hAfter, hSome⟩ := Option.map_eq_some_iff.mp h
    cases hSome
    unfold tokenRest at hAfter
    split at hAfter
    · rename_i hSpelling
      split at hAfter
      · cases hAfter
      · cases hAfter
        exact Lexeme.append_of_dropSpelling hSpelling
    · cases hAfter

def at? (spelling : String) : Reader Bool :=
  observe fun set s => (tokenRest spelling (s.toToken set).rest).isSome

/-- A piece of text in front, blanks passed, as a leaf. -/
def piece (kind : Kind) (split : List Char → Lexeme.Split) [Lexeme.Exact split] : Reader Unit where
  run set s :=
    let t := s.toToken set
    match split t.rest with
    | some (text, rest) => .ok () (t.shift kind text rest)
    | none =>
      if s.inserts.contains (s.point.byte, kind) then .ok () (s.insert kind)
      else .stuck (s.miss set kind)
  within {text set s} hSet h := by
    dsimp only
    split
    · rename_i hSplit
      exact (h.toToken hSet).shift (Lexeme.Exact.append_eq hSplit)
    · split
      · exact h.insert kind
      · exact h.note _ _ _

def tok (spelling : String) : Reader Unit :=
  piece (.token spelling) (tokenSplit spelling)

def pieceHere (kind : Kind) (split : List Char → Lexeme.Split) [Lexeme.Exact split] :
    Reader Unit where
  run set s :=
    match split s.rest with
    | some (text, rest) => .ok () (s.shift kind text rest)
    | none =>
      if s.inserts.contains (s.point.byte, kind) then .ok () (s.insert kind)
      else .stuck (s.reach.note (s.toToken set).point.byte ⟨kind, s.stack, s.extras, s.point⟩)
  within {text set s} hSet h := by
    split
    · rename_i hSplit
      exact h.shift (Lexeme.Exact.append_eq hSplit)
    · split
      · exact h.insert kind
      · exact h.note _ _ _

def tokHere (spelling : String) : Reader Unit :=
  pieceHere (.token spelling) (Lexeme.spelled spelling)

def tok? (spelling : String) : Reader Bool := do
  if ← at? spelling then
    tok spelling
    return true
  else return false

def opt (spelling : String) : Reader Unit := do
  let _ ← tok? spelling

/-- Tries a reader and goes back if it gets stuck. -/
def attempt (p : Reader Unit) : Reader Bool :=
  (do p; return true) <|> return false

def attemptIf (b : Bool) (p : Reader Unit) : Reader Bool :=
  if b then attempt p else return false

def trying (p : Reader Unit) : Reader Unit where
  run set s := p.run set (s.spend (s.reach.effort + 1))
  within hSet h := p.within hSet (h.spend _)

/-- Whether a reader gets through; nothing is consumed. -/
def looking (p : Reader Unit) : Reader Bool where
  run set s :=
    match p.run set s with
    | .ok _ after => .ok true (s.spend after.reach.effort)
    | .stuck reach => .ok false (s.spend reach.effort)
  within {text set s} _ h := by
    split
    · exact h.spend _
    · exact h.spend _

def loopFrom (body : Reader Bool) (set : Setting) : Nat → State → Outcome Unit
  | 0, s => .ok () s
  | fuel + 1, s =>
    match body.run set s with
    | .ok true s => loopFrom body set fuel s
    | .ok false s => .ok () s
    | .stuck r => .stuck r

theorem within_loopFrom {body : Reader Bool} {text : List Char} {set : Setting} {fuel : Nat} {s : State}
    (hSet : set.Within text) (h : s.Within text) : (loopFrom body set fuel s).Within text := by
  induction fuel generalizing s with
  | zero => exact h
  | succ fuel ih =>
    have hRound := body.within hSet h
    rw [loopFrom]
    split
    · rename_i hOk
      rw [hOk] at hRound
      exact ih hRound
    · rename_i hOk
      rw [hOk] at hRound
      exact hRound
    · rename_i hStuck
      rw [hStuck] at hRound
      exact hRound

/-- Repeats a reader as long as it answers `true`. -/
def loop (body : Reader Bool) : Reader Unit where
  run set s := loopFrom body set set.limit s
  within hSet h := within_loopFrom hSet h

/-- Whether a list ends: its closing token comes next, or a repair inserts it, or the text is over. -/
def closes (close : String) : Reader Bool where
  run set s :=
    let rest := (s.toToken set).rest
    if (tokenRest close rest).isSome || rest.isEmpty ||
        s.inserts.contains (s.point.byte, .token close) then .ok true s
    else .ok false { s with reach := s.miss set (.token close) }
  within {text set s} _ h := by
    dsimp only
    split
    · exact h
    · exact h.withReach (h.note _ _ _)

/-- Items up to a closing token, which is left to the caller. -/
def itemsUntil (close : String) (item : Reader Unit) : Reader Unit :=
  loop do
    if ← closes close then return false
    item
    return true

/-- Items between commas, up to a closing token; items may be left out when `holes` is set. -/
def commaList (close : String) (holes : Bool) (item : Reader Unit) : Reader Unit :=
  loop do
    if ← closes close then return false
    if holes && (← at? ",") then
      tok ","
      return true
    item
    if ← tok? "," then return true
    return false

def endsHere (set : Setting) (s : State) : Bool :=
  Lexeme.endsStatement set.dialect.isTyped s.operand s.rest

/-- A line end that stands for a semicolon, possibly behind comments. -/
def lineEndFrom (set : Setting) : Nat → State → Option State
  | 0, _ => none
  | fuel + 1, s =>
    if endsHere set s then some s
    else
      match s.skipOne set with
      | some s => lineEndFrom set fuel s
      | none => none

theorem within_lineEndFrom {text : List Char} {set : Setting} {fuel : Nat} {s s' : State}
    (hSet : set.Within text) (h : s.Within text) (hEnd : lineEndFrom set fuel s = some s') :
    s'.Within text := by
  induction fuel generalizing s with
  | zero => cases hEnd
  | succ fuel ih =>
    rw [lineEndFrom] at hEnd
    split at hEnd
    · cases hEnd
      exact h
    · split at hEnd
      · rename_i hSkip
        exact ih (h.skipOne hSet hSkip) hEnd
      · cases hEnd

/-- The end of a statement: a semicolon, or a place where none is needed. -/
def semicolon : Reader Unit where
  run set s :=
    let t := s.toToken set
    match t.gap with
    | .settled => (tok ";").run set s
    | .closed => .ok () { s with operand := false }
    | .none =>
      if (tokenRest ";" t.rest).isSome then (tok ";").run set s
      else
        match lineEndFrom set set.limit s with
        | some s => .ok () { s with operand := false }
        | none => (tok ";").run set s
  within {text set s} hSet h := by
    dsimp only
    split
    · exact (tok ";").within hSet h
    · exact ⟨h.place, h.stack, h.extras, h.reach, h.order⟩
    · split
      · exact (tok ";").within hSet h
      · split
        · rename_i hEnd
          have hAfter := within_lineEndFrom hSet h hEnd
          exact ⟨hAfter.place, hAfter.stack, hAfter.extras, hAfter.reach, hAfter.order⟩
        · exact (tok ";").within hSet h

end Reader

end WebAudit.Script
