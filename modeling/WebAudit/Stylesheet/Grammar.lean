import WebAudit.Stylesheet.Notes

/-!
# Grammars

A grammar is a word, a choice between grammars or a sequence of grammars that is repeated. It is
walked token by token: a stack of frames holds what has been entered and not yet left, and a token
either leads to the next word or says what is missing.
-/

namespace WebAudit.Stylesheet

/-- The constructs that are read from the inside of another one. -/
inductive Construct where
  | value
  | color
  | signed
  | function
  | variable
  | sum
  | free
  | query
  | queries
  | declarations
deriving DecidableEq, Repr, Inhabited

/-- What becomes of a token that a word accepts. -/
inductive Use where
  /-- It is written as it stands. -/
  | keep
  /-- It is written in the normal spelling. -/
  | spell
  /-- It is left out. -/
  | drop
  /-- It is the first token of a construct, which is read to its end. -/
  | enter (construct : Construct)
deriving DecidableEq, Repr, Inhabited

/-- How reading goes on after a word. -/
inductive Ending where
  | goOn
  /-- The construct is complete. -/
  | stop
  /-- The token does not belong to the construct, which is complete. -/
  | refuse
  /-- A token that does not fit from here on ends the construct. -/
  | yield
deriving DecidableEq, Repr, Inhabited

structure Word where
  name : String
  accepts : Token → Bool
  use : Token → Use := fun _ => .keep
  isOptional : Bool := false
  ending : Ending := .goOn
  /-- Nothing is missed if the text ends after the word. -/
  mayEnd : Bool := false
  /-- A blank after the word is a token and not passed over. -/
  blanksCount : Bool := false

inductive Grammar where
  | word (w : Word)
  | choice (options : List Grammar)
  /-- At least `least` rounds, and at most `most` if there is a limit. -/
  | sequence (least : Nat) (most : Option Nat) (parts : List Grammar)

namespace Grammar

def name : Grammar → String
  | word w => w.name
  | choice options => "Choice(" ++ names options ++ ")"
  | sequence _ _ parts => "Sequence(" ++ names parts ++ ")"
where
  names : List Grammar → String
    | [] => ""
    | [g] => g.name
    | g :: gs => g.name ++ ", " ++ names gs

def once (parts : List Grammar) : Grammar :=
  sequence 1 (some 1) parts

def many (parts : List Grammar) : Grammar :=
  sequence 0 none parts

def isOptional : Grammar → Bool
  | word w => w.isOptional
  | choice options => anyOptional options
  | sequence least _ _ => least == 0
where
  anyOptional : List Grammar → Bool
    | [] => false
    | g :: gs => g.isOptional || anyOptional gs

def accepts (t : Token) : Grammar → Bool
  | word w => w.accepts t
  | choice options => anyAccepts options
  | sequence _ _ parts => firstAccepts parts
where
  anyAccepts : List Grammar → Bool
    | [] => false
    | g :: gs => g.accepts t || anyAccepts gs
  firstAccepts : List Grammar → Bool
    | [] => false
    | g :: gs => g.accepts t || (g.isOptional && firstAccepts gs)

end Grammar

/-! ## Frames -/

/-- A place in a grammar that has been entered. -/
inductive Frame where
  | choice (options : List Grammar) (taken : Bool)
  /-- The parts that are due in a round, and whether one of the round has been met. -/
  | sequence (least : Nat) (most : Option Nat) (parts due : List Grammar) (round : Nat)
    (started : Bool)

/-- What a frame says to a token, or to the end of the text. -/
inductive Reply where
  | found (g : Grammar)
  | missing (g : Grammar)
  | unmatched (message : String)
  | nothing

def within (most : Option Nat) (round : Nat) : Bool :=
  most.all fun n => round < n

/-- The reply of the parts that are due in a round; nothing if all of them are optional and none
fits. -/
def scan (t : Option Token) (least : Nat) (most : Option Nat) (parts : List Grammar) (round : Nat) :
    Bool → List Grammar → Option (Reply × Frame)
  | _, [] => none
  | started, g :: gs =>
    let after (started : Bool) : Frame :=
      if gs.isEmpty then .sequence least most parts parts (round + 1) started
      else .sequence least most parts gs round started
    if t.any g.accepts then some (.found g, after true)
    else if g.isOptional then scan t least most parts round started gs
    else if round < least || started then some (.missing g, after started)
    else some (.nothing, after started)

namespace Frame

def next (t : Option Token) : Frame → Reply × Frame
  | choice options true => (.nothing, choice options true)
  | choice options false =>
    match options.find? fun g => t.any g.accepts with
    | some g => (.found g, choice options true)
    | none =>
      if options.any (·.isOptional) then (.nothing, choice options false)
      else (.unmatched ("No match for None in " ++ (Grammar.choice options).name),
        choice options false)
  | sequence least most parts due round started =>
    let spent := sequence least most parts parts (most.getD (round + 1)) started
    if within most round then
      match scan t least most parts round (started && due.length < parts.length) due with
      | some reply => reply
      | none =>
        if within most (round + 1) then
          (scan t least most parts (round + 1) false parts).getD (.nothing, spent)
        else (.nothing, spent)
    else (.nothing, sequence least most parts due round started)

/-- The frame of a grammar that is entered; a word needs none. -/
def enter? : Grammar → Option Frame
  | .word _ => none
  | .choice options => some (choice options false)
  | .sequence least most parts => some (sequence least most parts parts 0 false)

end Frame

/-! ## Walking -/

/-- Where a token leads: to a word, or to nothing that fits. -/
inductive Walk where
  | word (w : Word) (stack : List Frame)
  /-- Something else is due; `left` tells whether a frame was left in the search. -/
  | missing (g : Grammar) (left : Bool) (stack : List Frame)
  | unmatched (stack : List Frame)

/-- Goes down from a grammar that accepts a token to the word that does. -/
def descend (t : Token) : Nat → Grammar → List Frame → Walk
  | 0, _, stack => .unmatched stack
  | _ + 1, .word w, stack => .word w stack
  | fuel + 1, g, stack =>
    match Frame.enter? g with
    | none => .unmatched stack
    | some frame =>
      match frame.next (some t) with
      | (.found g, frame) => descend t fuel g (frame :: stack)
      | (_, frame) => .unmatched (frame :: stack)

def depthLimit : Nat := 16

/-- Looks for the word that a token leads to, in the innermost frame first. A frame in which nothing
fits is left. -/
def walk (t : Token) : Bool → List Frame → Walk
  | _, [] => .unmatched []
  | left, frame :: stack =>
    match frame.next (some t), stack with
    | (.found g, frame), _ => descend t depthLimit g (frame :: stack)
    | (.missing g, frame), _ => .missing g left (frame :: stack)
    | (_, frame), [] => .unmatched [frame]
    | _, outer :: rest => walk t true (outer :: rest)

def missed (last : Option Word) : List Frame → List String
  | [] => []
  | frame :: stack =>
    let here := match (frame.next none).1 with
      | .missing g =>
        if last.any (!·.mayEnd) then ["Missing token for production " ++ g.name] else []
      | .unmatched message => [message]
      | _ => []
    here ++ missed last stack

end WebAudit.Stylesheet
