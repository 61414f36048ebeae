/-!
# Patterns for file names

A star stands for any text and a question mark for any character. Brackets stand for one character
of a set, given by characters and ranges; with an exclamation mark in front, for one that is not in
the set. An opening bracket without a closing one stands for itself.
-/

namespace WebAudit.Text

structure CharSet where
  negated : Bool := false
  /-- Ranges with both ends; a single character is a range with equal ends. -/
  ranges : List (Char × Char) := []
deriving DecidableEq, Repr, Inhabited

def CharSet.contains (s : CharSet) (c : Char) : Bool :=
  (s.ranges.any fun (low, high) => low ≤ c && c ≤ high) != s.negated

inductive GlobPiece where
  | star
  | anyChar
  | char (c : Char)
  | oneOf (set : CharSet)
deriving DecidableEq, Repr, Inhabited

namespace Glob

/-! ## Sets -/

/-- The chunks of a set around the hyphens that make ranges. A hyphen makes a range if it has a
character in front that is not itself the end of a range; `skip` characters are passed first. -/
def chunks (skip : Nat) : List Char → List Char → List (List Char)
  | chunk, [] => [chunk.reverse]
  | chunk, c :: cs =>
    match skip with
    | n + 1 => chunks n (c :: chunk) cs
    | 0 => if c == '-' then chunk.reverse :: chunks 2 [] cs else chunks 0 (c :: chunk) cs

def settleLast : List (List Char) → List (List Char)
  | [] => []
  | [last] => [last]
  | [chunk, []] => [chunk ++ ['-']]
  | chunk :: rest => chunk :: settleLast rest

/-- Puts a chunk in front of others; a range between them that would be empty is left out with both
of its ends. -/
def joinChunk (chunk : List Char) : List (List Char) → List (List Char)
  | [] => [chunk]
  | next :: rest =>
    match chunk.getLast?, next.head? with
    | some low, some high =>
      if high < low then (chunk.dropLast ++ next.drop 1) :: rest else chunk :: next :: rest
    | _, _ => chunk :: next :: rest

def dropEmptyRanges (cs : List (List Char)) : List (List Char) :=
  cs.foldr joinChunk []

/-- The ranges from the end of each chunk to the start of the next. -/
def spans : List (List Char) → List (Char × Char)
  | chunk :: next :: rest =>
    match chunk.getLast?, next.head? with
    | some low, some high => (low, high) :: spans (next :: rest)
    | _, _ => spans (next :: rest)
  | _ => []

def setOf (inner : List Char) : CharSet :=
  let skip := if inner.head? == some '!' then 2 else 1
  let cs := dropEmptyRanges (settleLast (chunks skip [] inner))
  let (negated, cs) := match cs with
    | ('!' :: chunk) :: rest => (true, chunk :: rest)
    | cs => (false, cs)
  ⟨negated, cs.flatten.map (fun c => (c, c)) ++ spans cs⟩

/-- What stands between an opening bracket and the closing one, and the rest. A closing bracket at
once, or after an exclamation mark, is part of the set. -/
def splitSet (cs : List Char) : Option (List Char × List Char) :=
  let mark := cs.takeWhile (· == '!') |>.take 1
  let first := (cs.drop mark.length).takeWhile (· == ']') |>.take 1
  let lead := mark ++ first
  let inner := (cs.drop lead.length).takeWhile (· != ']')
  match cs.drop (lead.length + inner.length) with
  | _ :: rest => some (lead ++ inner, rest)
  | [] => none

/-! ## Patterns -/

theorem splitSet_length {cs inner rest : List Char} (h : splitSet cs = some (inner, rest)) :
    rest.length < cs.length := by
  simp only [splitSet] at h
  split at h
  · next heq =>
    injection h with h
    injection h with _ h
    subst h
    have := congrArg List.length heq
    simp only [List.length_drop, List.length_cons] at this
    omega
  · contradiction

def pieces : List Char → List GlobPiece
  | [] => []
  | '*' :: cs => .star :: pieces cs
  | '?' :: cs => .anyChar :: pieces cs
  | '[' :: cs =>
    match h : splitSet cs with
    | some (inner, rest) =>
      have := splitSet_length h
      .oneOf (setOf inner) :: pieces rest
    | none => .char '[' :: pieces cs
  | c :: cs => .char c :: pieces cs
termination_by cs => cs.length
decreasing_by all_goals (simp only [List.length_cons]; omega)

def fits (piece : GlobPiece) (c : Char) : Bool :=
  match piece with
  | .star => true
  | .anyChar => true
  | .char d => c == d
  | .oneOf set => set.contains c

def matchesPieces : List GlobPiece → List Char → Bool
  | [], [] => true
  | [], _ :: _ => false
  | .star :: ps, [] => matchesPieces ps []
  | .star :: ps, c :: cs => matchesPieces ps (c :: cs) || matchesPieces (.star :: ps) cs
  | _ :: _, [] => false
  | p :: ps, c :: cs => fits p c && matchesPieces ps cs
termination_by ps cs => ps.length + cs.length

end Glob

def matchesGlob (pattern name : String) : Bool :=
  Glob.matchesPieces (Glob.pieces pattern.toList) name.toList

end WebAudit.Text
