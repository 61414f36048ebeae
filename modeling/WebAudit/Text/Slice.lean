/-!
# Pieces of text

Cutting by characters and by UTF-8 bytes, and looking for one text inside another.
-/

namespace WebAudit.Text

def dropBytes : Nat → List Char → List Char
  | _, [] => []
  | 0, cs => cs
  | n + 1, c :: cs => dropBytes (n + 1 - c.utf8Size) cs

def takeBytes : Nat → List Char → List Char
  | _, [] => []
  | 0, _ => []
  | n + 1, c :: cs => c :: takeBytes (n + 1 - c.utf8Size) cs

def sliceBytes (start stop : Nat) (cs : List Char) : List Char :=
  takeBytes (stop - start) (dropBytes start cs)

def byteLength (cs : List Char) : Nat :=
  cs.foldl (fun total c => total + c.utf8Size) 0

/-- The part before and the part after the first occurrence of a word. -/
def splitFirst (word : List Char) : List Char → Option (List Char × List Char)
  | [] => if word.isEmpty then some ([], []) else none
  | c :: cs =>
    if word.isPrefixOf (c :: cs) then some ([], (c :: cs).drop word.length)
    else (splitFirst word cs).map fun (before, after) => (c :: before, after)

def contains (word s : String) : Bool :=
  (splitFirst word.toList s.toList).isSome

def startsWith (s word : String) : Bool :=
  word.toList.isPrefixOf s.toList

def endsWith (s word : String) : Bool :=
  word.toList.isSuffixOf s.toList

def replaceFirst (word new cs : List Char) : List Char :=
  match splitFirst word cs with
  | some (before, after) => before ++ new ++ after
  | none => cs

/-- The first part of a text that ends before `sep`, or the whole text. -/
def upTo (sep : Char) (cs : List Char) : List Char :=
  cs.takeWhile (· != sep)

/-- The start of a text up to a bound; a negative bound counts from the end. -/
def takeUpTo (bound : Int) (cs : List Char) : List Char :=
  if 0 ≤ bound then cs.take bound.toNat else cs.take (cs.length - (-bound).toNat)

def truncate (limit : Int) (s : String) : String :=
  let cs := s.toList
  if (cs.length : Int) ≤ limit then s
  else String.ofList (takeUpTo (limit - 3) cs ++ ['.', '.', '.'])

end WebAudit.Text
