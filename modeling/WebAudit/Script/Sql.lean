import WebAudit.Text.Blank
import WebAudit.Text.WordChar

/-!
# SQL statements in text

Text looks like a statement if it has the opening words of one: `select … from`, `insert into`,
`update … set` or `delete from`, as whole words in any case.
-/

namespace WebAudit.Script.Sql

/-- Whether a character is a letter in one of its cases; the long s, the dotless and the dotted i
and the kelvin sign count as the letter they stand for. -/
def isLetter (letter c : Char) : Bool :=
  c.toLower == letter ||
  (letter == 's' && c.toNat == 0x17F) ||
  (letter == 'i' && (c.toNat == 0x130 || c.toNat == 0x131)) ||
  (letter == 'k' && c.toNat == 0x212A)

def afterWord : List Char → List Char → Option (List Char)
  | [], cs => some cs
  | _ :: _, [] => none
  | w :: ws, c :: cs => if isLetter w c then afterWord ws cs else none

def wordEnds (cs : List Char) : Bool :=
  !(cs.head?.any Text.isWordChar)

def startsWithWord (word : String) (cs : List Char) : Bool :=
  (afterWord word.toList cs).any wordEnds

/-- Whether a whole word occurs; `inWord` tells whether a word is going on in front of the text. -/
def hasWord (word : String) : Bool → List Char → Bool
  | _, [] => false
  | inWord, c :: cs =>
    (!inWord && startsWithWord word (c :: cs)) || hasWord word (Text.isWordChar c) cs

def apart (first second : String) (cs : List Char) : Bool :=
  match afterWord first.toList cs with
  | some (c :: rest) => !Text.isWordChar c && hasWord second (Text.isWordChar c) rest
  | _ => false

def adjacent (first second : String) (cs : List Char) : Bool :=
  match afterWord first.toList cs with
  | some (c :: rest) => Text.isBlank c && startsWithWord second (rest.dropWhile Text.isBlank)
  | _ => false

def opens (cs : List Char) : Bool :=
  apart "select" "from" cs || adjacent "insert" "into" cs ||
  apart "update" "set" cs || adjacent "delete" "from" cs

def occursFrom : Bool → List Char → Bool
  | _, [] => false
  | inWord, c :: cs => (!inWord && opens (c :: cs)) || occursFrom (Text.isWordChar c) cs

def occurs (cs : List Char) : Bool :=
  occursFrom false cs

end WebAudit.Script.Sql
