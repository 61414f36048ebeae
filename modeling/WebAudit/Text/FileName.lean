import WebAudit.Text.Lines
import WebAudit.Text.Lowercase

/-!
# File names

The part of a path after its last slash, and the extension of that part: its last dot and what
follows. Dots at the start of a name begin no extension.
-/

namespace WebAudit.Text

/-- What follows the last occurrence of a character, or everything. -/
def afterLast (sep : Char) (cs : List Char) : List Char :=
  (cs.reverse.takeWhile (· != sep)).reverse

def baseNameChars (path : List Char) : List Char :=
  afterLast '/' path

def baseName (path : String) : String :=
  String.ofList (baseNameChars path.toList)

def nameExtension (name : List Char) : List Char :=
  let tail := afterLast '.' name
  let stem := name.take (name.length - tail.length - 1)
  if tail.length < name.length && stem.any (· != '.') then '.' :: tail else []

/-- A path with slashes only, and without the query and the fragment of an address. -/
def plainPath (path : List Char) : List Char :=
  ((path.takeWhile (· != '?')).takeWhile (· != '#')).map fun c => if c == '\\' then '/' else c

def extension (path : String) : String :=
  lower (String.ofList (nameExtension (baseNameChars (plainPath path.toList))))

end WebAudit.Text
