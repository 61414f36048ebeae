import WebAudit.Text.Lines

/-!
# Paths in normal form

A path is brought into the form in which no component is empty or a single dot, and two dots stand
only at the start of a relative path. Whether a name leaves the place it is relative to can be seen
from that form.
-/

namespace WebAudit.Path

abbrev Component := List Char

def up : Component := ['.', '.']

/-- Takes one more component in; `stack` are those so far, the last one first. -/
def push (absolute : Bool) (stack : List Component) (c : Component) : List Component :=
  if c = [] || c = ['.'] then stack
  else if c = up then
    match stack with
    | [] => if absolute then [] else [up]
    | top :: rest => if top = up then up :: stack else rest
  else c :: stack

/-- The slashes that an absolute path keeps in front: one, or two if there are exactly two. -/
def rootOf (path : List Char) : List Char :=
  match (path.takeWhile (· == '/')).length with
  | 0 => []
  | 2 => ['/', '/']
  | _ => ['/']

def components (path : List Char) : List Component :=
  Text.cutAtFrom '/' [] path

def normalComponents (path : List Char) : List Component :=
  ((components path).foldl (push (!(rootOf path).isEmpty)) []).reverse

/-- A path in normal form; an empty one is a dot. -/
def normalize (path : List Char) : List Char :=
  match rootOf path ++ ['/'].intercalate (normalComponents path) with
  | [] => ['.']
  | text => text

/-- The components of a path that are neither empty nor a single dot; two dots stay. -/
def tidyComponents (path : List Char) : List Component :=
  (components path).filter fun c => !(c = [] || c = ['.'])

/-- A path without empty components and single dots. -/
def tidy (path : List Char) : List Char :=
  match rootOf path ++ ['/'].intercalate (tidyComponents path) with
  | [] => ['.']
  | text => text

def withSlashes (path : List Char) : List Char :=
  path.map fun c => if c == '\\' then '/' else c

def normalName (name : String) : List Char :=
  normalize (withSlashes name.toList)

/-- Whether a name leads out of the place it is relative to: it climbs above it, is absolute, or
names a drive. -/
def escapes (name : String) : Bool :=
  let path := normalName name
  let first := path.takeWhile (· != '/')
  first == up || path.head? == some '/' || first.contains ':'

end WebAudit.Path
