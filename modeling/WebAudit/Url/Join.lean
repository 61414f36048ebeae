import WebAudit.Text.Lines
import WebAudit.Url.Basic

/-!
# Relative addresses

A relative address is resolved against a base: its path is put in place of the last segment of the
base's, and the segments `.` and `..` are worked off.
-/

namespace WebAudit.Url

/-- Works off `.` and `..`; `..` at the root goes nowhere. The segments so far come latest first. -/
def resolveSegments : List (List Char) → List (List Char) → List (List Char)
  | done, [] => done.reverse
  | done, s :: rest =>
    if s == ['.', '.'] then resolveSegments (done.drop 1) rest
    else if s == ['.'] then resolveSegments done rest
    else resolveSegments (s :: done) rest

def segments (path : List Char) : List (List Char) :=
  Text.cutAtFrom '/' [] path

/-- Drops empty segments except at the two ends. -/
def dropEmptyInside (parts : List (List Char)) : List (List Char) :=
  match parts with
  | first :: rest =>
    match rest.getLast? with
    | some last => first :: rest.dropLast.filter (!·.isEmpty) ++ [last]
    | none => parts
  | [] => []

def joinSegments (parts : List (List Char)) : List Char :=
  ['/'].intercalate parts

def joinPath (base path : List Char) : List Char :=
  let baseParts := segments base
  let baseParts := if baseParts.getLastD [] == [] then baseParts else baseParts.dropLast
  let parts :=
    if path.head? == some '/' then segments path else dropEmptyInside (baseParts ++ segments path)
  let resolved := resolveSegments [] parts
  let last := parts.getLastD []
  let resolved := if last == ['.'] || last == ['.', '.'] then resolved ++ [[]] else resolved
  let joined := joinSegments resolved
  if joined.isEmpty then ['/'] else joined

/-- The address that `text` stands for on a page at `base`. -/
def join (base text : String) : Except Fault String := do
  if base.isEmpty then return text
  if text.isEmpty then return base
  let b ← parse base
  let u ← parse text b.scheme
  if u.scheme != b.scheme || !usesScheme relativeSchemes u.scheme then return text
  if usesScheme hostSchemes u.scheme && !u.netloc.isEmpty then return u.text
  let u := if usesScheme hostSchemes u.scheme then { u with netloc := b.netloc } else u
  if u.path.isEmpty && u.params.isEmpty then
    let query := if u.query.isEmpty then b.query else u.query
    return { u with path := b.path, params := b.params, query : Url }.text
  else return { u with path := joinPath b.path u.path : Url }.text

end WebAudit.Url
