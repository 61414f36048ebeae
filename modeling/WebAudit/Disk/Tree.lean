import WebAudit.Path.Normal
import WebAudit.Table
import WebAudit.Text.Quoted
import WebAudit.Text.Slice

/-!
# Files and folders

A tree of folders holds files and links. A link leads to a place relative to the folder it is in;
whether that place exists shows only when the link is followed. The system may refuse a lookup: a
name has too many bytes, or a folder on the way may not be searched.
-/

namespace WebAudit.Disk

inductive Tree where
  | file (data : List UInt8)
  | link (target : String)
  | folder (children : List (String × Tree))
  /-- A file of so many bytes that may not be read. -/
  | locked (size : Nat)
  /-- A folder that may be neither searched nor listed. -/
  | closed
deriving Repr, Inhabited

/-- Why a path leads nowhere. -/
inductive LookupFault where
  | absent
  | nameTooLong
  | forbidden
deriving DecidableEq, Repr, Inhabited

def LookupFault.message (path : String) : LookupFault → String
  | absent => "[Errno 2] No such file or directory: " ++ Text.quote path
  | nameTooLong => "[Errno 36] File name too long: " ++ Text.quote path
  | forbidden => "[Errno 13] Permission denied: " ++ Text.quote path

def maxName : Nat := 255

def maxPath : Nat := 4096

abbrev Location := List String

namespace Tree

def empty : Tree := .folder []

def child? (name : String) : Tree → Option Tree
  | folder children => children.lookup name
  | _ => none

/-- What is at a location; links on the way are not followed. -/
def at? (t : Tree) : Location → Option Tree
  | [] => some t
  | name :: rest => (t.child? name).bind (·.at? rest)

/-- Puts an item at a location, with the folders that lead there. A folder that is there stays as it
is. -/
def insert (item : Tree) : Location → Tree → Tree
  | [], t =>
    match item, t with
    | folder [], folder children => folder children
    | item, _ => item
  | name :: rest, t =>
    let children := match t with
      | folder children => children
      | _ => []
    folder (Table.put name (insert item rest ((children.lookup name).getD empty)) children)

/-- How many links may be followed on the way to a place. -/
def maxLinks : Nat := 40

/-- The place that names lead to from `here` when links are followed. Both are counted from the top,
`here` with the last name first. -/
def follow (top : Tree) (links : Nat) (here : Location) : List String → Except LookupFault Location
  | [] => .ok here
  | name :: rest =>
    match top.at? here.reverse with
    | some (folder children) =>
      if name = "" || name = "." then top.follow links here rest
      else if name = ".." then
        match here with
        | [] => .error .absent
        | _ :: above => top.follow links above rest
      else if maxName < Text.byteLength name.toList then .error .nameTooLong
      else
        match children.lookup name with
        | none => .error .absent
        | some (link target) =>
          match links with
          | 0 => .error .absent
          | more + 1 =>
            if target.toList.head? == some '/' then .error .absent
            else
              match top.follow more here (Text.cutAt '/' target) with
              | .error fault => .error fault
              | .ok there => top.follow (more + 1) there rest
        | some _ => top.follow links (name :: here) rest
    | some closed => if name = "" then top.follow links here rest else .error .forbidden
    | _ => .error .absent
termination_by names => (links, names.length)

end Tree

end WebAudit.Disk

namespace WebAudit

/-- A tree whose top has a name. -/
structure Disk where
  name : String
  tree : Disk.Tree := .empty

/-- The place of a path that starts with the name of the top; nothing else exists. -/
def Disk.place (d : Disk) (path : String) : Except Disk.LookupFault Disk.Location :=
  if path.toList.contains '\x00' then .error .absent
  else if Disk.maxPath ≤ Text.byteLength (Path.tidy path.toList) then .error .nameTooLong
  else
    match (Path.tidyComponents path.toList).map String.ofList with
    | first :: rest =>
      if Disk.maxName < Text.byteLength first.toList then .error .nameTooLong
      else if first = d.name && path.toList.head? != some '/' then
        (d.tree.follow Disk.Tree.maxLinks [] rest).map List.reverse
      else .error .absent
    | [] => .error .absent

def Disk.find (d : Disk) (path : String) : Except Disk.LookupFault Disk.Tree :=
  match d.place path with
  | .error fault => .error fault
  | .ok location =>
    match d.tree.at? location with
    | some item => .ok item
    | none => .error .absent

end WebAudit
