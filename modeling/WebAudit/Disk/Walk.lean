import WebAudit.Disk.Tree

/-!
# Walking through folders

The files of a folder come first, in the order of their names, and then its folders in the order of
theirs. Some folders are passed over by name, and one that may not be listed counts as empty. A link
to a file counts as a file, one to a folder is passed over, and one that leads nowhere is a file that
cannot be read.
-/

namespace WebAudit.Disk

/-- What is behind the name of a file. -/
inductive Contents where
  | bytes (data : List UInt8)
  /-- So many bytes that may not be read. -/
  | locked (size : Nat)
  /-- Nothing, since the name leads nowhere. -/
  | lost
deriving DecidableEq, Repr, Inhabited

structure File where
  /-- Relative to the folder where the walk starts. -/
  path : String
  contents : Contents
deriving DecidableEq, Repr, Inhabited

/-- What the walk finds at or below one item of a folder. -/
structure Branch where
  name : String
  isFolder : Bool
  files : List File
deriving DecidableEq, Repr, Inhabited

/-- Files stand before folders, and both are ordered by name. -/
def Branch.le (a b : Branch) : Bool :=
  if a.isFolder = b.isFolder then a.name ≤ b.name else b.isFolder

def inOrder (branches : List Branch) : List File :=
  (branches.mergeSort Branch.le).flatMap (·.files)

/-- What a name in the folder at `here` leads to when links are followed. -/
def Tree.resolve (top : Tree) (here : Location) (name : String) : Option Tree :=
  (top.follow Tree.maxLinks here [name]).toOption.bind fun there => top.at? there.reverse

/-- What is behind a link that leads to an item or to nothing; a link to a folder counts as no file. -/
def linkContents? : Option Tree → Option Contents
  | some (.file data) => some (.bytes data)
  | some (.locked size) => some (.locked size)
  | some (.folder _) | some .closed => none
  | some (.link _) | none => some .lost

def linkBranch (top : Tree) (here : Location) (path name : String) : Option Branch :=
  (linkContents? (top.resolve here name)).map fun contents => ⟨name, false, [⟨path, contents⟩]⟩

/-- What the items of the folder at `here` amount to; their paths start with `path`. -/
def branches (top : Tree) (denied : List String) (here : Location) (path : String) :
    List (String × Tree) → List Branch
  | [] => []
  | (name, item) :: rest =>
    let others := branches top denied here path rest
    match item with
    | .file data => ⟨name, false, [⟨path ++ name, .bytes data⟩]⟩ :: others
    | .locked size => ⟨name, false, [⟨path ++ name, .locked size⟩]⟩ :: others
    | .link _ =>
      match linkBranch top here (path ++ name) name with
      | some branch => branch :: others
      | none => others
    | .folder children =>
      if denied.contains name then others
      else
        let below := branches top denied (name :: here) (path ++ name ++ "/") children
        ⟨name, true, inOrder below⟩ :: others
    | .closed => others

def filesBelow (top : Tree) (denied : List String) (location : Location) : List File :=
  match top.at? location with
  | some (.folder children) => inOrder (branches top denied location.reverse "" children)
  | _ => []

end WebAudit.Disk
