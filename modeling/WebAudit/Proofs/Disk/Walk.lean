import WebAudit.Collect.Entries
import WebAudit.Disk.Walk
import WebAudit.Proofs.Finding.Order
import WebAudit.Proofs.Path.Plain

/-!
# Walks that pass folders over

In a tree of plain names without links every file is found by a route of plain names. A walk that passes
some folders over finds what the whole walk finds, in the same order, less the files inside such folders.
-/

namespace WebAudit.Disk

open WebAudit.Path (Component Route lead)
open Collect (insideDenied)

/-- The items have plain names, at every depth, and there are no links. -/
inductive PlainItems : List (String × Tree) → Prop
  | nil : PlainItems []
  | file {name : String} {data : List UInt8} {rest : List (String × Tree)}
    (hName : Path.Plain name.toList) (hRest : PlainItems rest) : PlainItems ((name, .file data) :: rest)
  | folder {name : String} {children rest : List (String × Tree)} (hName : Path.Plain name.toList)
    (hChildren : PlainItems children) (hRest : PlainItems rest) :
    PlainItems ((name, .folder children) :: rest)

def File.Routed (folders : List Component) (f : File) : Prop :=
  ∃ r : Route, f.path.toList = r.chars ∧ folders <+: r.folders

theorem File.Routed.shorten {folders more : List Component} {f : File} (h : f.Routed more)
    (hPrefix : folders <+: more) : f.Routed folders := by
  obtain ⟨r, hPath, hMore⟩ := h
  exact ⟨r, hPath, hPrefix.trans hMore⟩

/-! ## Items one by one -/

section Items

variable (top : Tree) (denied : List String) (here : Location) (path name : String)
  (rest : List (String × Tree))

theorem branches_nil : branches top denied here path [] = [] := by
  rw [branches]

theorem branches_file (data : List UInt8) :
    branches top denied here path ((name, .file data) :: rest) =
      ⟨name, false, [⟨path ++ name, .bytes data⟩]⟩ :: branches top denied here path rest := by
  rw [branches]

theorem branches_locked (size : Nat) :
    branches top denied here path ((name, .locked size) :: rest) =
      ⟨name, false, [⟨path ++ name, .locked size⟩]⟩ :: branches top denied here path rest := by
  rw [branches]

theorem branches_closed :
    branches top denied here path ((name, .closed) :: rest) = branches top denied here path rest := by
  rw [branches]

theorem branches_link (target : String) :
    branches top denied here path ((name, .link target) :: rest) =
      (linkBranch top here (path ++ name) name).toList ++ branches top denied here path rest := by
  rw [branches]
  cases linkBranch top here (path ++ name) name <;> rfl

theorem branches_folder (children : List (String × Tree)) :
    branches top denied here path ((name, .folder children) :: rest) =
      if denied.contains name then branches top denied here path rest
      else ⟨name, true, inOrder (branches top denied (name :: here) (path ++ name ++ "/") children)⟩ ::
        branches top denied here path rest := by
  rw [branches]

theorem branches_folder_nil (children : List (String × Tree)) :
    branches top [] here path ((name, .folder children) :: rest) =
      ⟨name, true, inOrder (branches top [] (name :: here) (path ++ name ++ "/") children)⟩ ::
        branches top [] here path rest := by
  rw [branches_folder]
  rfl

end Items

/-! ## Order -/

namespace Branch

theorem le_total (a b : Branch) : (a.le b || b.le a) = true := by
  unfold le
  by_cases hSame : a.isFolder = b.isFolder
  · simpa [hSame] using String.le_total a.name b.name
  · cases hA : a.isFolder <;> simp_all

theorem le_trans (a b c : Branch) (hab : a.le b = true) (hbc : b.le c = true) : a.le c = true := by
  unfold le at *
  cases hA : a.isFolder <;> cases hB : b.isFolder <;> cases hC : c.isFolder <;> simp_all
  · exact String.le_trans hab hbc
  · exact String.le_trans hab hbc

def isKept (denied : List String) (b : Branch) : Bool :=
  !(b.isFolder && denied.contains b.name)

def trim (denied : List String) (b : Branch) : Branch :=
  { b with files := b.files.filter fun f => !insideDenied denied f.path.toList }

end Branch

theorem inOrder_singleton (b : Branch) : inOrder [b] = b.files := by
  rw [inOrder, List.mergeSort_singleton, List.flatMap_singleton]

/-- There is one order in which all branches stand before those after them. -/
theorem inOrder_eq_of_perm (sorted : List Branch) {bs : List Branch} (hPerm : bs.Perm sorted)
    (hSorted : sorted.Pairwise fun a b => a.le b = true)
    (hApart : ∀ a ∈ sorted, ∀ b ∈ sorted, a.le b = true → b.le a = true → a = b) :
    inOrder bs = sorted.flatMap (·.files) := by
  have hSame : (bs.mergeSort Branch.le).Perm sorted := (List.mergeSort_perm bs Branch.le).trans hPerm
  have hEq : bs.mergeSort Branch.le = sorted :=
    hSame.eq_of_pairwise (fun a b ha hb => hApart a (hSame.mem_iff.mp ha) b hb)
      (List.pairwise_mergeSort Branch.le_trans Branch.le_total bs) hSorted
  rw [inOrder, hEq]

theorem flatMap_trim {denied : List String} {bs : List Branch}
    (h : ∀ b ∈ bs, b.isKept denied = false → ∀ f ∈ b.files, insideDenied denied f.path.toList = true) :
    ((bs.filter (·.isKept denied)).map (·.trim denied)).flatMap (·.files) =
      (bs.flatMap (·.files)).filter fun f => !insideDenied denied f.path.toList := by
  induction bs with
  | nil => rfl
  | cons b bs ih =>
    obtain ⟨hHead, hTail⟩ := List.forall_mem_cons.mp h
    rw [List.flatMap_cons, List.filter_append, ← ih hTail]
    cases hKept : b.isKept denied with
    | true =>
      rw [List.filter_cons_of_pos hKept, List.map_cons, List.flatMap_cons]
      rfl
    | false =>
      have hNone : (b.files.filter fun f => !insideDenied denied f.path.toList) = [] :=
        List.filter_eq_nil_iff.mpr fun f hf => by simp [hHead hKept f hf]
      rw [List.filter_cons_of_neg (by simp [hKept]), hNone, List.nil_append]

/-- Leaving branches out and trimming the others is leaving files out. -/
theorem inOrder_trim {denied : List String} {bs : List Branch}
    (h : ∀ b ∈ bs, b.isKept denied = false → ∀ f ∈ b.files, insideDenied denied f.path.toList = true) :
    inOrder ((bs.filter (·.isKept denied)).map (·.trim denied)) =
      (inOrder bs).filter fun f => !insideDenied denied f.path.toList := by
  unfold inOrder
  rw [← List.map_mergeSort (r := Branch.le) (f := (·.trim denied)) (fun _ _ _ _ => rfl),
    ← filter_mergeSort Branch.le_trans Branch.le_total]
  exact flatMap_trim fun b hb => h b (List.mem_mergeSort.mp hb)

/-! ## Routes to files -/

theorem insideDenied_route (denied : List String) (r : Route) :
    insideDenied denied r.chars = r.folders.any fun c => denied.contains (String.ofList c) := by
  rw [insideDenied, r.components_chars, List.dropLast_concat]

def Branch.way (folders : List Component) (b : Branch) : List Component :=
  if b.isFolder then folders ++ [b.name.toList] else folders

theorem Branch.prefix_way (folders : List Component) (b : Branch) : folders <+: b.way folders := by
  unfold way
  split
  · exact List.prefix_append _ _
  · exact List.prefix_refl _

theorem routed_inOrder {bs : List Branch} {folders : List Component}
    (h : ∀ b ∈ bs, ∀ f ∈ b.files, f.Routed (b.way folders)) : ∀ f ∈ inOrder bs, f.Routed folders := by
  intro f hf
  obtain ⟨b, hb, hFile⟩ := List.mem_flatMap.mp hf
  exact (h b (List.mem_mergeSort.mp hb) f hFile).shorten (b.prefix_way folders)

theorem lead_path {path : String} {folders : List Component} (h : path.toList = lead folders)
    (name : String) : (path ++ name ++ "/").toList = lead (folders ++ [name.toList]) := by
  rw [Path.lead_concat, ← h]
  simp

theorem plain_concat {folders : List Component} (hFolders : ∀ c ∈ folders, Path.Plain c)
    {c : Component} (hc : Path.Plain c) : ∀ d ∈ folders ++ [c], Path.Plain d := by
  intro d hd
  rcases List.mem_append.mp hd with hd | hd
  · exact hFolders d hd
  · rwa [List.mem_singleton.mp hd]

section Branches

variable {children : List (String × Tree)} {path : String} {folders : List Component}

/-- Every file of a plain tree has a route. -/
theorem PlainItems.routed (hPlain : PlainItems children) (hFolders : ∀ c ∈ folders, Path.Plain c)
    (hPath : path.toList = lead folders) (top : Tree) (denied : List String) (here : Location) :
    ∀ b ∈ branches top denied here path children, ∀ f ∈ b.files, f.Routed (b.way folders) := by
  induction hPlain generalizing path folders here with
  | nil => simp [branches_nil]
  | @file name data rest hName _ ih =>
    rw [branches_file]
    refine List.forall_mem_cons.mpr ⟨?_, ih hFolders hPath here⟩
    intro f hf
    rw [List.mem_singleton.mp hf]
    exact ⟨⟨folders, name.toList, hFolders, hName⟩, by simp [Route.chars, hPath],
      List.prefix_refl _⟩
  | @folder name children rest hName _ _ ihChildren ihRest =>
    rw [branches_folder]
    split
    · exact ihRest hFolders hPath here
    · refine List.forall_mem_cons.mpr ⟨?_, ihRest hFolders hPath here⟩
      exact routed_inOrder
        (ihChildren (plain_concat hFolders hName) (lead_path hPath name) (name :: here))

/-- What is inside a denied folder is inside a denied folder by its path. -/
theorem PlainItems.inside_of_not_kept (hPlain : PlainItems children)
    (hFolders : ∀ c ∈ folders, Path.Plain c) (hPath : path.toList = lead folders) (top : Tree)
    (denied : List String) (here : Location) :
    ∀ b ∈ branches top [] here path children, b.isKept denied = false →
      ∀ f ∈ b.files, insideDenied denied f.path.toList = true := by
  intro b hb hKept f hf
  obtain ⟨r, hChars, hPrefix⟩ := hPlain.routed hFolders hPath top [] here b hb f hf
  simp only [Branch.isKept, Bool.not_eq_false', Bool.and_eq_true] at hKept
  rw [Branch.way, if_pos hKept.1] at hPrefix
  rw [hChars, insideDenied_route, List.any_eq_true]
  exact ⟨b.name.toList, hPrefix.subset (by simp), by simpa using hKept.2⟩

/-- A walk looks at the branches it does not pass over, and finds of them what is not inside a folder
that it passes over. -/
theorem PlainItems.branches_denied (hPlain : PlainItems children)
    (hFolders : ∀ c ∈ folders, Path.Plain c) (hPath : path.toList = lead folders) (top : Tree)
    {denied : List String} (hAllowed : ∀ c ∈ folders, denied.contains (String.ofList c) = false)
    (here : Location) :
    branches top denied here path children =
      ((branches top [] here path children).filter (·.isKept denied)).map (·.trim denied) := by
  induction hPlain generalizing path folders here with
  | nil => rw [branches_nil, branches_nil, List.filter_nil, List.map_nil]
  | @file name data rest hName _ ih =>
    have hOutside : insideDenied denied (path ++ name).toList = false := by
      let r : Route := ⟨folders, name.toList, hFolders, hName⟩
      have hChars : (path ++ name).toList = r.chars := by simp [r, Route.chars, hPath]
      rw [hChars, insideDenied_route, List.any_eq_false]
      simpa [r] using hAllowed
    rw [branches_file, branches_file, ih hFolders hPath hAllowed here, List.filter_cons_of_pos rfl,
      List.map_cons, Branch.trim, List.filter_cons_of_pos (by rw [hOutside, Bool.not_false]),
      List.filter_nil]
  | @folder name children rest hName hChildren _ ihChildren ihRest =>
    rw [branches_folder_nil, branches_folder, ihRest hFolders hPath hAllowed here]
    cases hDenied : denied.contains name with
    | true =>
      rw [if_pos rfl, List.filter_cons_of_neg (by simpa [Branch.isKept] using hDenied)]
    | false =>
      have hPlain' := plain_concat hFolders hName
      have hPath' := lead_path hPath name
      have hAllowed' : ∀ c ∈ folders ++ [name.toList], denied.contains (String.ofList c) = false := by
        intro c hc
        rcases List.mem_append.mp hc with hc | hc
        · exact hAllowed c hc
        · rw [List.mem_singleton.mp hc, String.ofList_toList]
          exact hDenied
      rw [if_neg Bool.false_ne_true, List.filter_cons_of_pos (by simpa [Branch.isKept] using hDenied),
        List.map_cons, ihChildren hPlain' hPath' hAllowed' (name :: here),
        inOrder_trim (hChildren.inside_of_not_kept hPlain' hPath' top denied (name :: here))]
      rfl

end Branches

/-! ## Whole walks -/

theorem place_top (tree : Tree) : Disk.place ⟨"top", tree⟩ "top" = .ok [] := by
  have hNames : (Path.tidyComponents "top".toList).map String.ofList = ["top"] := by decide
  have hShort : ¬ maxPath ≤ Text.byteLength (Path.tidy "top".toList) := by decide
  have hName : ¬ maxName < Text.byteLength "top".toList := by decide
  have hHere : tree.follow Tree.maxLinks [] [] = .ok [] := by rw [Tree.follow]
  unfold Disk.place
  rw [if_neg (by decide), if_neg hShort, hNames]
  dsimp only
  rw [if_neg hName, hHere]
  rfl

theorem filesBelow_single {denied : List String} {folder : String} (hAllowed : denied.contains folder = false)
    (name : String) (data : List UInt8) :
    filesBelow (.folder [(folder, .folder [(name, .file data)])]) denied [] =
      [⟨folder ++ "/" ++ name, .bytes data⟩] := by
  change inOrder (branches _ denied [] "" [(folder, .folder [(name, .file data)])]) = _
  rw [branches_folder, if_neg (Bool.eq_false_iff.mp hAllowed), branches_nil, branches_file, branches_nil,
    inOrder_singleton, inOrder_singleton, String.empty_append]

section Walks

variable {top : Tree} {location : Location} {children : List (String × Tree)}
  (hFolder : top.at? location = some (.folder children)) (hPlain : PlainItems children)

include hFolder hPlain

theorem routed_filesBelow (denied : List String) : ∀ f ∈ filesBelow top denied location, f.Routed [] := by
  unfold filesBelow
  rw [hFolder]
  exact routed_inOrder (hPlain.routed (List.forall_mem_nil _) rfl top denied location.reverse)

/-- A walk that passes folders over finds what the whole walk finds outside of them, in the same
order. -/
theorem filesBelow_denied (denied : List String) :
    filesBelow top denied location =
      (filesBelow top [] location).filter fun f => !insideDenied denied f.path.toList := by
  unfold filesBelow
  rw [hFolder]
  dsimp only
  have hNone := List.forall_mem_nil Path.Plain
  rw [hPlain.branches_denied hNone rfl top (List.forall_mem_nil _) location.reverse,
    inOrder_trim (hPlain.inside_of_not_kept hNone rfl top denied location.reverse)]

end Walks

end WebAudit.Disk
