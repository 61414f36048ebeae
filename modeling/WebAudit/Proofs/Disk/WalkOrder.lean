import WebAudit.Proofs.Disk.Walk

/-!
# The order of a walk

A walk through a folder finds every file once whose route passes no denied folder, and it finds them in the
order of their routes: the files of a folder by name, then its folders by name, each with all that is below.
-/

namespace WebAudit.Disk

/-- The items of a folder have different names without a separator, at every depth. -/
inductive RealItems : List (String × Tree) → Prop
  | nil : RealItems []
  | cons {name : String} {item : Tree} {rest : List (String × Tree)} (hName : '/' ∉ name.toList)
    (hNew : name ∉ Table.keys rest) (hItem : ∀ children, item = .folder children → RealItems children)
    (hRest : RealItems rest) : RealItems ((name, item) :: rest)

structure Located where
  route : List String
  contents : Contents

namespace Located

def path (c : Located) : String :=
  "/".intercalate c.route

def file (front : String) (c : Located) : File :=
  ⟨front ++ c.path, c.contents⟩

def inside (name : String) (c : Located) : Located :=
  { c with route := name :: c.route }

end Located

/-- The item of the folder at `here` is the file, or the file is below it and in no denied folder. A link to a
file counts as that file, a link to a folder as nothing, and a link that leads nowhere cannot be read. A folder that
is closed holds nothing. -/
inductive Holds (top : Tree) (denied : List String) : Location → String → Tree → Located → Prop
  | file {here : Location} {name : String} {data : List UInt8} :
    Holds top denied here name (.file data) ⟨[name], .bytes data⟩
  | locked {here : Location} {name : String} {size : Nat} :
    Holds top denied here name (.locked size) ⟨[name], .locked size⟩
  | link {here : Location} {name target : String} {data : List UInt8}
    (hLeads : top.resolve here name = some (.file data)) :
    Holds top denied here name (.link target) ⟨[name], .bytes data⟩
  | lockedLink {here : Location} {name target : String} {size : Nat}
    (hLeads : top.resolve here name = some (.locked size)) :
    Holds top denied here name (.link target) ⟨[name], .locked size⟩
  | deadLink {here : Location} {name target : String}
    (hNowhere : ∀ item, top.resolve here name = some item → ∃ next, item = .link next) :
    Holds top denied here name (.link target) ⟨[name], .lost⟩
  | inFolder {here : Location} {name inner : String} {item : Tree} {children : List (String × Tree)} {c : Located}
    (hAllowed : name ∉ denied) (hChild : (inner, item) ∈ children)
    (hHolds : Holds top denied (name :: here) inner item c) :
    Holds top denied here name (.folder children) (c.inside name)

inductive Before : List String → List String → Prop
  | names {a b : String} (hLess : a < b) : Before [a] [b]
  | fileFirst {a b x : String} {r : List String} : Before [a] (b :: x :: r)
  | folders {a b x y : String} {r r' : List String} (hLess : a < b) : Before (a :: x :: r) (b :: y :: r')
  | sameFolder {a : String} {r r' : List String} (hBefore : Before r r') : Before (a :: r) (a :: r')

section Items

variable {name : String} {rest : List (String × Tree)}

theorem RealItems.file {data : List UInt8} (hName : '/' ∉ name.toList) (hNew : name ∉ Table.keys rest)
    (hRest : RealItems rest) : RealItems ((name, .file data) :: rest) :=
  .cons hName hNew nofun hRest

theorem RealItems.link {target : String} (hName : '/' ∉ name.toList) (hNew : name ∉ Table.keys rest)
    (hRest : RealItems rest) : RealItems ((name, .link target) :: rest) :=
  .cons hName hNew nofun hRest

theorem RealItems.folder {children : List (String × Tree)} (hName : '/' ∉ name.toList)
    (hNew : name ∉ Table.keys rest) (hItems : RealItems children) (hRest : RealItems rest) :
    RealItems ((name, .folder children) :: rest) := by
  refine .cons hName hNew ?_ hRest
  rintro _ ⟨⟩
  exact hItems

end Items

theorem RealItems.nodup {items : List (String × Tree)} (h : RealItems items) : (Table.keys items).Nodup := by
  induction h with
  | nil => exact List.nodup_nil
  | cons _ hNew _ _ _ ihRest => exact List.nodup_cons.mpr ⟨hNew, ihRest⟩

section Routes

variable {top item : Tree} {denied : List String} {here : Location} {name : String} {c : Located}

theorem Holds.route_ne_nil (h : Holds top denied here name item c) : c.route ≠ [] := by
  cases h <;> exact List.cons_ne_nil _ _

end Routes

namespace Located

variable {a b : Located}

theorem path_inside (name : String) {c : Located} (hRoute : c.route ≠ []) :
    (c.inside name).path = name ++ "/" ++ c.path :=
  String.intercalate_cons_of_ne_nil hRoute

theorem file_inside (front name : String) {c : Located} (hRoute : c.route ≠ []) :
    (c.inside name).file front = c.file (front ++ name ++ "/") := by
  unfold file
  rw [path_inside name hRoute, ← String.append_assoc, ← String.append_assoc]
  rfl

end Located

/-! ## Groups of files -/

/-- What a walk finds at or below one item, as `Branch`, with the routes. -/
structure Group where
  name : String
  isFolder : Bool
  found : List Located

namespace Group

def branch (front : String) (g : Group) : Branch :=
  ⟨g.name, g.isFolder, g.found.map (Located.file front)⟩

def le (g h : Group) : Bool :=
  (g.branch "").le (h.branch "")

def flat (gs : List Group) : List Located :=
  (gs.mergeSort le).flatMap (·.found)

/-- The files come in order, and the routes to them start with the item. -/
structure Sorted (g : Group) : Prop where
  ordered : g.found.Pairwise fun a b => Before a.route b.route
  routes : ∀ c ∈ g.found, ∃ rest, c.route = g.name :: rest ∧ (rest = [] ↔ g.isFolder = false)

variable {gs : List Group} {g h : Group}

theorem mem_flat {c : Located} : c ∈ flat gs ↔ ∃ g ∈ gs, c ∈ g.found := by
  simp only [flat, List.mem_flatMap, List.mem_mergeSort]

theorem inOrder_branches (front : String) (gs : List Group) :
    inOrder (gs.map (branch front)) = (flat gs).map (Located.file front) := by
  unfold inOrder flat
  rw [← List.map_mergeSort (r := le) (f := branch front) (fun _ _ _ _ => rfl), List.flatMap_map, List.map_flatMap]
  rfl

theorem Sorted.before (hg : g.Sorted) (hh : h.Sorted) (hLe : g.le h = true) (hNe : g.name ≠ h.name) :
    ∀ a ∈ g.found, ∀ b ∈ h.found, Before a.route b.route := by
  intro a ha b hb
  obtain ⟨rest, hRoute, hRest⟩ := hg.routes a ha
  obtain ⟨rest', hRoute', hRest'⟩ := hh.routes b hb
  have hLess : g.isFolder = h.isFolder → g.name < h.name := by
    intro hSame
    have hNames : g.name ≤ h.name := by simpa [le, Branch.le, branch, hSame] using hLe
    exact Classical.byContradiction fun hNot => hNe (String.le_antisymm hNames (String.not_lt.mp hNot))
  rw [hRoute, hRoute']
  cases hKind : g.isFolder with
  | false =>
    rw [hRest.mpr hKind]
    cases hKind' : h.isFolder with
    | false =>
      rw [hRest'.mpr hKind']
      exact .names (hLess (hKind.trans hKind'.symm))
    | true =>
      cases rest' with
      | nil => exact absurd (hRest'.mp rfl) (by simp [hKind'])
      | cons x r => exact .fileFirst
  | true =>
    have hKind' : h.isFolder = true := by
      by_contra hFile
      simp [le, Branch.le, branch, hKind, hFile] at hLe
    cases rest with
    | nil => exact absurd (hRest.mp rfl) (by simp [hKind])
    | cons x r =>
      cases rest' with
      | nil => exact absurd (hRest'.mp rfl) (by simp [hKind'])
      | cons y r' => exact .folders (hLess (hKind.trans hKind'.symm))

theorem pairwise_flat (hNames : (gs.map (·.name)).Nodup) (hSorted : ∀ g ∈ gs, g.Sorted) :
    (flat gs).Pairwise fun a b => Before a.route b.route := by
  have hMem : ∀ g ∈ gs.mergeSort le, g.Sorted := fun g hg => hSorted g (List.mem_mergeSort.mp hg)
  have hDistinct : (gs.mergeSort le).Pairwise fun g h => g.name ≠ h.name := by
    have hPerm := (List.mergeSort_perm gs le).map (·.name)
    exact List.pairwise_map.mp (hPerm.nodup_iff.mpr hNames)
  have hOrdered : (gs.mergeSort le).Pairwise fun g h => g.le h = true :=
    List.pairwise_mergeSort
      (fun g h i => Branch.le_trans (g.branch "") (h.branch "") (i.branch ""))
      (fun g h => Branch.le_total (g.branch "") (h.branch "")) gs
  refine List.pairwise_flatMap.mpr ⟨fun g hg => (hMem g hg).ordered, ?_⟩
  refine (hOrdered.and hDistinct).imp_of_mem ?_
  intro g h hg hh hBoth
  exact (hMem g hg).before (hMem h hh) hBoth.1 hBoth.2

end Group

def Group.single (name : String) (contents : Contents) : Group :=
  ⟨name, false, [⟨[name], contents⟩]⟩

theorem Group.branch_single (front name : String) (contents : Contents) :
    (single name contents).branch front = ⟨name, false, [⟨front ++ name, contents⟩]⟩ := by
  simp [branch, single, Located.file, Located.path]

theorem Group.sorted_single (name : String) (contents : Contents) : (single name contents).Sorted where
  ordered := List.pairwise_singleton _ _
  routes c hc := by
    rw [List.mem_singleton.mp hc]
    exact ⟨[], rfl, by simp [single]⟩

/-! ## Walks -/

structure Grouped (top : Tree) (denied : List String) (here : Location) (front : String)
    (items : List (String × Tree)) (gs : List Group) : Prop where
  branches : branches top denied here front items = gs.map (Group.branch front)
  names : (gs.map (·.name)).Sublist (Table.keys items)
  sorted : ∀ g ∈ gs, g.Sorted
  mem : ∀ c, (∃ g ∈ gs, c ∈ g.found) ↔ ∃ x ∈ items, Holds top denied here x.1 x.2 c

namespace Grouped

variable {top : Tree} {denied : List String} {here : Location} {front name : String}
  {items : List (String × Tree)} {item : Tree} {gs gs' : List Group}

theorem nil : Grouped top denied here front [] [] where
  branches := branches_nil top denied here front
  names := .slnil
  sorted := by simp
  mem := by simp

theorem cons (hItem : Grouped top denied here front [(name, item)] gs)
    (hRest : Grouped top denied here front items gs') :
    Grouped top denied here front ((name, item) :: items) (gs ++ gs') where
  branches := by
    have hSplit : Disk.branches top denied here front ((name, item) :: items) =
        Disk.branches top denied here front [(name, item)] ++ Disk.branches top denied here front items := by
      cases item with
      | file data => rw [branches_file, branches_file, branches_nil, List.singleton_append]
      | locked size => rw [branches_locked, branches_locked, branches_nil, List.singleton_append]
      | closed => rw [branches_closed, branches_closed, branches_nil, List.nil_append]
      | link target =>
        rw [Disk.branches, Disk.branches, branches_nil]
        cases linkBranch top here (front ++ name) name <;> rfl
      | folder children =>
        rw [branches_folder, branches_folder, branches_nil]
        split <;> rfl
    rw [hSplit, hItem.branches, hRest.branches, List.map_append]
  names := by
    rw [List.map_append]
    exact hItem.names.append hRest.names
  sorted := List.forall_mem_append.mpr ⟨hItem.sorted, hRest.sorted⟩
  mem c := by
    have hHead := hItem.mem c
    have hTail := hRest.mem c
    simp only [List.mem_singleton, exists_eq_left] at hHead
    simp only [List.mem_append, List.mem_cons, or_and_right, exists_or, exists_eq_left, hHead, hTail]

/-- An item that counts as one file. -/
theorem single {contents : Contents}
    (hBranch : Disk.branches top denied here front [(name, item)] = [⟨name, false, [⟨front ++ name, contents⟩]⟩])
    (hHolds : ∀ c, Holds top denied here name item c ↔ c = ⟨[name], contents⟩) :
    Grouped top denied here front [(name, item)] [Group.single name contents] where
  branches := by rw [hBranch, List.map_singleton, Group.branch_single]
  names := List.Sublist.refl _
  sorted := List.forall_mem_singleton.mpr (Group.sorted_single name contents)
  mem c := by simp [Group.single, hHolds]

/-- An item that counts as nothing. -/
theorem none (hBranch : Disk.branches top denied here front [(name, item)] = [])
    (hHolds : ∀ c, ¬ Holds top denied here name item c) :
    Grouped top denied here front [(name, item)] [] where
  branches := hBranch
  names := List.nil_sublist _
  sorted := by simp
  mem c := by simp [hHolds]

theorem file (data : List UInt8) :
    Grouped top denied here front [(name, .file data)] [Group.single name (.bytes data)] := by
  refine single (by rw [branches_file, branches_nil]) fun c => ⟨?_, ?_⟩
  · rintro ⟨⟩
    rfl
  · rintro rfl
    exact .file

theorem locked (size : Nat) :
    Grouped top denied here front [(name, .locked size)] [Group.single name (.locked size)] := by
  refine single (by rw [branches_locked, branches_nil]) fun c => ⟨?_, ?_⟩
  · rintro ⟨⟩
    rfl
  · rintro rfl
    exact .locked

/-- A link holds what its name leads to, and is lost if that is nothing. -/
theorem holds_link_iff {target : String} {c : Located} :
    Holds top denied here name (.link target) c ↔
      ∃ contents, linkContents? (top.resolve here name) = some contents ∧ c = ⟨[name], contents⟩ := by
  constructor
  · intro h
    cases h with
    | link hLeads => exact ⟨_, by rw [hLeads]; rfl, rfl⟩
    | lockedLink hLeads => exact ⟨_, by rw [hLeads]; rfl, rfl⟩
    | deadLink hNowhere =>
      refine ⟨.lost, ?_, rfl⟩
      cases hItem : top.resolve here name with
      | none => rfl
      | some item =>
        obtain ⟨next, rfl⟩ := hNowhere item hItem
        rfl
  · rintro ⟨contents, h, rfl⟩
    cases hItem : top.resolve here name with
    | none =>
      rw [hItem] at h
      cases h
      exact .deadLink (by simp [hItem])
    | some item =>
      rw [hItem] at h
      cases item with
      | file data =>
        cases h
        exact .link hItem
      | locked size =>
        cases h
        exact .lockedLink hItem
      | folder children => cases h
      | closed => cases h
      | link next =>
        cases h
        exact .deadLink fun found hFound => ⟨next, Option.some.inj (hFound.symm.trans hItem)⟩

theorem exists_link (target : String) : ∃ gs, Grouped top denied here front [(name, .link target)] gs := by
  have hBranch : Disk.branches top denied here front [(name, .link target)] =
      (linkBranch top here (front ++ name) name).toList := by
    rw [branches_link, branches_nil, List.append_nil]
  unfold linkBranch at hBranch
  cases hLink : linkContents? (top.resolve here name) with
  | none =>
    rw [hLink] at hBranch
    refine ⟨_, none hBranch ?_⟩
    intro c h
    obtain ⟨contents, hSome, -⟩ := holds_link_iff.mp h
    cases hLink.symm.trans hSome
  | some contents =>
    rw [hLink] at hBranch
    refine ⟨_, single hBranch fun c => ?_⟩
    rw [holds_link_iff, hLink]
    simp

theorem folder {children : List (String × Tree)} (hAllowed : denied.contains name = false)
    (hReal : RealItems children)
    (hBelow : Grouped top denied (name :: here) (front ++ name ++ "/") children gs) :
    Grouped top denied here front [(name, .folder children)]
      [⟨name, true, (Group.flat gs).map (Located.inside name)⟩] := by
  have hFound : ∀ c, c ∈ Group.flat gs ↔ ∃ x ∈ children, Holds top denied (name :: here) x.1 x.2 c := by
    intro c
    rw [Group.mem_flat, hBelow.mem]
  have hRoutes : ∀ c ∈ Group.flat gs, c.route ≠ [] := by
    intro c hc
    obtain ⟨x, -, hHolds⟩ := (hFound c).mp hc
    exact hHolds.route_ne_nil
  constructor
  · have hFiles : inOrder (Disk.branches top denied (name :: here) (front ++ name ++ "/") children) =
        ((Group.flat gs).map (Located.inside name)).map (Located.file front) := by
      rw [hBelow.branches, Group.inOrder_branches, List.map_map]
      refine List.map_congr_left fun c hc => ?_
      exact (Located.file_inside front name (hRoutes c hc)).symm
    rw [branches_folder, hAllowed, if_neg Bool.false_ne_true, branches_nil, hFiles]
    rfl
  · exact List.Sublist.refl _
  · refine List.forall_mem_singleton.mpr ⟨?_, ?_⟩
    · have hNodup : (gs.map (·.name)).Nodup := hReal.nodup.sublist hBelow.names
      exact List.pairwise_map.mpr ((Group.pairwise_flat hNodup hBelow.sorted).imp .sameFolder)
    · intro c hc
      obtain ⟨inner, hInner, rfl⟩ := List.mem_map.mp hc
      exact ⟨inner.route, rfl, by simp [hRoutes inner hInner]⟩
  · intro c
    simp only [List.mem_singleton, exists_eq_left, List.mem_map, hFound]
    constructor
    · rintro ⟨inner, ⟨x, hx, hHolds⟩, rfl⟩
      exact .inFolder (by simpa using hAllowed) hx hHolds
    · intro h
      cases h with
      | inFolder _ hChild hHolds => exact ⟨_, ⟨_, hChild, hHolds⟩, rfl⟩

end Grouped

theorem RealItems.exists_grouped {items : List (String × Tree)} (hReal : RealItems items) (top : Tree)
    (denied : List String) (here : Location) (front : String) :
    ∃ gs, Grouped top denied here front items gs := by
  induction hReal generalizing here front with
  | nil => exact ⟨[], .nil⟩
  | @cons name item rest _ _ hItem _ ihItem ihRest =>
    obtain ⟨gsRest, hRest⟩ := ihRest here front
    suffices hOne : ∃ gs, Grouped top denied here front [(name, item)] gs by
      obtain ⟨gs, hOne⟩ := hOne
      exact ⟨gs ++ gsRest, hOne.cons hRest⟩
    cases item with
    | file data => exact ⟨_, .file data⟩
    | locked size => exact ⟨_, .locked size⟩
    | closed =>
      refine ⟨[], .none (by rw [branches_closed, branches_nil]) ?_⟩
      rintro c ⟨⟩
    | link target => exact Grouped.exists_link target
    | folder children =>
      cases hDenied : denied.contains name with
      | true =>
        refine ⟨[], .none (by rw [branches_folder, hDenied, if_pos rfl, branches_nil]) ?_⟩
        rintro c ⟨⟩
        simp_all
      | false =>
        obtain ⟨gs, hBelow⟩ := ihItem children rfl (name :: here) (front ++ name ++ "/")
        exact ⟨_, .folder hDenied (hItem children rfl) hBelow⟩

/-- A walk finds the files that the items of its folder hold, in the order of their routes. -/
theorem RealItems.filesBelow {top : Tree} {location : Location} {children : List (String × Tree)}
    (hReal : RealItems children) (hFolder : top.at? location = some (.folder children))
    (denied : List String) :
    ∃ cs : List Located, Disk.filesBelow top denied location = cs.map (Located.file "") ∧
      (cs.Pairwise fun a b => Before a.route b.route) ∧
      ∀ c, c ∈ cs ↔ ∃ x ∈ children, Holds top denied location.reverse x.1 x.2 c := by
  obtain ⟨gs, hGrouped⟩ := hReal.exists_grouped top denied location.reverse ""
  have hNodup : (gs.map (·.name)).Nodup := hReal.nodup.sublist hGrouped.names
  refine ⟨Group.flat gs, ?_, Group.pairwise_flat hNodup hGrouped.sorted, ?_⟩
  · unfold Disk.filesBelow
    rw [hFolder]
    dsimp only
    rw [hGrouped.branches, Group.inOrder_branches]
  · intro c
    rw [Group.mem_flat, hGrouped.mem]

end WebAudit.Disk
