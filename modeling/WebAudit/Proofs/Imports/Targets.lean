import Mathlib.Order.Bounds.Basic
import Mathlib.Order.Nat
import WebAudit.Proofs.Imports.Graph
import WebAudit.Proofs.Script.Trees

/-!
# The targets of a script

A script names a module in a statement that imports it or exports from it, and in a call of `require` or `import`.
Each kind of these is gathered in a pass of its own. What the passes find is sorted by line, and of each module
only the first entry is kept: hence its line is the least one of all passes.
-/

namespace WebAudit

namespace Script

/-! ## What names a module -/

/-- The first child that is neither a token nor a comment. A comment in the manner of HTML is of another kind
and counts as an argument. -/
def Node.FirstArgument (list argument : Node) : Prop :=
  ∃ front back, list.children = front ++ argument :: back ∧
    argument.isNamed = true ∧ argument.kind ≠ .comment ∧
    ∀ c ∈ front, c.isNamed = false ∨ c.kind = .comment

theorem Node.head?_contents_eq_some_iff {list argument : Node} :
    list.contents.head? = some argument ↔ list.FirstArgument argument := by
  rw [contents, namedChildren, List.filter_filter, List.head?_filter, List.find?_eq_some_iff_append]
  simp only [Bool.and_eq_true, bne_iff_ne, Bool.not_eq_true', Bool.and_eq_false_iff, bne_eq_false_iff_eq]
  constructor
  · rintro ⟨⟨hKind, hNamed⟩, front, back, hChildren, hFront⟩
    exact ⟨front, back, hChildren, hNamed, hKind, fun c hc => (hFront c hc).symm⟩
  · rintro ⟨front, back, hChildren, hNamed, hKind, hFront⟩
    exact ⟨⟨hKind, hNamed⟩, front, back, hChildren, fun c hc => (hFront c hc).symm⟩

namespace Source

variable {s : Source}

def Spells (s : Source) (n : Node) (text : String) : Prop :=
  n.kind = .string ∧ ∃ front fragment back, n.children = front ++ fragment :: back ∧
    fragment.kind = .stringFragment ∧ s.textOf fragment = text ∧
    ∀ c ∈ front ++ back, c.kind ≠ .stringFragment

theorem plainString?_eq_some_iff {n : Node} {text : String} :
    s.plainString? n = some text ↔ s.Spells n text := by
  have hOnly (fragment : Node) : n.children.filter (·.kind == .stringFragment) = [fragment] ↔
      ∃ front back, n.children = front ++ fragment :: back ∧ fragment.kind = .stringFragment ∧
        ∀ c ∈ front ++ back, c.kind ≠ .stringFragment := by
    simp only [List.filter_eq_cons_iff, List.filter_eq_nil_iff, beq_iff_eq, List.forall_mem_append]
    constructor
    · rintro ⟨front, back, hChildren, hFront, hKind, hBack⟩
      exact ⟨front, back, hChildren, hKind, hFront, hBack⟩
    · rintro ⟨front, back, hChildren, hKind, hFront, hBack⟩
      exact ⟨front, back, hChildren, hFront, hKind, hBack⟩
  unfold plainString? Spells
  by_cases hString : n.kind = .string
  · rw [if_pos (beq_iff_eq.mpr hString)]
    constructor
    · intro hText
      split at hText
      · rename_i fragment hFragment
        obtain ⟨front, back, hChildren, hKind, hOthers⟩ := (hOnly fragment).mp hFragment
        cases hText
        exact ⟨hString, front, fragment, back, hChildren, hKind, rfl, hOthers⟩
      · cases hText
    · rintro ⟨-, front, fragment, back, hChildren, hKind, rfl, hOthers⟩
      rw [(hOnly fragment).mpr ⟨front, back, hChildren, hKind, hOthers⟩]
  · simp [hString]

def CallsFreely (s : Source) (n : Node) (name : String) : Prop :=
  n.kind = .call ∧ ∃ callee, n.child? .callee = some callee ∧
    ((callee.kind ≠ .member ∧ s.textOf callee = name) ∨
      (callee.kind = .member ∧ callee.child? .object = none ∧
        s.textOf ((callee.child? .property).getD callee) = name))

inductive Names (s : Source) (n : Node) (module : String) : Prop
  | statement {source : Node} (hKind : n.kind = .importStatement ∨ n.kind = .exportStatement)
      (hSource : n.child? .source = some source) (hSpells : s.Spells source module)
  | call {name : String} {list argument : Node} (hCall : s.CallsFreely n name)
      (hName : name = "require" ∨ name = "import") (hList : n.child? .arguments = some list)
      (hFirst : list.FirstArgument argument) (hSpells : s.Spells argument module)

def namingLines (s : Source) (module : String) : Set Nat :=
  {line | ∃ n ∈ s.root.preorder, s.Names n module ∧ n.line = line}

/-! ## Passes -/

theorem exists_site_iff {kind : Kind} {n : Node} :
    (∃ site ∈ s.sitesOf kind, site.node = n) ↔ n ∈ s.root.preorder ∧ n.kind = kind := by
  rw [← List.mem_map, nodes_sitesOf, List.mem_filter, beq_iff_eq]

def importOf (s : Source) (spelled : Option Node) (dynamic : Bool) (line : Nat) : Option Import :=
  (spelled.bind s.plainString?).bind fun module =>
    if module.isEmpty then none else some ⟨module, dynamic, line⟩

theorem importOf_eq_some_iff {spelled : Option Node} {dynamic : Bool} {line : Nat} {i : Import} :
    s.importOf spelled dynamic line = some i ↔
      i.module ≠ "" ∧ i.dynamic = dynamic ∧ i.line = line ∧ ∃ n, spelled = some n ∧ s.Spells n i.module := by
  simp only [importOf, Option.bind_eq_some_iff, plainString?_eq_some_iff, Option.ite_none_left_eq_some,
    String.isEmpty_iff, Option.some.injEq]
  constructor
  · rintro ⟨module, hSpelled, hModule, rfl⟩
    exact ⟨hModule, rfl, rfl, hSpelled⟩
  · rintro ⟨hModule, rfl, rfl, hSpelled⟩
    exact ⟨i.module, hSpelled, hModule, rfl⟩

theorem staticImports_eq (kind : Kind) : s.staticImports kind =
    (s.sitesOf kind).filterMap fun site => s.importOf (site.node.child? .source) false site.node.line := by
  refine List.filterMap_congr ?_
  intro site _
  rw [importOf]
  cases (site.node.child? .source).bind s.plainString? with
  | none => rfl
  | some module => rfl

theorem dynamicImports_eq : s.dynamicImports = s.calls.filterMap fun call =>
    if call.receiver.isNone && (call.name == "require" || call.name == "import") then
      s.importOf call.arguments.head? true call.site.node.line
    else none := by
  refine List.filterMap_congr ?_
  intro call _
  rw [importOf]
  cases call.arguments.head?.bind s.plainString? with
  | none => rfl
  | some module => rfl

theorem mem_staticImports_iff {kind : Kind} {i : Import} :
    i ∈ s.staticImports kind ↔ i.module ≠ "" ∧ i.dynamic = false ∧
      ∃ n ∈ s.root.preorder, n.kind = kind ∧ n.line = i.line ∧
        ∃ source, n.child? .source = some source ∧ s.Spells source i.module := by
  simp only [staticImports_eq, List.mem_filterMap, importOf_eq_some_iff]
  constructor
  · rintro ⟨site, hSite, hModule, hStatic, hLine, hSource⟩
    obtain ⟨hn, hKind⟩ := exists_site_iff.mp ⟨site, hSite, rfl⟩
    exact ⟨hModule, hStatic, site.node, hn, hKind, hLine.symm, hSource⟩
  · rintro ⟨hModule, hStatic, n, hn, hKind, hLine, hSource⟩
    obtain ⟨site, hSite, rfl⟩ := exists_site_iff.mpr ⟨hn, hKind⟩
    exact ⟨site, hSite, hModule, hStatic, hLine.symm, hSource⟩

theorem callAt_eq_some_iff {site : Site} {call : Call} (hKind : site.node.kind = .call)
    (hFree : call.receiver = none) :
    s.callAt site = some call ↔ call.site = site ∧ s.CallsFreely site.node call.name ∧
      call.arguments = ((site.node.child? .arguments).map Node.contents).getD [] := by
  obtain ⟨site', name, receiver, arguments⟩ := call
  obtain rfl : receiver = none := hFree
  unfold callAt CallsFreely
  cases site.node.child? .callee with
  | none => simp
  | some callee =>
    simp only [hKind, true_and, Option.some.injEq, exists_eq_left']
    by_cases hMember : callee.kind = .member
    · rw [if_pos (beq_iff_eq.mpr hMember)]
      simp only [hMember, Option.some.injEq, Call.mk.injEq, Option.map_eq_none_iff, ne_eq, not_true_eq_false,
        false_and, false_or, true_and]
      constructor
      · rintro ⟨rfl, rfl, hObject, rfl⟩
        exact ⟨rfl, ⟨hObject, rfl⟩, rfl⟩
      · rintro ⟨rfl, ⟨hObject, rfl⟩, rfl⟩
        exact ⟨rfl, rfl, hObject, rfl⟩
    · rw [if_neg (mt beq_iff_eq.mp hMember)]
      simp only [hMember, Option.some.injEq, Call.mk.injEq, ne_eq, not_false_eq_true, false_and, or_false,
        true_and]
      constructor
      · rintro ⟨rfl, rfl, rfl⟩
        exact ⟨rfl, rfl, rfl⟩
      · rintro ⟨rfl, rfl, rfl⟩
        exact ⟨rfl, rfl, rfl⟩

theorem head?_arguments_eq_some_iff {n argument : Node} :
    (((n.child? .arguments).map Node.contents).getD []).head? = some argument ↔
      ∃ list, n.child? .arguments = some list ∧ list.FirstArgument argument := by
  cases n.child? .arguments with
  | none => simp
  | some list => simp [Node.head?_contents_eq_some_iff]

theorem mem_dynamicImports_iff {i : Import} :
    i ∈ s.dynamicImports ↔ i.module ≠ "" ∧ i.dynamic = true ∧
      ∃ n ∈ s.root.preorder, n.line = i.line ∧ ∃ name list argument, s.CallsFreely n name ∧
        (name = "require" ∨ name = "import") ∧ n.child? .arguments = some list ∧
        list.FirstArgument argument ∧ s.Spells argument i.module := by
  simp only [dynamicImports_eq, calls, List.mem_filterMap, Option.ite_none_right_eq_some, Bool.and_eq_true,
    Bool.or_eq_true, beq_iff_eq, Option.isNone_iff_eq_none, importOf_eq_some_iff]
  constructor
  · rintro ⟨call, ⟨site, hSite, hCall⟩, ⟨hFree, hName⟩, hModule, hDynamic, hLine, argument, hHead, hSpells⟩
    obtain ⟨hn, hKind⟩ := exists_site_iff.mp ⟨site, hSite, rfl⟩
    obtain ⟨rfl, hFreely, hArguments⟩ := (callAt_eq_some_iff hKind hFree).mp hCall
    rw [hArguments, head?_arguments_eq_some_iff] at hHead
    obtain ⟨list, hList, hFirst⟩ := hHead
    exact ⟨hModule, hDynamic, _, hn, hLine.symm, call.name, list, argument, hFreely, hName, hList, hFirst, hSpells⟩
  · rintro ⟨hModule, hDynamic, n, hn, hLine, name, list, argument, hFreely, hName, hList, hFirst, hSpells⟩
    obtain ⟨site, hSite, rfl⟩ := exists_site_iff.mpr ⟨hn, hFreely.1⟩
    refine ⟨⟨site, name, none, _⟩, ⟨site, hSite, (callAt_eq_some_iff hFreely.1 rfl).mpr ⟨rfl, hFreely, rfl⟩⟩,
      ⟨rfl, hName⟩, hModule, hDynamic, hLine.symm, argument, ?_, hSpells⟩
    exact head?_arguments_eq_some_iff.mpr ⟨list, hList, hFirst⟩

/-- What the passes find together: every module that is named, on the line where this starts. -/
theorem exists_mem_imports_iff {module : String} {line : Nat} :
    (∃ i ∈ s.imports, i.module = module ∧ i.line = line) ↔ module ≠ "" ∧ line ∈ s.namingLines module := by
  simp only [imports, List.mem_mergeSort, List.mem_append, mem_staticImports_iff, mem_dynamicImports_iff]
  constructor
  · rintro ⟨i, hFound, rfl, rfl⟩
    rcases hFound with (⟨hModule, -, n, hn, hKind, hLine, source, hSource, hSpells⟩ |
      ⟨hModule, -, n, hn, hKind, hLine, source, hSource, hSpells⟩) |
      ⟨hModule, -, n, hn, hLine, name, list, argument, hCall, hName, hList, hFirst, hSpells⟩
    · exact ⟨hModule, n, hn, .statement (.inl hKind) hSource hSpells, hLine⟩
    · exact ⟨hModule, n, hn, .statement (.inr hKind) hSource hSpells, hLine⟩
    · exact ⟨hModule, n, hn, .call hCall hName hList hFirst hSpells, hLine⟩
  · rintro ⟨hModule, n, hn, hNames, rfl⟩
    cases hNames with
    | statement hKind hSource hSpells =>
      refine ⟨⟨module, false, n.line⟩, .inl ?_, rfl, rfl⟩
      rcases hKind with hKind | hKind
      · exact .inl ⟨hModule, rfl, n, hn, hKind, rfl, _, hSource, hSpells⟩
      · exact .inr ⟨hModule, rfl, n, hn, hKind, rfl, _, hSource, hSpells⟩
    | call hCall hName hList hFirst hSpells =>
      exact ⟨⟨module, true, n.line⟩,
        .inr ⟨hModule, rfl, n, hn, rfl, _, _, _, hCall, hName, hList, hFirst, hSpells⟩, rfl, rfl⟩

theorem pairwise_imports (s : Source) : s.imports.Pairwise fun a b => a.line ≤ b.line :=
  pairwise_mergeSort_of_key (fun _ _ => decide_eq_true_iff) _

/-! ## The first line of a module -/

/-- The name starts neither with a dot nor with a slash. -/
def IsBare (module : String) : Prop :=
  module.toList.head? ≠ some '.' ∧ module.toList.head? ≠ some '/'

theorem isBare_iff {module : String} :
    IsBare module ↔ (module.startsWith "." || module.startsWith "/") = false := by
  rw [Bool.or_eq_false_iff, IsBare, String.startsWith_string_eq_false_iff, String.startsWith_string_eq_false_iff]
  cases module.toList with
  | nil => simp
  | cons c rest => simp [List.cons_prefix_cons, eq_comm]

theorem mem_addTarget_iff {targets : List (String × Nat)} {i : Import} {entry : String × Nat} :
    entry ∈ addTarget targets i ↔ entry ∈ targets ∨
      (IsBare i.module ∧ i.module ∉ Table.keys targets ∧ entry = (i.module, i.line)) := by
  have hListed : targets.any (·.1 == i.module) = true ↔ i.module ∈ Table.keys targets := by
    simp [Table.keys]
  rw [isBare_iff, ← hListed, addTarget]
  cases i.module.startsWith "." || i.module.startsWith "/" with
  | true => simp
  | false =>
    cases targets.any (·.1 == i.module) with
    | true => simp
    | false => simp

theorem mem_keys_addTarget_iff {targets : List (String × Nat)} {i : Import} {module : String} :
    module ∈ Table.keys (addTarget targets i) ↔
      module ∈ Table.keys targets ∨ (IsBare module ∧ i.module = module) := by
  constructor
  · intro hKey
    obtain ⟨entry, hEntry, rfl⟩ := List.mem_map.mp hKey
    rcases mem_addTarget_iff.mp hEntry with hOld | ⟨hBare, -, rfl⟩
    · exact .inl (List.mem_map_of_mem hOld)
    · exact .inr ⟨hBare, rfl⟩
  · intro hKey
    by_cases hListed : module ∈ Table.keys targets
    · obtain ⟨entry, hEntry, rfl⟩ := List.mem_map.mp hListed
      exact List.mem_map_of_mem (mem_addTarget_iff.mpr (.inl hEntry))
    · obtain ⟨hBare, rfl⟩ := hKey.resolve_left hListed
      exact List.mem_map_of_mem (mem_addTarget_iff.mpr (.inr ⟨hBare, hListed, rfl⟩))

/-- A module keeps the line it is listed with; else it gets that of its first import. -/
theorem mem_foldl_addTarget {targets : List (String × Nat)} {is : List Import} {module : String} {line : Nat} :
    (module, line) ∈ is.foldl addTarget targets ↔ (module, line) ∈ targets ∨
      (IsBare module ∧ module ∉ Table.keys targets ∧
        ∃ i, is.find? (·.module == module) = some i ∧ i.line = line) := by
  induction is generalizing targets with
  | nil => simp
  | cons i is ih =>
    rw [List.foldl_cons, ih, mem_addTarget_iff, mem_keys_addTarget_iff]
    by_cases hSame : i.module = module
    · subst hSame
      -- Whether or not it is bare, later imports of the same module add nothing.
      rw [List.find?_cons_of_pos (by simp)]
      simp only [Prod.mk.injEq, true_and, and_true, Option.some.injEq, exists_eq_left', eq_comm (a := line)]
      tauto
    · rw [List.find?_cons_of_neg (by simp [hSame])]
      simp only [Prod.mk.injEq, Ne.symm hSame, hSame, false_and, and_false, or_false]

theorem isLeast_of_find? {is : List Import} (h : is.Pairwise fun a b => a.line ≤ b.line) {module : String}
    {i : Import} (hFind : is.find? (·.module == module) = some i) :
    IsLeast {line | ∃ j ∈ is, j.module = module ∧ j.line = line} i.line := by
  obtain ⟨hModule, front, back, rfl, hFront⟩ := List.find?_eq_some_iff_append.mp hFind
  refine ⟨⟨i, List.mem_append_right front List.mem_cons_self, eq_of_beq hModule, rfl⟩, ?_⟩
  rintro line ⟨j, hj, hSame, rfl⟩
  -- No import in front is of the module, and those behind are on no earlier line.
  rcases List.mem_append.mp hj with hj | hj
  · have hOther := hFront j hj
    simp [hSame] at hOther
  · rcases List.mem_cons.mp hj with rfl | hj
    · exact Nat.le_refl _
    · exact List.rel_of_pairwise_cons (List.pairwise_append.mp h).2.1 hj

theorem find?_imports_iff {module : String} {line : Nat} :
    (∃ i, s.imports.find? (·.module == module) = some i ∧ i.line = line) ↔
      module ≠ "" ∧ IsLeast (s.namingLines module) line := by
  have hLines (hModule : module ≠ "") :
      {line | ∃ i ∈ s.imports, i.module = module ∧ i.line = line} = s.namingLines module :=
    Set.ext fun line => exists_mem_imports_iff.trans (and_iff_right hModule)
  constructor
  · rintro ⟨i, hFind, rfl⟩
    have hLeast := isLeast_of_find? s.pairwise_imports hFind
    have hModule := (exists_mem_imports_iff.mp hLeast.1).1
    rw [hLines hModule] at hLeast
    exact ⟨hModule, hLeast⟩
  · rintro ⟨hModule, hLeast⟩
    rw [← hLines hModule] at hLeast
    obtain ⟨j, hj, hSame, -⟩ := hLeast.1
    have hSome : (s.imports.find? (·.module == module)).isSome = true :=
      List.find?_isSome.mpr ⟨j, hj, beq_iff_eq.mpr hSame⟩
    obtain ⟨i, hFind⟩ := Option.isSome_iff_exists.mp hSome
    exact ⟨i, hFind, (isLeast_of_find? s.pairwise_imports hFind).unique hLeast⟩

theorem mem_importTargets_iff {module : String} {line : Nat} :
    (module, line) ∈ s.importTargets ↔ module ≠ "" ∧ IsBare module ∧ IsLeast (s.namingLines module) line := by
  rw [importTargets, mem_foldl_addTarget, find?_imports_iff]
  simp only [Table.keys, List.map_nil, List.not_mem_nil, false_or, not_false_eq_true, true_and]
  exact and_left_comm

/-- The targets of a script are the modules with bare names that its statements and calls name. Each is listed
once, with the least line on which one of those that name it starts. -/
theorem importTargets_first_lines (s : Source) :
    (Table.keys s.importTargets).Nodup ∧
    (∀ module, module ∈ Table.keys s.importTargets ↔
      module ≠ "" ∧ IsBare module ∧ ∃ n ∈ s.root.preorder, s.Names n module) ∧
    ∀ module line, s.importTargets.lookup module = some line ↔
      module ≠ "" ∧ IsBare module ∧ IsLeast (s.namingLines module) line := by
  have hNodup := Imports.nodup_importTargets s
  refine ⟨hNodup, ?_, fun module line => (Table.lookup_eq_some_iff hNodup).trans mem_importTargets_iff⟩
  intro module
  classical
  constructor
  · intro hKey
    obtain ⟨⟨module, line⟩, hEntry, rfl⟩ := List.mem_map.mp hKey
    obtain ⟨hModule, hBare, ⟨n, hn, hNames, -⟩, -⟩ := mem_importTargets_iff.mp hEntry
    exact ⟨hModule, hBare, n, hn, hNames⟩
  · rintro ⟨hModule, hBare, n, hn, hNames⟩
    have hNamed : (s.namingLines module).Nonempty := ⟨n.line, n, hn, hNames, rfl⟩
    exact List.mem_map_of_mem (mem_importTargets_iff.mpr ⟨hModule, hBare, hNamed.isLeast_natFind⟩)

/-- The call stands in front of the statement that names the same module, which is gathered before it. -/
def twiceNamed : Source :=
  .parse .javascript "import './b'\nrequire(/**/'a')\nimport 'a'"

theorem twiceNamed_first_line :
    twiceNamed.importTargets = [("a", 2)] ∧ IsLeast (twiceNamed.namingLines "a") 2 := by
  have hPasses : twiceNamed.staticImports .importStatement ++ twiceNamed.staticImports .exportStatement ++
      twiceNamed.dynamicImports = [⟨"./b", false, 1⟩, ⟨"a", false, 3⟩, ⟨"a", true, 2⟩] := by
    decide +kernel
  have hSorted : twiceNamed.imports = [⟨"./b", false, 1⟩, ⟨"a", true, 2⟩, ⟨"a", false, 3⟩] := by
    rw [imports, hPasses]
    simp [List.mergeSort, List.MergeSort.Internal.splitInTwo]
  have hTargets : twiceNamed.importTargets = [("a", 2)] := by
    rw [importTargets, hSorted]
    decide +kernel
  refine ⟨hTargets, ((importTargets_first_lines twiceNamed).2.2 "a" 2).mp ?_ |>.2.2⟩
  rw [hTargets]
  rfl

end Source

end Script

end WebAudit
