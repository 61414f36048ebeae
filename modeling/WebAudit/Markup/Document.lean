import WebAudit.Markup.Tree
import WebAudit.Record
import WebAudit.Url.Join

/-!
# Parsed pages

The elements of a page in the order of their start tags, each with the elements around it. A page
knows its inline scripts and styles and the addresses of its external ones.
-/

namespace WebAudit.Markup

/-- An element with the tags around it, innermost first. -/
structure Site where
  tag : Tag
  children : List Node := []
  around : List Tag := []
deriving Inhabited

/-! ## Attributes -/

namespace Tag

def get? (t : Tag) (name : String) : Option String :=
  t.attributes.lookup name

def has (t : Tag) (name : String) : Bool :=
  (t.get? name).isSome

/-- The value of an attribute, which is empty if there is none. -/
def get (t : Tag) (name : String) : String :=
  (t.get? name).getD ""

def keyword (t : Tag) (name : String) : String :=
  Text.lower (Text.strip (t.get name))

def scriptTypes : List String :=
  ["", "text/javascript", "application/javascript", "application/ecmascript", "text/ecmascript",
   "module"]

def isExecutable (t : Tag) : Bool :=
  scriptTypes.contains (t.keyword "type")

def words (cs : List Char) : List (List Char) :=
  ((cs.splitBy fun a b => Text.isBlank a == Text.isBlank b).filter fun w =>
    !w.any Text.isBlank)

def isStylesheetLink (t : Tag) : Bool :=
  t.name == "link" && (words (t.get "rel").toList).any fun w =>
    String.ofList (Text.lowerChars w) == "stylesheet"

end Tag

/-! ## Elements -/

mutual

/-- The elements of a node, each before those inside it. -/
def Node.sites (around : List Tag) : Node → List Site
  | .text _ _ => []
  | .element tag children => ⟨tag, children, around⟩ :: Node.sitesAll (tag :: around) children

def Node.sitesAll (around : List Tag) : List Node → List Site
  | [] => []
  | n :: ns => n.sites around ++ Node.sitesAll around ns

end

mutual

def Node.hasText : Node → Bool
  | .text .plain cs => !cs.all Text.isBlank
  | .text _ _ => false
  | .element _ children => Node.anyText children

def Node.anyText : List Node → Bool
  | [] => false
  | n :: ns => n.hasText || Node.anyText ns

end

namespace Site

def hasText (s : Site) : Bool :=
  Node.anyText s.children

def inside (s : Site) : List Site :=
  Node.sitesAll [] s.children

def isWithin (s : Site) (name : String) : Bool :=
  s.around.any (·.name == name)

/-- The text of an element that holds nothing else. -/
def string (s : Site) : List Char :=
  match s.children with
  | [.text _ cs] => cs
  | _ => []

/-- A script on the page itself: it can be executed and has no address. -/
def isInlineScript (s : Site) : Bool :=
  s.tag.name == "script" && (s.tag.get "src").isEmpty && s.tag.isExecutable

def hasContent (s : Site) : Bool :=
  !s.string.all Text.isBlank

end Site

/-! ## Pages -/

structure Document where
  source : List Char
  nodes : List Node
deriving Inhabited

/-- A script or style that is part of a page. -/
structure InlineBlock where
  kind : ContentKind
  content : String
  /-- How many lines of the page stand before the first line of the block. -/
  lineOffset : Nat
deriving DecidableEq, Repr, Inhabited

/-- A script or stylesheet that a page refers to. -/
structure Asset where
  url : String
  kind : ContentKind
deriving DecidableEq, Repr, Inhabited

namespace Document

def sites (d : Document) : List Site :=
  Node.sitesAll [] d.nodes

def named (d : Document) (names : List String) : List Site :=
  d.sites.filter fun s => names.contains s.tag.name

/-- How many lines stand before the content of an element: those up to the first `>` from its start
tag on. -/
def contentLine (d : Document) (t : Tag) : Nat :=
  let rest := d.source.drop t.offset
  match through '>' rest with
  | some n => Text.newlines (d.source.take (t.offset + n - 1))
  | none => t.line - 1

def isBlock (s : Site) : Bool :=
  (s.isInlineScript || s.tag.name == "style") && s.hasContent

def inlineBlock (d : Document) (s : Site) : InlineBlock where
  kind := if s.tag.name == "script" then .script else .stylesheet
  content := String.ofList s.string
  lineOffset := d.contentLine s.tag

def inlineBlocks (d : Document) : List InlineBlock :=
  (d.sites.filter isBlock).map d.inlineBlock

/-- The address that a tag refers to for a script or stylesheet, as written. -/
def reference? (t : Tag) : Option (String × ContentKind) :=
  if t.name == "script" then
    let src := t.get "src"
    if !src.isEmpty && t.isExecutable then some (src, .script) else none
  else
    let href := t.get "href"
    if t.isStylesheetLink && !href.isEmpty then some (href, .stylesheet) else none

/-- The addresses of the external scripts and stylesheets, as written. -/
def references (d : Document) : List (String × ContentKind) :=
  d.sites.filterMap fun s => reference? s.tag

def resolve (base : String) (x : String × ContentKind) : Except Url.Fault Asset :=
  (Url.join base x.1).map (⟨·, x.2⟩)

/-- The external scripts and stylesheets in order, with their addresses resolved. -/
def assets (d : Document) (base : String) : Except Url.Fault (List Asset) :=
  d.references.mapM (resolve base)

/-! ## No page is part of a page -/

theorem kind_inlineBlocks (d : Document) : ∀ block ∈ d.inlineBlocks, block.kind ≠ .markup := by
  intro block hBlock
  obtain ⟨s, -, rfl⟩ := List.mem_map.mp hBlock
  unfold inlineBlock
  dsimp only
  split <;> decide

theorem kind_reference? {t : Tag} {address : String} {kind : ContentKind}
    (h : reference? t = some (address, kind)) : kind ≠ .markup := by
  unfold reference? at h
  dsimp only at h
  split at h <;> split at h <;> cases h <;> decide

theorem join_of_resolve {base : String} {x : String × ContentKind} {asset : Asset}
    (h : resolve base x = .ok asset) : ∃ url, Url.join base x.1 = .ok url ∧ asset = ⟨url, x.2⟩ := by
  unfold resolve at h
  cases hJoin : Url.join base x.1 with
  | error fault =>
    rw [hJoin] at h
    cases h
  | ok url =>
    rw [hJoin] at h
    cases h
    exact ⟨url, rfl, rfl⟩

theorem kind_mapM_resolve {base : String} {xs : List (String × ContentKind)} {found : List Asset}
    (hKinds : ∀ x ∈ xs, x.2 ≠ .markup) (h : xs.mapM (resolve base) = .ok found) :
    ∀ a ∈ found, a.kind ≠ .markup := by
  induction xs generalizing found with
  | nil =>
    cases h
    simp
  | cons x xs ih =>
    obtain ⟨hHead, hTail⟩ := List.forall_mem_cons.mp hKinds
    rw [List.mapM_cons] at h
    cases hFirst : resolve base x with
    | error fault =>
      rw [hFirst] at h
      cases h
    | ok asset =>
      cases hRest : xs.mapM (resolve base) with
      | error fault =>
        rw [hFirst, hRest] at h
        cases h
      | ok rest =>
        rw [hFirst, hRest] at h
        cases h
        obtain ⟨url, -, rfl⟩ := join_of_resolve hFirst
        exact List.forall_mem_cons.mpr ⟨hHead, ih hTail hRest⟩

theorem kind_assets {d : Document} {base : String} {found : List Asset} (h : d.assets base = .ok found) :
    ∀ a ∈ found, a.kind ≠ .markup := by
  refine kind_mapM_resolve ?_ h
  rintro ⟨address, kind⟩ hx
  obtain ⟨s, -, hSome⟩ := List.mem_filterMap.mp hx
  exact kind_reference? hSome

end Document

def parse (source : String) : Except Rejection Document := do
  let cs := source.toList
  return ⟨cs, nodesOf (← events cs)⟩

end WebAudit.Markup
