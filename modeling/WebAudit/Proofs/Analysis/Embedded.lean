import WebAudit.Proofs.Analysis.Selection

/-!
# Records that are part of a page

The inline blocks of a page and the assets it refers to are scripts and stylesheets, never pages. Only of
a page come further records, so those that come of it bring no more.
-/

namespace WebAudit

structure Record.Embedded (r : Record) : Prop where
  synthetic : r.synthetic = true
  placed : r.Placed
  kind : r.kind ≠ .markup

namespace Record

variable {record : Record} {toggles : Toggles} {nesting : Nat} {followAssets : Bool} {o : Outcome}

/-! ## Blocks and assets -/

theorem assetsOf_false (parsed : Except ParseFault (Option Parsed)) :
    record.assetsOf parsed false = .ok [] := by
  unfold assetsOf
  split <;> rfl

theorem Placed.embedded_derivedFrom (h : record.Placed) (parsed : Except ParseFault (Option Parsed)) :
    ∀ r ∈ record.derivedFrom parsed, r.Embedded := by
  intro r hr
  have hPlaced := h.derivedFrom parsed r hr
  unfold Record.derivedFrom at hr
  split at hr
  · rename_i document
    obtain ⟨block, hBlock, rfl⟩ := List.mem_map.mp hr
    exact ⟨rfl, hPlaced, document.kind_inlineBlocks block hBlock⟩
  · cases hr

/-! ## Outcomes -/

theorem assets_eq_nil (h : record.analyze toggles nesting false = .ok o) : o.assets = [] := by
  obtain ⟨-, ⟨-, hAssets⟩ | ⟨-, hNone⟩⟩ := analyze_cases h
  · rw [assetsOf_false, Except.ok.injEq] at hAssets
    exact hAssets.symm
  · exact hNone

/-- The blocks that come of a placed record are embedded in it. -/
theorem Placed.embedded_derived (hPlaced : record.Placed)
    (h : record.analyze toggles nesting followAssets = .ok o) : ∀ r ∈ o.derived, r.Embedded := by
  obtain ⟨-, ⟨hDerived, -⟩ | ⟨hDerived, -⟩⟩ := analyze_cases h
  · rw [hDerived]
    exact hPlaced.embedded_derivedFrom record.parse
  · rw [hDerived]
    simp

end Record

end WebAudit
