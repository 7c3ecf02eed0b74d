/-
# Which layout the groupings settle

Of the groupings that qualify for a weak entity or a subclass only the first one counts.  So
whether there is a layout at all, and what it says of each entity, can be read off the declarations
and the groupings.

* `EntityDecl.IsFirst`: the first grouping that qualifies for an entity.
* `SchemaDecl.IsClassifiable`: which groupings settle a layout.
* `EntityDecl.IsSettled`: what they settle for an entity.
* `Diagram.classify_exact`: **groupings settle a layout exactly then, and exactly this one.**
-/
import EntityLayout.Proofs.Compilation.Passes

namespace EntityLayout

/-! ## 1. What groupings hold -/

/-- A grouping holds an attribute of an entity, or a part of one. -/
def EntityDecl.HasAttributeIn (e : EntityDecl) (g : Grouping) : Prop :=
  ∃ a ∈ e.attributeNodes, g.contains a.path = true

instance (e : EntityDecl) (g : Grouping) : Decidable (e.HasAttributeIn g) :=
  inferInstanceAs (Decidable (∃ a ∈ e.attributeNodes, g.contains a.path = true))

/-- A grouping names a relationship. -/
def SchemaDecl.RelatesIn (schema : SchemaDecl) (g : Grouping) : Prop :=
  ∃ r ∈ schema.relationships, r.path ∈ g.names.map Text.lower

instance (schema : SchemaDecl) (g : Grouping) : Decidable (schema.RelatesIn g) :=
  inferInstanceAs (Decidable (∃ r ∈ schema.relationships, r.path ∈ g.names.map Text.lower))

/-- The first grouping that qualifies for an entity, with its place. -/
structure EntityDecl.IsFirst (e : EntityDecl) (groupings : List Grouping) (i : Nat)
    (g : Grouping) : Prop where
  here : groupings[i]? = some g
  qualifies : e.Qualifies g
  before : ∀ j < i, ∀ g', groupings[j]? = some g' → ¬e.Qualifies g'

/-- A search through a list with places finds the first item that passes. -/
theorem find?_zipIdx_eq_some {α : Type} {p : α → Bool} {xs : List α} {x : α} {i : Nat} :
    (xs.zipIdx.find? fun y => p y.1) = some (x, i) ↔
      xs[i]? = some x ∧ p x = true ∧ ∀ j < i, ∀ y, xs[j]? = some y → p y = false := by
  rw [List.find?_eq_some_iff_getElem]
  constructor
  · rintro ⟨hx, k, hk, heq, hbefore⟩
    rw [List.getElem_zipIdx, Prod.mk.injEq, Nat.zero_add] at heq
    obtain ⟨hget, rfl⟩ := heq
    rw [List.length_zipIdx] at hk
    refine ⟨List.getElem?_eq_some_iff.mpr ⟨hk, hget⟩, hx, fun j hj y hy => ?_⟩
    obtain ⟨_, rfl⟩ := List.getElem?_eq_some_iff.mp hy
    simpa using hbefore j hj
  · rintro ⟨hget, hx, hbefore⟩
    obtain ⟨hi, rfl⟩ := List.getElem?_eq_some_iff.mp hget
    refine ⟨hx, i, by rwa [List.length_zipIdx], by simp, fun j hj => ?_⟩
    have hlt : j < xs.length := Nat.lt_trans hj hi
    simpa using hbefore j hj xs[j] (List.getElem?_eq_getElem hlt)

theorem find?_zipIdx_eq_none {α : Type} {p : α → Bool} {xs : List α} :
    (xs.zipIdx.find? fun y => p y.1) = none ↔ ∀ x ∈ xs, p x = false := by
  rw [List.find?_eq_none]
  constructor
  · intro h x hx
    obtain ⟨i, hi, rfl⟩ := List.getElem_of_mem hx
    have hmem : (xs[i], i) ∈ xs.zipIdx :=
      List.mem_zipIdx_iff_getElem?.mpr (List.getElem?_eq_getElem hi)
    simpa using h _ hmem
  · intro h y hy
    simp [h y.1 (List.fst_mem_of_mem_zipIdx hy)]

/-! ## 2. Relationships among names -/

namespace Diagram

variable {d : Diagram}

/-- Where the search for a relationship comes to an end, it tells whether there is one. -/
theorem eq_true_of_namesRelationship : ∀ {names : List String} {holds : Bool},
    d.namesRelationship names = .ok holds →
      (holds = true ↔ ∃ name ∈ names, ∃ r, d.nodeAt name = .ok (.relationship r))
  | [], holds, h => by
    obtain rfl := Except.ok.inj h
    simp
  | n :: ns, holds, h => by
    obtain ⟨m, hm, h⟩ := bind_eq_ok.mp h
    cases m with
    | relationship r =>
      obtain rfl := pure_eq_ok.mp h
      exact iff_of_true rfl ⟨n, List.mem_cons_self, r, hm⟩
    | entity e | attr a =>
      rw [eq_true_of_namesRelationship h]
      simp [hm]

/-- It comes to an end where all names are known. -/
theorem exists_namesRelationship {names : List String}
    (h : ∀ name ∈ names, d.contains name = true) :
    ∃ holds, d.namesRelationship names = .ok holds := by
  cases hresult : d.namesRelationship names with
  | ok holds => exact ⟨holds, rfl⟩
  | error fault =>
    obtain ⟨name, hname, hfault⟩ := namesRelationship_eq_error hresult
    obtain ⟨n, hn⟩ := Option.isSome_iff_exists.mp (h name hname)
    exact nomatch hfault.symm.trans (nodeAt_eq_ok.mpr hn)

end Diagram

namespace SchemaDecl.IsWellFormed

variable {schema : SchemaDecl} (h : schema.IsWellFormed)

include h

theorem namesRelationship_iff {g : Grouping} {holds : Bool}
    (hholds : schema.diagram.namesRelationship g.names = .ok holds) :
    holds = true ↔ schema.RelatesIn g := by
  rw [Diagram.eq_true_of_namesRelationship hholds]
  constructor
  · rintro ⟨name, hname, r, hr⟩
    obtain ⟨hmem, hpath⟩ := h.isIndexed.nodeAt_eq_ok.mp hr
    obtain ⟨decl, hdecl, rfl⟩ := relationship_mem_nodes_iff.mp hmem
    exact ⟨decl, hdecl, List.mem_map.mpr ⟨name, hname, hpath.symm⟩⟩
  · rintro ⟨r, hr, hpath⟩
    obtain ⟨name, hname, hpath⟩ := List.mem_map.mp hpath
    exact ⟨name, hname, r.node, h.isIndexed.nodeAt_eq_ok.mpr
      ⟨relationship_mem_nodes hr, hpath.symm⟩⟩

/-! ## 3. Evidence -/

/-- The attributes of an entity are listed if it has some. -/
theorem attributesOf_eq_ok {e : EntityDecl} (he : e ∈ schema.entities) {own : List AttributeNode} :
    schema.diagram.attributesOf e.path = .ok own ↔ e.attributes ≠ [] ∧ own = e.attributeNodes := by
  constructor
  · intro hown
    refine ⟨fun hnil => ?_, h.eq_attributeNodes_of_attributesOf he hown⟩
    exact Diagram.attributes_ne_nil_of_attributesOf h.isIndexed (entity_mem_nodes he) hown
      (EntityDecl.attributes_node_eq_nil hnil)
  · rintro ⟨hne, rfl⟩
    have hat : schema.diagram.entityAt e.path = .ok e.node :=
      h.isIndexed.entityAt_eq_ok.mpr ⟨entity_mem_nodes he, (Text.lower_lower _).symm⟩
    obtain ⟨a, as, hcons⟩ := List.exists_cons_of_ne_nil hne
    have hlist : e.node.attributes.isEmpty = false := by
      simp [EntityDecl.node, EntityDecl.attributeNodes, hcons, Attribute.nodesOf,
        Attribute.nodes_eq]
    rw [Diagram.attributesOf, hat, ok_bind, hlist]
    exact Structures.mapM_attributeAt_of_sublist h.isIndexed (attributes_sublist he)

variable {groupings : List Grouping} {e p : EntityDecl}

/-- The search for a qualifying grouping ends with the first one. -/
theorem find?_qualifies_eq_some (he : e ∈ schema.entities) (hparent : e.parentPath = some p.path)
    {own : List AttributeNode} (hown : schema.diagram.attributesOf e.path = .ok own) {i : Nat}
    {g : Grouping} : (groupings.zipIdx.find? fun g => Diagram.qualifies e.path p.path own g.1) =
      some (g, i) ↔ e.IsFirst groupings i g := by
  have hqualifies := fun g => h.qualifies_iff he hparent hown g
  rw [find?_zipIdx_eq_some]
  constructor
  · rintro ⟨hhere, hq, hbefore⟩
    refine ⟨hhere, (hqualifies g).mp hq, fun j hj g' hg' hq' => ?_⟩
    exact nomatch (hbefore j hj g' hg').symm.trans ((hqualifies g').mpr hq')
  · rintro ⟨hhere, hq, hbefore⟩
    refine ⟨hhere, (hqualifies g).mpr hq, fun j hj g' hg' => ?_⟩
    exact Bool.eq_false_iff.mpr (mt (hqualifies g').mp (hbefore j hj g' hg'))

/-- It ends without one if there is none. -/
theorem find?_qualifies_eq_none (he : e ∈ schema.entities) (hparent : e.parentPath = some p.path)
    {own : List AttributeNode} (hown : schema.diagram.attributesOf e.path = .ok own) :
    (groupings.zipIdx.find? fun g => Diagram.qualifies e.path p.path own g.1) = none ↔
      ∀ g ∈ groupings, ¬e.Qualifies g := by
  rw [find?_zipIdx_eq_none]
  refine forall₂_congr fun g _ => ?_
  rw [Bool.eq_false_iff, Ne, h.qualifies_iff he hparent hown g]

/-- **The evidence for an entity** is what its first qualifying grouping holds. -/
theorem evidence_eq_ok (he : e ∈ schema.entities) (hp : p ∈ schema.entities)
    (hparent : e.parentPath = some p.path) {found : Option Evidence} :
    schema.diagram.evidence groupings e.node = .ok found ↔
      e.attributes ≠ [] ∧ p.attributes ≠ [] ∧
        ((∀ g ∈ groupings, ¬e.Qualifies g) ∧ found = none ∨
          ∃ i g holds, e.IsFirst groupings i g ∧
            schema.diagram.namesRelationship g.names = .ok holds ∧
            found = some ⟨i, holds, decide (p.HasAttributeIn g)⟩) := by
  have hany : ∀ g : Grouping, (p.attributeNodes.any fun a => g.contains a.path) =
      decide (p.HasAttributeIn g) := fun g => by
    rw [Bool.eq_iff_iff, List.any_eq_true, decide_eq_true_eq]
    rfl
  rw [Diagram.evidence_eq_ok hparent]
  simp only [EntityDecl.path_node]
  constructor
  · rintro ⟨own, inherited, hown, hinherited, hfound⟩
    obtain ⟨hpne, rfl⟩ := (h.attributesOf_eq_ok hp).mp hinherited
    refine ⟨((h.attributesOf_eq_ok he).mp hown).1, hpne, ?_⟩
    cases hfind : groupings.zipIdx.find? fun g => Diagram.qualifies e.path p.path own g.1 with
    | none =>
      rw [hfind] at hfound
      exact .inl ⟨(h.find?_qualifies_eq_none he hparent hown).mp hfind, hfound⟩
    | some x =>
      simp only [hfind] at hfound
      obtain ⟨holds, hholds, rfl⟩ := hfound
      exact .inr ⟨x.2, x.1, holds, (h.find?_qualifies_eq_some he hparent hown).mp hfind, hholds,
        by rw [hany]⟩
  · rintro ⟨hne, hpne, hfound⟩
    have hown := (h.attributesOf_eq_ok he).mpr ⟨hne, rfl⟩
    refine ⟨_, _, hown, (h.attributesOf_eq_ok hp).mpr ⟨hpne, rfl⟩, ?_⟩
    rcases hfound with ⟨hnone, rfl⟩ | ⟨i, g, holds, hfirst, hholds, rfl⟩
    · rw [(h.find?_qualifies_eq_none he hparent hown).mpr hnone]
    · simp only [(h.find?_qualifies_eq_some he hparent hown).mpr hfirst]
      exact ⟨holds, hholds, by rw [hany]⟩

end SchemaDecl.IsWellFormed

/-! ## 4. Decisions -/

namespace EntityDecl

variable {groupings : List Grouping} {e p : EntityDecl}

/-- **What groupings settle for an entity** with the parent `p`. -/
inductive IsSettled (groupings : List Grouping) (e p : EntityDecl) : Decision → Prop where
  /-- a subclass for which no grouping qualifies stands alone -/
  | alone : e.kind = .subclass → (∀ g ∈ groupings, ¬e.Qualifies g) →
      IsSettled groupings e p (.subclass .alone none)
  /-- it is kept within its parent's table if the first one holds an attribute of the parent -/
  | withinParent {i : Nat} {g : Grouping} : e.kind = .subclass → e.IsFirst groupings i g →
      p.HasAttributeIn g → IsSettled groupings e p (.subclass .withinParent (some i))
  /-- and beside it if not -/
  | besideParent {i : Nat} {g : Grouping} : e.kind = .subclass → e.IsFirst groupings i g →
      ¬p.HasAttributeIn g → IsSettled groupings e p (.subclass .besideParent (some i))
  /-- a weak entity is alone if the first one holds no attribute of its owner -/
  | weak {i : Nat} {g : Grouping} {alone : Bool} : e.kind = .weak → e.IsFirst groupings i g →
      (alone = true ↔ ¬p.HasAttributeIn g) → IsSettled groupings e p (.weak alone i)

/-- Where a grouping that qualifies places a subclass with the parent `p`. -/
def placementIn (p : EntityDecl) (g : Grouping) : Placement :=
  if p.HasAttributeIn g then .withinParent else .besideParent

theorem IsSettled.placed {i : Nat} {g : Grouping} (hkind : e.kind = .subclass)
    (hfirst : e.IsFirst groupings i g) :
    e.IsSettled groupings p (.subclass (p.placementIn g) (some i)) := by
  unfold placementIn
  split
  · next hholds => exact .withinParent hkind hfirst hholds
  · next hholds => exact .besideParent hkind hfirst hholds

/-- There is a first grouping if one qualifies. -/
theorem exists_isFirst {g : Grouping} (hg : g ∈ groupings) (hq : e.Qualifies g) :
    ∃ i g, e.IsFirst groupings i g := by
  let test : Grouping → Bool := fun g => decide (e.Qualifies g)
  cases hfind : groupings.zipIdx.find? fun x => test x.1 with
  | none => exact absurd hq (of_decide_eq_false (find?_zipIdx_eq_none.mp hfind g hg))
  | some x =>
    obtain ⟨g, i⟩ := x
    obtain ⟨hhere, hq, hbefore⟩ := find?_zipIdx_eq_some.mp hfind
    exact ⟨i, g, hhere, of_decide_eq_true hq, fun j hj g' hg' =>
      of_decide_eq_false (hbefore j hj g' hg')⟩

/-- There is but one. -/
theorem IsFirst.unique {i j : Nat} {g g' : Grouping} (h : e.IsFirst groupings i g)
    (h' : e.IsFirst groupings j g') : i = j ∧ g = g' := by
  have hij : i = j := by
    rcases Nat.lt_trichotomy i j with hlt | heq | hlt
    · exact absurd h.qualifies (h'.before i hlt g h.here)
    · exact heq
    · exact absurd h'.qualifies (h.before j hlt g' h'.here)
  subst hij
  exact ⟨rfl, Option.some.inj (h.here.symm.trans h'.here)⟩

theorem IsFirst.mem {i : Nat} {g : Grouping} (h : e.IsFirst groupings i g) : g ∈ groupings :=
  List.mem_of_getElem? h.here

/-- **One thing at most is settled for an entity.** -/
theorem IsSettled.unique {made made' : Decision} (h : e.IsSettled groupings p made)
    (h' : e.IsSettled groupings p made') : made = made' := by
  cases h with
  | alone hkind hnone =>
    cases h' with
    | alone => rfl
    | withinParent _ hfirst | besideParent _ hfirst =>
      exact absurd hfirst.qualifies (hnone _ hfirst.mem)
    | weak hweak => exact nomatch hkind.symm.trans hweak
  | withinParent hkind hfirst hholds =>
    cases h' with
    | alone _ hnone => exact absurd hfirst.qualifies (hnone _ hfirst.mem)
    | withinParent _ hfirst' => rw [(hfirst.unique hfirst').1]
    | besideParent _ hfirst' hnot => exact absurd ((hfirst.unique hfirst').2 ▸ hholds) hnot
    | weak hweak => exact nomatch hkind.symm.trans hweak
  | besideParent hkind hfirst hnot =>
    cases h' with
    | alone _ hnone => exact absurd hfirst.qualifies (hnone _ hfirst.mem)
    | withinParent _ hfirst' hholds => exact absurd hholds ((hfirst.unique hfirst').2 ▸ hnot)
    | besideParent _ hfirst' => rw [(hfirst.unique hfirst').1]
    | weak hweak => exact nomatch hkind.symm.trans hweak
  | weak hweak hfirst halone =>
    cases h' with
    | alone hkind | withinParent hkind | besideParent hkind => exact nomatch hkind.symm.trans hweak
    | weak _ hfirst' halone' =>
      obtain ⟨rfl, rfl⟩ := hfirst.unique hfirst'
      rw [Bool.eq_iff_iff.mpr (halone.trans halone'.symm)]

end EntityDecl

/-- **The groupings that settle a layout.**  Weak entities, subclasses and their parents have
attributes, a grouping qualifies for every weak entity, and the first one for a subclass names no
relationship. -/
structure SchemaDecl.IsClassifiable (schema : SchemaDecl) (groupings : List Grouping) : Prop where
  attributes : ∀ e ∈ schema.entities, e.kind ≠ .regular → e.attributes ≠ []
  parents : ∀ e ∈ schema.entities, ∀ p ∈ schema.entities, e.parentPath = some p.path →
    p.attributes ≠ []
  weak : ∀ e ∈ schema.entities, e.kind = .weak → ∃ g ∈ groupings, e.Qualifies g
  subclass : ∀ e ∈ schema.entities, e.kind = .subclass → ∀ i g, e.IsFirst groupings i g →
    ¬schema.RelatesIn g

namespace SchemaDecl.IsWellFormed

variable {schema : SchemaDecl} {groupings : List Grouping} {e p : EntityDecl} {o : Option Decision}
  (h : schema.IsWellFormed)

/-- Nothing is decided for a regular entity. -/
theorem decision_regular (hkind : e.kind = .regular) :
    schema.diagram.decision groupings e.node = .ok none := by
  rw [Diagram.decision, EntityDecl.kind_node, hkind]

include h

section

variable (he : e ∈ schema.entities) (hp : p ∈ schema.entities)
  (hparent : e.parentPath = some p.path)

include he hp hparent

/-- **The decision for a subclass.** -/
theorem decision_subclass (hkind : e.kind = .subclass) :
    schema.diagram.decision groupings e.node = .ok o ↔ e.attributes ≠ [] ∧ p.attributes ≠ [] ∧
      ((∀ g ∈ groupings, ¬e.Qualifies g) ∧ o = some (.subclass .alone none) ∨
        ∃ i g, e.IsFirst groupings i g ∧
          schema.diagram.namesRelationship g.names = .ok false ∧
          o = some (.subclass (p.placementIn g) (some i))) := by
  simp only [Diagram.decision, EntityDecl.kind_node, hkind, LayoutError.ofDiagram,
    bind_eq_ok, mapError_eq_ok, h.evidence_eq_ok he hp hparent]
  constructor
  · rintro ⟨found, ⟨hne, hpne, hfound⟩, placement, hplacement, ho⟩
    obtain rfl := pure_eq_ok.mp ho
    refine ⟨hne, hpne, ?_⟩
    rcases hfound with ⟨hnone, rfl⟩ | ⟨i, g, holds, hfirst, hholds, rfl⟩
    · obtain rfl := Except.ok.inj hplacement
      exact .inl ⟨hnone, rfl⟩
    · refine .inr ⟨i, g, hfirst, ?_⟩
      cases holds with
      | true => simp [placementBy] at hplacement
      | false =>
        obtain rfl := Except.ok.inj hplacement
        exact ⟨hholds, by simp [EntityDecl.placementIn]⟩
  · rintro ⟨hne, hpne, ⟨hnone, rfl⟩ | ⟨i, g, hfirst, hholds, rfl⟩⟩
    · exact ⟨none, ⟨hne, hpne, .inl ⟨hnone, rfl⟩⟩, .alone, rfl, rfl⟩
    · refine ⟨_, ⟨hne, hpne, .inr ⟨i, g, false, hfirst, hholds, rfl⟩⟩, p.placementIn g, ?_, rfl⟩
      simp [placementBy, EntityDecl.placementIn]

/-- **The decision for a weak entity.** -/
theorem decision_weak (hkind : e.kind = .weak) :
    schema.diagram.decision groupings e.node = .ok o ↔ e.attributes ≠ [] ∧ p.attributes ≠ [] ∧
      ∃ i g holds, e.IsFirst groupings i g ∧
        schema.diagram.namesRelationship g.names = .ok holds ∧
        o = some (.weak (!decide (p.HasAttributeIn g)) i) := by
  simp only [Diagram.decision, EntityDecl.kind_node, hkind, LayoutError.ofDiagram,
    bind_eq_ok, mapError_eq_ok, h.evidence_eq_ok he hp hparent]
  constructor
  · rintro ⟨found, ⟨hne, hpne, hfound⟩, ho⟩
    refine ⟨hne, hpne, ?_⟩
    rcases hfound with ⟨-, rfl⟩ | ⟨i, g, holds, hfirst, hholds, rfl⟩
    · exact absurd ho throw_ne_ok
    · exact ⟨i, g, holds, hfirst, hholds, (pure_eq_ok.mp ho).symm⟩
  · rintro ⟨hne, hpne, i, g, holds, hfirst, hholds, rfl⟩
    exact ⟨_, ⟨hne, hpne, .inr ⟨i, g, holds, hfirst, hholds, rfl⟩⟩, rfl⟩

end

/-- **What is decided for an entity is what the groupings settle for it.** -/
theorem eq_some_iff_isSettled (he : e ∈ schema.entities) (hp : p ∈ schema.entities)
    (hparent : e.parentPath = some p.path)
    (hdecision : schema.diagram.decision groupings e.node = .ok o) (made : Decision) :
    o = some made ↔ e.IsSettled groupings p made := by
  have hsettled : ∃ made, o = some made ∧ e.IsSettled groupings p made := by
    cases hkind : e.kind with
    | regular => exact absurd hkind (EntityDecl.kind_ne_regular hparent)
    | weak =>
      obtain ⟨-, -, i, g, holds, hfirst, -, rfl⟩ :=
        (h.decision_weak he hp hparent hkind).mp hdecision
      exact ⟨_, rfl, .weak hkind hfirst (by simp)⟩
    | subclass =>
      obtain ⟨-, -, ⟨hnone, rfl⟩ | ⟨i, g, hfirst, -, rfl⟩⟩ :=
        (h.decision_subclass he hp hparent hkind).mp hdecision
      · exact ⟨_, rfl, .alone hkind hnone⟩
      · exact ⟨_, rfl, .placed hkind hfirst⟩
  obtain ⟨made', rfl, hmade'⟩ := hsettled
  exact ⟨fun heq => Option.some.inj heq ▸ hmade', fun hmade => congrArg some (hmade'.unique hmade)⟩

/-- Groupings that settle a layout are among those that can. -/
theorem isClassifiable {layout : Layout}
    (hlayout : schema.diagram.classify groupings = .ok layout) :
    schema.IsClassifiable groupings := by
  have hdecision : ∀ e ∈ schema.entities,
      schema.diagram.decision groupings e.node = .ok (layout.get? e.path) := fun e he =>
    Diagram.classify_entity hlayout h.isIndexed (entity_mem_nodes he)
  have hparent : ∀ e ∈ schema.entities, e.kind ≠ .regular →
      ∃ p ∈ schema.entities, e.parentPath = some p.path := fun e he hkind =>
    h.exists_parent_of_kind he hkind
  refine ⟨fun e he hkind => ?_, fun e he p hp hpath => ?_, fun e he hkind => ?_,
    fun e he hkind i g hfirst => ?_⟩
  · obtain ⟨p, hp, hpath⟩ := hparent e he hkind
    exact (h.attributes_ne_nil hlayout he hp hpath).1
  · exact (h.attributes_ne_nil hlayout he hp hpath).2
  · obtain ⟨p, hp, hpath⟩ := hparent e he (by rw [hkind]; decide)
    obtain ⟨-, -, i, g, -, hfirst, -⟩ := (h.decision_weak he hp hpath hkind).mp (hdecision e he)
    exact ⟨g, hfirst.mem, hfirst.qualifies⟩
  · obtain ⟨p, hp, hpath⟩ := hparent e he (by rw [hkind]; decide)
    obtain ⟨-, -, ⟨hnone, -⟩ | ⟨j, g', hfirst', hholds, -⟩⟩ :=
      (h.decision_subclass he hp hpath hkind).mp (hdecision e he)
    · exact absurd hfirst.qualifies (hnone g hfirst.mem)
    · obtain ⟨rfl, rfl⟩ := hfirst.unique hfirst'
      exact fun hrelates => nomatch (h.namesRelationship_iff hholds).mpr hrelates

/-- Groupings that can settle a layout decide on every entity. -/
theorem exists_decision_of_isClassifiable (hclass : schema.IsClassifiable groupings)
    (hknown : ∀ g ∈ groupings, ∀ name ∈ g.names, schema.diagram.contains name = true)
    (he : e ∈ schema.entities) : ∃ o, schema.diagram.decision groupings e.node = .ok o := by
  by_cases hkind : e.kind = .regular
  · exact ⟨none, decision_regular hkind⟩
  obtain ⟨p, hp, hparent⟩ := h.exists_parent_of_kind he hkind
  have hne := hclass.attributes e he hkind
  have hpne := hclass.parents e he p hp hparent
  cases hkind' : e.kind with
  | regular => exact absurd hkind' hkind
  | weak =>
    obtain ⟨g, hg, hq⟩ := hclass.weak e he hkind'
    obtain ⟨i, g, hfirst⟩ := EntityDecl.exists_isFirst hg hq
    obtain ⟨holds, hholds⟩ := Diagram.exists_namesRelationship (hknown g hfirst.mem)
    exact ⟨_, (h.decision_weak he hp hparent hkind').mpr
      ⟨hne, hpne, i, g, holds, hfirst, hholds, rfl⟩⟩
  | subclass =>
    by_cases hany : ∃ g ∈ groupings, e.Qualifies g
    · obtain ⟨g, hg, hq⟩ := hany
      obtain ⟨i, g, hfirst⟩ := EntityDecl.exists_isFirst hg hq
      obtain ⟨holds, hholds⟩ := Diagram.exists_namesRelationship (hknown g hfirst.mem)
      have hfalse : holds = false := Bool.eq_false_iff.mpr fun htrue =>
        hclass.subclass e he hkind' i g hfirst ((h.namesRelationship_iff hholds).mp htrue)
      exact ⟨_, (h.decision_subclass he hp hparent hkind').mpr
        ⟨hne, hpne, .inr ⟨i, g, hfirst, hfalse ▸ hholds, rfl⟩⟩⟩
    · exact ⟨_, (h.decision_subclass he hp hparent hkind').mpr
        ⟨hne, hpne, .inl ⟨fun g hg hq => hany ⟨g, hg, hq⟩, rfl⟩⟩⟩

end SchemaDecl.IsWellFormed

/-! ## 5. The layout -/

namespace Diagram

variable {d : Diagram} {groupings : List Grouping} {layout : Layout}

/-- A layout is settled if there is a decision for every entity. -/
theorem exists_classify (h : ∀ e ∈ d.entities, ∃ o, d.decision groupings e = .ok o) :
    ∃ layout, d.classify groupings = .ok layout := by
  cases hresult : d.classify groupings with
  | ok layout => exact ⟨layout, rfl⟩
  | error fault =>
    obtain ⟨e, he, hfault⟩ := classifyEach_eq_error hresult
    obtain ⟨o, ho⟩ := h e he
    exact nomatch hfault.symm.trans ho

/-- **The layout has the weak entities and subclasses**, in their order. -/
theorem classify_names_eq (h : d.classify groupings = .ok layout) (hd : d.IsIndexed) :
    layout.names = (d.entities.filter (·.kind ≠ .regular)).map EntityNode.path := by
  have hnew : ((Register.empty : Layout).names ++ d.entities.map EntityNode.path).Nodup :=
    hd.nodup.sublist (entities_sublist d.nodes)
  refine (classifyEach_eq_ok.mp h).names_eq _ (fun {_ e o} ho => ?_) hnew
  by_cases hkind : e.kind = .regular
  · rw [decision, hkind] at ho
    obtain rfl := Except.ok.inj ho
    simp [hkind]
  · obtain ⟨made, rfl⟩ := exists_decision ho hkind
    simp [hkind]

end Diagram

theorem SchemaDecl.entities_diagram (schema : SchemaDecl) :
    schema.diagram.entities = schema.entities.map EntityDecl.node := by
  have hattributes : ∀ as : List AttributeNode, (as.map Node.attr).filterMap Node.entity? = [] :=
    fun as => by simp [Node.entity?]
  have hentity : ∀ e : EntityDecl, e.nodes.filterMap Node.entity? = [e.node] := fun e => by
    rw [EntityDecl.nodes, List.filterMap_cons, hattributes]
    rfl
  have hrelationship : ∀ r : RelationshipDecl, r.nodes.filterMap Node.entity? = [] := fun r => by
    rw [RelationshipDecl.nodes, List.filterMap_cons, hattributes]
    rfl
  simp only [Diagram.entities, diagram, List.filterMap_append, List.filterMap_flatMap, hentity,
    hrelationship]
  simp [List.map_eq_flatMap]

/-- **When groupings of known names settle a layout, and which.**  There is a decision for every
weak entity and subclass, in the order of the declarations, and for no other entity. -/
theorem Diagram.classify_exact {schema : SchemaDecl} {d : Diagram} {groupings : List Grouping}
    (h : ofDecl schema = .ok d) (hknown : ∀ g ∈ groupings, ∀ name ∈ g.names,
      d.contains name = true) :
    ((∃ layout, d.classify groupings = .ok layout) ↔ schema.IsClassifiable groupings) ∧
      ∀ layout, d.classify groupings = .ok layout →
        layout.names = (schema.entities.filter (·.kind ≠ .regular)).map EntityDecl.path ∧
          ∀ e ∈ schema.entities, e.kind ≠ .regular →
            ∃ p ∈ schema.entities, e.parentPath = some p.path ∧
              ∀ made, layout.get? e.path = some made ↔ e.IsSettled groupings p made := by
  obtain ⟨hw, rfl⟩ := ofDecl_eq_ok.mp h
  refine ⟨⟨fun ⟨layout, hlayout⟩ => hw.isClassifiable hlayout, fun hclass => ?_⟩,
    fun layout hlayout => ⟨?_, fun e he hkind => ?_⟩⟩
  · refine exists_classify fun n hn => ?_
    rw [schema.entities_diagram] at hn
    obtain ⟨e, he, rfl⟩ := List.mem_map.mp hn
    exact hw.exists_decision_of_isClassifiable hclass hknown he
  · rw [classify_names_eq hlayout hw.isIndexed, schema.entities_diagram, List.filter_map,
      List.map_map]
    rfl
  · obtain ⟨p, hp, hparent⟩ := hw.exists_parent_of_kind he hkind
    exact ⟨p, hp, hparent, hw.eq_some_iff_isSettled he hp hparent
      (classify_entity hlayout hw.isIndexed (SchemaDecl.entity_mem_nodes he))⟩

/-- A member of a club, with a name of two parts. -/
def EntityDecl.member : EntityDecl :=
  ⟨"Member", .regular, none, [⟨"member_id", .integer, true, false, false, []⟩,
    ⟨"Name", .composite, false, false, false, [⟨"first", .varchar, false, false, false, []⟩,
      ⟨"last", .varchar, false, false, false, []⟩]⟩]⟩

/-- A junior is a member with a year of birth. -/
def EntityDecl.junior : EntityDecl :=
  ⟨"Junior", .subclass, some "MEMBER", [⟨"year", .integer, false, false, false, []⟩]⟩

/-- Members of clubs: trainers, juniors and guests, who write notes and know each other. -/
def SchemaDecl.clubs : SchemaDecl where
  entities := [.member,
    ⟨"Trainer", .subclass, some "Member", [⟨"sport", .varchar, false, false, false, []⟩]⟩,
    .junior,
    ⟨"Note", .weak, some "Member", [⟨"text", .varchar, false, true, false, []⟩]⟩,
    ⟨"Guest", .subclass, some "Junior", [⟨"host", .varchar, false, false, false, []⟩]⟩]
  relationships := [⟨"Knows", ⟨"Member", some "one"⟩, ⟨"Member", some "other"⟩, []⟩]

/-- Notes are stored with who knows whom, juniors first without names and then with first names. -/
def Grouping.ofClubs : List Grouping := [
  .ofNames ["Knows", "Member", "Member", "Note", "Note.text"],
  .ofNames ["Member", "Junior", "Junior.year"],
  .ofNames ["Member", "Member.Name.first", "Junior", "Junior.year", "Trainer", "Trainer.sport"],
  .ofNames ["Guest", "Guest.host"]]

/-- Clubs have a layout, and their groupings name what is there. -/
theorem Diagram.exists_layout_clubs : ∃ d layout, ofDecl .clubs = .ok d ∧
    (∀ g ∈ Grouping.ofClubs, ∀ name ∈ g.names, d.contains name = true) ∧
    d.classify Grouping.ofClubs = .ok layout := by
  have heval : (ofDecl .clubs).toOption.any (fun d => (d.classify Grouping.ofClubs).isOk &&
      decide (∀ g ∈ Grouping.ofClubs, ∀ name ∈ g.names, d.contains name = true)) = true := by
    decide +kernel
  obtain ⟨d, hd, heval⟩ := exists_of_any heval
  obtain ⟨hok, hknown⟩ := Bool.and_eq_true_iff.mp heval
  obtain ⟨layout, hlayout⟩ := exists_of_isOk hok
  exact ⟨d, layout, hd, of_decide_eq_true hknown, hlayout⟩

/-- The layout of clubs: notes may be stored with a relationship, guests stand alone. -/
theorem Diagram.classify_exact_clubs : ∃ d layout, ofDecl .clubs = .ok d ∧
    (∀ g ∈ Grouping.ofClubs, ∀ name ∈ g.names, d.contains name = true) ∧
    d.classify Grouping.ofClubs = .ok layout ∧ SchemaDecl.clubs.IsClassifiable Grouping.ofClubs ∧
    layout.names = ["trainer", "junior", "note", "guest"] ∧
    layout.get? (Text.lower "Guest") = some (.subclass .alone none) := by
  obtain ⟨d, layout, hd, hknown, hlayout⟩ := exists_layout_clubs
  obtain ⟨hiff, hall⟩ := classify_exact hd hknown
  obtain ⟨hnames, hsettled⟩ := hall layout hlayout
  obtain ⟨p, -, -, hguest⟩ := hsettled
    ⟨"Guest", .subclass, some "Junior", [⟨"host", .varchar, false, false, false, []⟩]⟩
    (by simp [SchemaDecl.clubs]) (by decide)
  refine ⟨d, layout, hd, hknown, hlayout, hiff.mp ⟨layout, hlayout⟩, ?_,
    (hguest _).mpr (.alone rfl (by decide +kernel))⟩
  rw [hnames]
  decide +kernel

end EntityLayout
