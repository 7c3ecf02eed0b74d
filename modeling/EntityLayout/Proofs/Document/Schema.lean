/-
# What is read fits what is written

A schema and its groupings are read from texts, and a text bounds what can be read from it:
127 levels of nesting leave room for 62 attributes one inside the other, and a list has no more
items than its text has room for.  So everything that is made of them can be written again.

* `Attribute.height_of_parts`: an attribute takes two levels.
* `Attribute.fit_of_declFromJson`, `Attribute.fit_of_structureFromJson`: declared attributes fit
  into a structure that is written, and so do those of a structure that was read.
* `SchemaDecl.Fits`, `SchemaDecl.fits_of_readText`: so do those of a whole schema.
* `Attribute.Fit.logical`: and the attributes that queries see.
-/
import EntityLayout.Document.Schema
import EntityLayout.Proofs.Diagram.Listing
import EntityLayout.Proofs.Document.Compiled
import EntityLayout.Proofs.Json.Inversion

namespace EntityLayout

variable {n : Nat}

/-! ## 1. Attributes -/

theorem AttributeType.isSpelled_of_reader {t : AttributeType}
    (h : AttributeType.reader.Gives n t) : t.IsSpelled := by
  obtain ⟨s, -, h⟩ := h.bind
  obtain rfl := pure_eq_ok.mp h
  exact isSpelled_ofSpelling s

namespace Attribute

/-- An attribute takes a level for itself and one for the list of its parts. -/
theorem height_of_parts {a : Attribute} (htype : a.type.IsSpelled)
    (hparts : ∀ p ∈ a.parts, ∃ m, n = m + 1 ∧ p.IsSpelled ∧ 2 * p.height ≤ m + 1) :
    a.IsSpelled ∧ 2 * a.height ≤ n + 2 := by
  have hbelow : ∀ p ∈ a.parts, p.IsSpelled ∧ 2 * p.height ≤ n := fun p hp => by
    obtain ⟨m, rfl, h⟩ := hparts p hp
    exact h
  refine ⟨isSpelled_iff.mpr ⟨htype, fun p hp => (hbelow p hp).1⟩, ?_⟩
  have hheight : heightOf a.parts ≤ n / 2 := heightOf_le.mpr fun p hp => by
    have := (hbelow p hp).2
    omega
  rw [height_eq]
  omega

theorem height_of_declReader : ∀ {depth n : Nat} {a : Attribute},
    (declReader depth).Gives n a → a.IsSpelled ∧ 2 * a.height ≤ n + 1
  | 0, _, _, ⟨_, _, _, h⟩ => nomatch h
  | depth + 1, n, a, h => by
    obtain ⟨⟨name, type, primaryKey, discriminator, multivalued, parts, ⟨⟩⟩, hrecord, h⟩ := h.bind
    obtain rfl := pure_eq_ok.mp h
    obtain ⟨m, rfl, -, htype, -, -, -, hparts, -⟩ := hrecord.record
    refine height_of_parts (AttributeType.isSpelled_of_reader htype.read) fun p hp => ?_
    obtain ⟨k, rfl, hp⟩ := hparts.listOr p hp
    exact ⟨k, rfl, height_of_declReader hp⟩

theorem height_of_structureReader : ∀ {depth n : Nat} {a : Attribute},
    (structureReader depth).Gives n a → a.IsSpelled ∧ 2 * a.height ≤ n + 1
  | 0, _, _, ⟨_, _, _, h⟩ => nomatch h
  | depth + 1, n, a, h => by
    obtain ⟨⟨name, type, multivalued, primaryKey, discriminator, parts, ⟨⟩⟩, hrecord, h⟩ := h.bind
    obtain rfl := pure_eq_ok.mp h
    obtain ⟨m, rfl, -, htype, -, -, -, hparts, -⟩ := hrecord.record
    refine height_of_parts (AttributeType.isSpelled_of_reader htype.read) fun p hp => ?_
    obtain ⟨k, rfl, hp⟩ := hparts.listOr p hp
    exact ⟨k, rfl, height_of_structureReader hp⟩

/-- Attributes that stand five levels deep in a text fit into a structure. -/
theorem fit_of_height {as : List Attribute}
    (h : ∀ a ∈ as, ∃ m, 124 = m + 1 ∧ a.IsSpelled ∧ 2 * a.height ≤ m + 1) : Fit as := by
  have hall : ∀ a ∈ as, a.IsSpelled ∧ 2 * a.height ≤ 124 := fun a ha => by
    obtain ⟨m, hm, ha⟩ := h a ha
    rwa [← hm] at ha
  exact ⟨fun a ha => (hall a ha).1, fun a ha => by
    have := (hall a ha).2
    rw [heightLimit]
    omega⟩

/-- **Declared attributes that stand four levels deep in a text fit into a structure.** -/
theorem fit_of_declFromJson {as : List Attribute}
    (h : ∀ a ∈ as, ∃ m, 124 = m + 1 ∧ declFromJson.Gives m a) : Fit as :=
  fit_of_height fun a ha => by
    obtain ⟨m, hm, ha⟩ := h a ha
    exact ⟨m, hm, height_of_declReader ha⟩

/-- **And so does a structure that was read from there.** -/
theorem fit_of_structureFromJson {as : List Attribute}
    (h : structureFromJson.Gives 124 as) : Fit as :=
  fit_of_height fun a ha => by
    obtain ⟨m, hm, ha⟩ := h.list a ha
    exact ⟨m, hm, height_of_structureReader ha⟩

/-- Queries see no more of an attribute than was declared. -/
theorem logical_isSpelled_height : ∀ a : Attribute, a.IsSpelled →
    a.logical.IsSpelled ∧ a.logical.height ≤ a.height := by
  intro a
  induction a using Attribute.induction with
  | step a ih =>
    intro hspelled
    obtain ⟨htype, hparts⟩ := isSpelled_iff.mp hspelled
    have hbelow : ∀ b ∈ a.shownParts, b.logical.IsSpelled ∧ b.logical.height ≤ b.height :=
      fun b hb => ih b (shownParts_subset hb) (hparts b (shownParts_subset hb))
    rw [logical_eq]
    refine ⟨isSpelled_iff.mpr ⟨htype, ?_⟩, ?_⟩
    · intro p hp
      obtain ⟨b, hb, rfl⟩ := List.mem_map.mp hp
      exact (hbelow b hb).1
    · rw [height, height_eq a, Nat.add_le_add_iff_right, heightOf_le]
      intro p hp
      obtain ⟨b, hb, rfl⟩ := List.mem_map.mp hp
      exact Nat.le_trans (hbelow b hb).2 (heightOf_le.mp (Nat.le_refl _) b (shownParts_subset hb))

theorem Fit.logical {as : List Attribute} (h : Fit as) : Fit (as.map Attribute.logical) := by
  have hall : ∀ a ∈ as, a.logical.IsSpelled ∧ a.logical.height ≤ heightLimit := fun a ha =>
    ⟨(logical_isSpelled_height a (h.spelled a ha)).1,
      Nat.le_trans (logical_isSpelled_height a (h.spelled a ha)).2 (h.height a ha)⟩
  exact ⟨List.forall_mem_map.mpr fun a ha => (hall a ha).1,
    List.forall_mem_map.mpr fun a ha => (hall a ha).2⟩

/-- The types of an attribute's nodes are those declared. -/
theorem type_isSpelled_of_mem_nodes {above owner : String} {parent : Option String}
    {n : AttributeNode} : ∀ {a : Attribute}, a.IsSpelled → n ∈ a.nodes above owner parent →
      n.type.IsSpelled := by
  intro a
  induction a using Attribute.induction generalizing above parent with
  | step a ih =>
    intro hspelled hn
    obtain ⟨htype, hparts⟩ := isSpelled_iff.mp hspelled
    rcases mem_nodes_iff.mp hn with rfl | ⟨b, hb, hn⟩
    · exact htype
    · exact ih b (shownParts_subset hb) (hparts b (shownParts_subset hb)) hn

end Attribute

/-! ## 2. Schemas -/

namespace SchemaDecl

/-- Structures have room for all declared attributes. -/
structure Fits (s : SchemaDecl) : Prop where
  entities : ∀ e ∈ s.entities, Attribute.Fit e.attributes
  relationships : ∀ r ∈ s.relationships, Attribute.Fit r.attributes

/-- **A schema that was read from a text fits.** -/
theorem fits_of_readText {text : String} {s : SchemaDecl}
    (h : Json.readText SchemaDecl.reader text = .ok s) : s.Fits := by
  obtain ⟨⟨entities, relationships, ⟨⟩⟩, hrecord, h⟩ := (Json.gives_of_readText h).bind
  obtain rfl := pure_eq_ok.mp h
  obtain ⟨-, ⟨⟩, hentities, hrelationships, -⟩ := hrecord.record
  constructor
  · intro e he
    obtain ⟨-, ⟨⟩, he⟩ := hentities.listOr e he
    obtain ⟨⟨name, kind, parent, attributes, ⟨⟩⟩, hrecord, he⟩ := he.bind
    obtain rfl := pure_eq_ok.mp he
    obtain ⟨-, ⟨⟩, -, -, -, hattributes, -⟩ := hrecord.record
    exact Attribute.fit_of_declFromJson hattributes.read.list
  · intro r hr
    obtain ⟨-, ⟨⟩, hr⟩ := hrelationships.listOr r hr
    obtain ⟨⟨name, first, second, attributes, ⟨⟩⟩, hrecord, hr⟩ := hr.bind
    obtain rfl := pure_eq_ok.mp hr
    obtain ⟨-, ⟨⟩, -, -, -, hattributes, -⟩ := hrecord.record
    exact Attribute.fit_of_declFromJson hattributes.listOr

end SchemaDecl

end EntityLayout
