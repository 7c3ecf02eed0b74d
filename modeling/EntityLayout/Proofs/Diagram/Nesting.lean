/-
# Attributes inside of attributes

A part names the attribute around it, so an attribute lies in one chain of attributes only, each
of a longer path than the one around it.

* `Diagram.Surrounds`, `Diagram.Encloses`: an attribute and its parts, and the parts of these.
* `IsWellFormed.mapM_children`: the parts that an attribute lists are those that name it.
* `IsWellFormed.apart`: **what lies in one part of an attribute lies in no other.**
-/
import EntityLayout.Proofs.Diagram.Consistency
import Mathlib.Logic.Relation

namespace EntityLayout

open Relation (ReflTransGen TransGen)

namespace Diagram

/-- One attribute is a part of the other: it names it as the attribute around it. -/
structure Surrounds (d : Diagram) (a b : AttributeNode) : Prop where
  whole : .attr a ∈ d.nodes
  part : .attr b ∈ d.nodes
  around : b.parent = some a.path

/-- One attribute lies in the other: it is a part of it, or of one of its parts, and so on. -/
def Encloses (d : Diagram) : AttributeNode → AttributeNode → Prop := TransGen d.Surrounds

/-- An attribute with all that lies in it. -/
def Spans (d : Diagram) : AttributeNode → AttributeNode → Prop := ReflTransGen d.Surrounds

/-- The parts of an attribute in order. -/
def partsOf (d : Diagram) (a : AttributeNode) : List AttributeNode :=
  d.attributes.filter (·.parent = some a.path)

variable {d : Diagram} {a b c : AttributeNode}

theorem mem_partsOf : b ∈ d.partsOf a ↔ .attr b ∈ d.nodes ∧ b.parent = some a.path := by
  rw [partsOf, List.mem_filter, mem_attributes, decide_eq_true_eq]

theorem surrounds_of_mem_partsOf (ha : .attr a ∈ d.nodes) (hb : b ∈ d.partsOf a) :
    d.Surrounds a b := by
  obtain ⟨hmem, haround⟩ := mem_partsOf.mp hb
  exact ⟨ha, hmem, haround⟩

theorem spans_iff : d.Spans a b ↔ b = a ∨ d.Encloses a b := Relation.reflTransGen_iff_eq_or_transGen

/-- An attribute is a part of one attribute only. -/
theorem IsIndexed.surrounds_unique (hd : d.IsIndexed) (ha : d.Surrounds a c)
    (hb : d.Surrounds b c) : a = b :=
  Node.attr.inj (hd.eq_of_path ha.whole hb.whole
    (Option.some.inj (ha.around.symm.trans hb.around)))

/-- Of two attributes around the same one, one lies in the other. -/
theorem IsIndexed.spans_total (hd : d.IsIndexed) (ha : d.Spans a c) (hb : d.Spans b c) :
    d.Spans a b ∨ d.Spans b a := by
  have hunique : Relator.RightUnique (Function.swap d.Surrounds) :=
    fun _ _ _ h h' => hd.surrounds_unique h h'
  rw [Spans, ← Relation.reflTransGen_swap] at ha hb
  have htotal := ReflTransGen.total_of_right_unique hunique ha hb
  exact htotal.symm.imp Relation.reflTransGen_swap.mp Relation.reflTransGen_swap.mp

end Diagram

namespace SchemaDecl.IsWellFormed

variable {schema : SchemaDecl} (h : schema.IsWellFormed) {a b c p q : AttributeNode}

include h

/-- **The parts that an attribute lists are those that name it.** -/
theorem mapM_children (ha : .attr a ∈ schema.diagram.nodes) :
    a.children.mapM schema.diagram.attributeAt = .ok (schema.diagram.partsOf a) := by
  rw [h.children_eq (Diagram.mem_attributes.mpr ha), ← Diagram.partsOf, mapM_eq_ok,
    List.forall₂_map_left_iff, List.forall₂_same]
  intro b hb
  obtain ⟨hmem, -⟩ := Diagram.mem_partsOf.mp hb
  exact h.isIndexed.attributeAt_eq_ok.mpr ⟨hmem, (h.isIndexed.lower_path hmem).symm⟩

theorem nodup_partsOf (a : AttributeNode) : (schema.diagram.partsOf a).Nodup :=
  (Diagram.nodup_attributes h.isIndexed).filter _

omit h in
/-- A part has a longer path than the attribute around it. -/
theorem length_lt_of_surrounds (hab : schema.diagram.Surrounds a b) :
    a.path.length < b.path.length := by
  obtain ⟨above, parent, x, hx, hbx⟩ := exists_declaresAt hab.part
  have haround := hab.around
  rw [hbx] at haround ⊢
  cases hx with
  | own _ _ => exact nomatch haround
  | @part above _ parent z _ hz hx =>
    have hpath : z.pathBelow above = a.path := Option.some.inj haround
    rw [← hpath]
    exact (hz.part hx).length_lt

omit h in
theorem length_lt_of_encloses (hab : schema.diagram.Encloses a b) :
    a.path.length < b.path.length := by
  induction hab with
  | single hab => exact length_lt_of_surrounds hab
  | tail _ hbc ih => exact Nat.lt_trans ih (length_lt_of_surrounds hbc)

omit h in
theorem length_le_of_spans (hab : schema.diagram.Spans a b) : a.path.length ≤ b.path.length := by
  rcases Diagram.spans_iff.mp hab with rfl | hab
  · exact Nat.le_refl _
  · exact Nat.le_of_lt (length_lt_of_encloses hab)

/-- One part of an attribute does not lie in another. -/
theorem eq_of_spans (hp : schema.diagram.Surrounds a p) (hq : schema.diagram.Surrounds a q)
    (hpq : schema.diagram.Spans p q) : p = q := by
  rcases ReflTransGen.cases_tail hpq with rfl | ⟨m, hpm, hmq⟩
  · rfl
  · -- what is around `q` is `a`, which would have to lie in its own part
    obtain rfl := h.isIndexed.surrounds_unique hmq hq
    exact absurd (length_lt_of_surrounds hp) (Nat.not_lt.mpr (length_le_of_spans hpm))

/-- **What lies in one part of an attribute lies in no other.** -/
theorem apart (hp : schema.diagram.Surrounds a p) (hq : schema.diagram.Surrounds a q)
    (hpc : schema.diagram.Spans p c) (hqc : schema.diagram.Spans q c) : p = q := by
  rcases h.isIndexed.spans_total hpc hqc with hpq | hqp
  · exact h.eq_of_spans hp hq hpq
  · exact (h.eq_of_spans hq hp hqp).symm

end SchemaDecl.IsWellFormed

end EntityLayout
