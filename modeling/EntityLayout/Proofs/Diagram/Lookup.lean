/-
# Looking up nodes

In a diagram whose paths are in small letters and pairwise distinct, a look-up finds exactly
the node of that path.

* `Diagram.IsIndexed`: such diagrams.
* `IsIndexed.find?_eq_some`, `IsIndexed.entityAt_eq_ok` and the like: what look-ups find.
-/
import EntityLayout.Diagram.Basic
import EntityLayout.Proofs.Outcome
import EntityLayout.Proofs.Text.Lower
import Mathlib.Data.List.Nodup

namespace EntityLayout

/-- Whether a node is an entity or relationship, which own tables and have a structure. -/
def Node.isOwner : Node → Bool
  | .attr _ => false
  | _ => true

theorem Node.attr?_eq_some {n : Node} {a : AttributeNode} : n.attr? = some a ↔ n = .attr a := by
  cases n <;> simp [attr?]

theorem Node.relationship?_eq_some {n : Node} {r : RelationshipNode} :
    n.relationship? = some r ↔ n = .relationship r := by
  cases n <;> simp [relationship?]

/-- The attributes among some nodes. -/
theorem Node.mem_filterMap_attr? {ns : List Node} {a : AttributeNode} :
    a ∈ ns.filterMap Node.attr? ↔ .attr a ∈ ns := by
  simp [List.mem_filterMap, attr?_eq_some]

/-- The entities among some nodes. -/
theorem Node.mem_filterMap_entity? {ns : List Node} {e : EntityNode} :
    e ∈ ns.filterMap Node.entity? ↔ .entity e ∈ ns := by
  rw [List.mem_filterMap]
  constructor
  · rintro ⟨n, hn, hne⟩
    cases n with
    | entity e' => exact Option.some.inj hne ▸ hn
    | relationship r => exact nomatch hne
    | attr a => exact nomatch hne
  · exact fun h => ⟨_, h, rfl⟩

namespace Diagram

/-- The paths of all nodes, in order. -/
def paths (d : Diagram) : List String := d.nodes.map Node.path

/-- Paths are in small letters and no path is taken twice. -/
structure IsIndexed (d : Diagram) : Prop where
  nodup : d.paths.Nodup
  lowered : ∀ p ∈ d.paths, Text.lower p = p

variable {d : Diagram} {path : String}

theorem mem_paths : path ∈ d.paths ↔ ∃ n ∈ d.nodes, n.path = path := List.mem_map

theorem path_mem_paths {n : Node} (h : n ∈ d.nodes) : n.path ∈ d.paths := List.mem_map_of_mem h

theorem find?_eq_some_of_nodup {key : String} {n : Node} : ∀ {ns : List Node},
    (ns.map Node.path).Nodup →
      (ns.find? (fun n => n.path = key) = some n ↔ n ∈ ns ∧ n.path = key)
  | [], _ => by simp
  | m :: ns, h => by
    obtain ⟨hm, h⟩ := List.nodup_cons.mp h
    by_cases hk : m.path = key
    · rw [List.find?_cons_of_pos (by simpa using hk), Option.some.injEq, List.mem_cons]
      refine ⟨fun e => e ▸ ⟨.inl rfl, hk⟩, ?_⟩
      rintro ⟨rfl | hn, hp⟩
      · rfl
      · exact absurd (List.mem_map.mpr ⟨n, hn, hp.trans hk.symm⟩) hm
    · rw [List.find?_cons_of_neg (by simpa using hk), find?_eq_some_of_nodup h, List.mem_cons]
      refine ⟨fun ⟨hn, hp⟩ => ⟨.inr hn, hp⟩, ?_⟩
      rintro ⟨rfl | hn, hp⟩
      · exact absurd hp hk
      · exact ⟨hn, hp⟩

theorem find?_eq_none : d.find? path = none ↔ Text.lower path ∉ d.paths := by
  simp [find?, mem_paths]

theorem nodeAt_eq_ok {n : Node} : d.nodeAt path = .ok n ↔ d.find? path = some n := by
  unfold nodeAt
  split
  · next h => simp [h]
  · next h => simp [h]

namespace IsIndexed

variable (h : d.IsIndexed)

include h

/-- **A look-up finds the node of the path.** -/
theorem find?_eq_some {n : Node} :
    d.find? path = some n ↔ n ∈ d.nodes ∧ n.path = Text.lower path :=
  find?_eq_some_of_nodup h.nodup

theorem nodeAt_eq_ok {n : Node} :
    d.nodeAt path = .ok n ↔ n ∈ d.nodes ∧ n.path = Text.lower path := by
  rw [Diagram.nodeAt_eq_ok, h.find?_eq_some]

/-- No two nodes share a path. -/
theorem eq_of_path {m n : Node} (hm : m ∈ d.nodes) (hn : n ∈ d.nodes) (hp : m.path = n.path) :
    m = n :=
  List.inj_on_of_nodup_map h.nodup hm hn hp

theorem lower_path {n : Node} (hn : n ∈ d.nodes) : Text.lower n.path = n.path :=
  h.lowered _ (path_mem_paths hn)

/-- Nodes of one kind are looked up among all. -/
theorem nodeAt_bind_eq_ok {α : Type} (wrap : α → Node) {f : Node → Except DiagramError α}
    (hf : ∀ n a, f n = .ok a ↔ n = wrap a) {a : α} :
    (d.nodeAt path >>= f) = .ok a ↔ wrap a ∈ d.nodes ∧ (wrap a).path = Text.lower path := by
  rw [bind_eq_ok]
  constructor
  · rintro ⟨n, hn, hk⟩
    obtain rfl := (hf n a).mp hk
    exact h.nodeAt_eq_ok.mp hn
  · exact fun hn => ⟨_, h.nodeAt_eq_ok.mpr hn, (hf _ a).mpr rfl⟩

theorem entityAt_eq_ok {e : EntityNode} :
    d.entityAt path = .ok e ↔ .entity e ∈ d.nodes ∧ e.path = Text.lower path := by
  refine h.nodeAt_bind_eq_ok Node.entity fun n e => ?_
  cases n <;> simp [pure_eq_ok, throw_ne_ok]

theorem relationshipAt_eq_ok {r : RelationshipNode} :
    d.relationshipAt path = .ok r ↔ .relationship r ∈ d.nodes ∧ r.path = Text.lower path := by
  refine h.nodeAt_bind_eq_ok Node.relationship fun n r => ?_
  cases n <;> simp [pure_eq_ok, throw_ne_ok]

theorem attributeAt_eq_ok {a : AttributeNode} :
    d.attributeAt path = .ok a ↔ .attr a ∈ d.nodes ∧ a.path = Text.lower path := by
  refine h.nodeAt_bind_eq_ok Node.attr fun n a => ?_
  cases n <;> simp [pure_eq_ok, throw_ne_ok]

/-- The ends of a relationship are at the paths that it names. -/
theorem paths_of_endpoints {r : RelationshipNode} (hr : .relationship r ∈ d.nodes)
    {e₁ e₂ : EntityNode} (hends : d.endpoints r.path = .ok (e₁, e₂)) :
    e₁.path = r.first ∧ e₂.path = r.second := by
  obtain ⟨r', hr', hends⟩ := bind_eq_ok.mp hends
  have hat : d.relationshipAt r.path = .ok r :=
    h.relationshipAt_eq_ok.mpr ⟨hr, (h.lower_path hr).symm⟩
  obtain rfl := Except.ok.inj (hat.symm.trans hr')
  split at hends
  · split at hends
    · next hpaths =>
      obtain ⟨rfl, rfl⟩ := Prod.mk.inj (pure_eq_ok.mp hends)
      exact hpaths
    · exact absurd hends throw_ne_ok
  · exact absurd hends throw_ne_ok

end IsIndexed

end Diagram

end EntityLayout
