/-
# A saved diagram is loaded as it was

Saving spreads the layout, the ownership and the structures of a compiled diagram over the
records of its nodes; loading collects them again, in the order of the records.

* `CompiledDiagram.IsCoherent`: no reference dangles, and what was derived stands in the order
  of the nodes it was derived for.
* `GraphFile.load_eq_ok`: when a file is loaded, and what it gives.
* `CompiledDiagram.load_toFile`: **loading what was saved gives the diagram back.**
* `CompiledDiagram.ofText_toText`: the same through the text.
-/
import EntityLayout.Proofs.Diagram.Growth
import EntityLayout.Proofs.Document.Compiled
import EntityLayout.Proofs.Register

namespace EntityLayout

/-- The edge with the paths of its ends in small letters. -/
def Edge.lowered (e : Edge) : Edge := ⟨e.kind, Text.lower e.source, Text.lower e.target⟩

@[simp] theorem Edge.lowered_lowered (e : Edge) : e.lowered.lowered = e.lowered := by
  simp [lowered]

theorem Edge.lowered_eq {d : Diagram} (h : d.IsIndexed) {e : Edge}
    (he : e.source ∈ d.paths ∧ e.target ∈ d.paths) : e.lowered = e := by
  rw [lowered, h.lowered _ he.1, h.lowered _ he.2]

/-! ## 1. Coherent diagrams -/

namespace CompiledDiagram

/-- The paths of the entities, in order. -/
def entityPaths (ns : List Node) : List String :=
  ns.filterMap fun n => n.entity?.map EntityNode.path

/-- The paths of the entities and relationships, in order. -/
def ownerPaths (ns : List Node) : List String := (ns.filter Node.isOwner).map Node.path

/-- No reference dangles, and what was derived stands in the order of the nodes. -/
structure IsCoherent (c : CompiledDiagram) : Prop where
  indexed : c.diagram.IsIndexed
  references : ∀ n ∈ c.diagram.nodes, ∀ p ∈ GraphFile.references n, p ∈ c.diagram.paths
  edges : ∀ e ∈ c.diagram.edges, e.source ∈ c.diagram.paths ∧ e.target ∈ c.diagram.paths
  layout : c.layout.names.Sublist (entityPaths c.diagram.nodes)
  ownership : c.ownership.names = ownerPaths c.diagram.nodes
  structures : c.structures.names = ownerPaths c.diagram.nodes

/-! ## 2. Loading nodes -/

/-- What is recorded of the layout with some nodes. -/
def layoutOf (c : CompiledDiagram) (ns : List Node) : List (String × Decision) :=
  (entityPaths ns).filterMap fun p => (c.layout.get? p).map fun made => (p, made)

/-- What is recorded of the ownership with some nodes. -/
def ownershipOf (c : CompiledDiagram) (ns : List Node) : List (String × List String) :=
  (ownerPaths ns).map fun p => (p, c.ownership.tablesOf p)

/-- What is recorded of the structures with some nodes. -/
def structuresOf (c : CompiledDiagram) (ns : List Node) : List (String × List Attribute) :=
  (ownerPaths ns).map fun p => (p, (c.structures.get? p).getD [])

/-- Everything recorded in a register belongs to a node that is there. -/
def IsKnown (c : CompiledDiagram) : Prop :=
  ∀ p, p ∈ c.layout.names ∨ p ∈ c.ownership.names ∨ p ∈ c.structures.names →
    p ∈ c.diagram.paths

/-- From `c₁` to `c₂`, nodes of `c` were taken over with everything recorded for them. -/
structure Loads (c c₁ c₂ : CompiledDiagram) (ns : List Node) : Prop where
  diagram : c₂.diagram = ⟨c₁.diagram.nodes ++ ns, c₁.diagram.edges⟩
  layout : c₂.layout.entries = c₁.layout.entries ++ c.layoutOf ns
  ownership : c₂.ownership.entries = c₁.ownership.entries ++ c.ownershipOf ns
  structures : c₂.structures.entries = c₁.structures.entries ++ c.structuresOf ns

variable {c c₁ c₂ c₃ : CompiledDiagram} {ns ms : List Node}

theorem entityPaths_append : entityPaths (ns ++ ms) = entityPaths ns ++ entityPaths ms :=
  List.filterMap_append

theorem ownerPaths_append : ownerPaths (ns ++ ms) = ownerPaths ns ++ ownerPaths ms := by
  simp [ownerPaths]

theorem Loads.append (h : Loads c c₁ c₂ ns) (h' : Loads c c₂ c₃ ms) :
    Loads c c₁ c₃ (ns ++ ms) where
  diagram := by rw [h'.diagram, h.diagram, List.append_assoc]
  layout := by
    rw [h'.layout, h.layout, layoutOf, layoutOf, layoutOf, entityPaths_append,
      List.filterMap_append, List.append_assoc]
  ownership := by
    rw [h'.ownership, h.ownership, ownershipOf, ownershipOf, ownershipOf, ownerPaths_append,
      List.map_append, List.append_assoc]
  structures := by
    rw [h'.structures, h.structures, structuresOf, structuresOf, structuresOf,
      ownerPaths_append, List.map_append, List.append_assoc]

theorem entityPaths_sublist : ∀ ns : List Node, (entityPaths ns).Sublist (ns.map Node.path)
  | [] => .slnil
  | .entity e :: ns => (entityPaths_sublist ns).cons_cons e.path
  | .relationship r :: ns => (entityPaths_sublist ns).cons r.path
  | .attr a :: ns => (entityPaths_sublist ns).cons a.path

theorem ownerPaths_subset : ∀ p ∈ ownerPaths ns, p ∈ ns.map Node.path := by
  intro p hp
  obtain ⟨n, hn, rfl⟩ := List.mem_map.mp hp
  exact List.mem_map_of_mem (List.mem_of_mem_filter hn)

theorem Loads.isKnown (h : Loads c c₁ c₂ ns) (hknown : c₁.IsKnown) : c₂.IsKnown := by
  have hpaths : c₂.diagram.paths = c₁.diagram.paths ++ ns.map Node.path := by
    rw [h.diagram, Diagram.paths, List.map_append, Diagram.paths]
  intro p hp
  rw [hpaths, List.mem_append]
  simp only [Register.names, h.layout, h.ownership, h.structures, List.map_append,
    List.mem_append] at hp
  rcases hp with (hp | hp) | (hp | hp) | hp | hp
  · exact .inl (hknown p (.inl hp))
  · obtain ⟨e, he, rfl⟩ := List.mem_map.mp hp
    obtain ⟨q, hq, he⟩ := List.mem_filterMap.mp he
    obtain ⟨made, -, rfl⟩ := Option.map_eq_some_iff.mp he
    exact .inr ((entityPaths_sublist ns).subset hq)
  · exact .inl (hknown p (.inr (.inl hp)))
  · exact .inr (ownerPaths_subset p (by simpa [ownershipOf] using hp))
  · exact .inl (hknown p (.inr (.inr hp)))
  · exact .inr (ownerPaths_subset p (by simpa [structuresOf] using hp))

/-- Taking over one node. -/
theorem loadNode_record {n : Node} (hknown : c₁.IsKnown) (hnew : n.path ∉ c₁.diagram.paths) :
    ∃ c₂, GraphFile.loadNode (c.record n) c₁ = .ok c₂ ∧ Loads c c₁ c₂ [n] := by
  have hinsert : c₁.diagram.insertNode n = (⟨c₁.diagram.nodes ++ [n], c₁.diagram.edges⟩, none) :=
    Diagram.insertNode_eq_done.mpr ⟨hnew, rfl⟩
  have hl : n.path ∉ c₁.layout.names := fun h => hnew (hknown _ (.inl h))
  have ho : n.path ∉ c₁.ownership.names := fun h => hnew (hknown _ (.inr (.inl h)))
  have hs : n.path ∉ c₁.structures.names := fun h => hnew (hknown _ (.inr (.inr h)))
  cases n with
  | entity e =>
    refine ⟨_, by rw [GraphFile.loadNode, record, hinsert], rfl, ?_,
      Register.entries_insert ho, Register.entries_insert hs⟩
    cases hd : c.layout.get? e.path with
    | none => simp [layoutOf, entityPaths, Node.entity?, hd]
    | some made =>
      refine (Register.entries_insert hl).trans ?_
      simp [layoutOf, entityPaths, Node.entity?, Node.path, hd]
  | relationship r =>
    exact ⟨_, by rw [GraphFile.loadNode, record, hinsert], rfl,
      by simp [layoutOf, entityPaths, Node.entity?], Register.entries_insert ho,
      Register.entries_insert hs⟩
  | attr a =>
    exact ⟨_, by rw [GraphFile.loadNode, record, hinsert], rfl,
      by simp [layoutOf, entityPaths, Node.entity?],
      by simp [ownershipOf, ownerPaths, Node.isOwner],
      by simp [structuresOf, ownerPaths, Node.isOwner]⟩

/-- Taking over nodes one after another. -/
theorem loadNodes_records : ∀ (ns : List Node) {c₁ : CompiledDiagram}, c₁.IsKnown →
    (c₁.diagram.paths ++ ns.map Node.path).Nodup →
      ∃ c₂, GraphFile.loadNodes (ns.map c.record) c₁ = .ok c₂ ∧ Loads c c₁ c₂ ns
  | [], c₁, _, _ => ⟨c₁, rfl, by simp, by simp [layoutOf, entityPaths],
      by simp [ownershipOf, ownerPaths], by simp [structuresOf, ownerPaths]⟩
  | n :: ns, c₁, hknown, hnew => by
    have hn : n.path ∉ c₁.diagram.paths := fun h =>
      (List.nodup_append.mp hnew).2.2 _ h _ List.mem_cons_self rfl
    obtain ⟨c₂, hload, hfirst⟩ := loadNode_record (c := c) hknown hn
    have hpaths : c₂.diagram.paths = c₁.diagram.paths ++ [n.path] := by
      rw [hfirst.diagram, Diagram.paths, List.map_append]
      rfl
    obtain ⟨c₃, hloads, hrest⟩ := loadNodes_records ns (hfirst.isKnown hknown)
      (by rw [hpaths]; simpa using hnew)
    refine ⟨c₃, ?_, hfirst.append hrest⟩
    rw [List.map_cons, GraphFile.loadNodes, hload, ok_bind, hloads]

end CompiledDiagram

/-! ## 3. References and edges -/

theorem Diagram.contains_iff {d : Diagram} {p : String} :
    d.contains p = true ↔ Text.lower p ∈ d.paths := by
  rw [contains, Option.isSome_iff_ne_none, ne_eq, find?_eq_none, not_not]

theorem Diagram.contains_lower {d : Diagram} {p : String} :
    d.contains (Text.lower p) = d.contains p := by
  rw [contains, find?, Text.lower_lower]
  rfl

theorem Diagram.connect_lowered {d : Diagram} {e : Edge} (hs : d.contains e.source = true)
    (ht : d.contains e.target = true) :
    d.connect e.kind e.source e.target = (⟨d.nodes, d.edges ++ [e.lowered]⟩, none) := by
  have hfound : ∀ {p : String}, d.contains p = true →
      ∃ n, d.nodeAt p = .ok n ∧ n.path = Text.lower p := fun hp => by
    obtain ⟨n, hn⟩ := Option.isSome_iff_exists.mp hp
    exact ⟨n, nodeAt_eq_ok.mpr hn, by simpa using List.find?_some hn⟩
  obtain ⟨s, hs, hsp⟩ := hfound hs
  obtain ⟨t, ht, htp⟩ := hfound ht
  rw [connect, hs, ht]
  simp only [withFound, hsp, htp, Edge.lowered]

namespace GraphFile

/-- **References are checked node by node.** -/
theorem checkReferences_eq_ok {d : Diagram} : ∀ {ns : List Node},
    checkReferences d ns = .ok () ↔ ∀ n ∈ ns, ∀ p ∈ references n, Text.lower p ∈ d.paths
  | [] => by simp [checkReferences]
  | n :: ns => by
    rw [checkReferences, List.forall_mem_cons]
    split
    · next p hp =>
      have hdangling : ¬∀ p ∈ references n, Text.lower p ∈ d.paths := fun hall => by
        have hfound := List.find?_some hp
        rw [Diagram.contains_iff.mpr (hall p (List.mem_of_find?_eq_some hp))] at hfound
        exact nomatch hfound
      simp [hdangling]
    · next hnone =>
      have hall : ∀ p ∈ references n, Text.lower p ∈ d.paths := fun p hp => by
        have hp := List.find?_eq_none.mp hnone p hp
        exact Diagram.contains_iff.mp (by simpa using hp)
      rw [checkReferences_eq_ok, and_iff_right hall]

/-- **Edges are added where both ends are there**, under the paths of the nodes. -/
theorem loadEdges_eq_ok : ∀ {es : List Edge} {d d' : Diagram}, loadEdges es d = .ok d' ↔
    (∀ e ∈ es, d.contains e.source = true ∧ d.contains e.target = true) ∧
      d' = ⟨d.nodes, d.edges ++ es.map Edge.lowered⟩
  | [], d, d' => by
    rw [loadEdges, Except.ok.injEq, List.map_nil, List.append_nil]
    exact ⟨fun h => ⟨fun _ he => absurd he List.not_mem_nil, h.symm⟩, fun h => h.2.symm⟩
  | e :: es, d, d' => by
    rw [loadEdges, List.forall_mem_cons]
    split
    · next p hp =>
      refine ⟨fun h => (nomatch h), fun ⟨⟨hends, _⟩, _⟩ => ?_⟩
      rw [List.find?_eq_none.mpr (by simp [hends])] at hp
      exact nomatch hp
    · next hnone =>
      have hends : d.contains e.source = true ∧ d.contains e.target = true := by
        simpa [List.find?_eq_none] using hnone
      have hsame : ∀ p, Diagram.contains ⟨d.nodes, d.edges ++ [e.lowered]⟩ p = d.contains p :=
        fun _ => rfl
      simp only [Diagram.connect_lowered hends.1 hends.2, loadEdges_eq_ok, hsame, hends, and_self,
        true_and, List.map_cons, List.append_assoc, List.singleton_append]

/-- A file is loaded by taking over its nodes and then its edges. -/
theorem load_eq_ok {f : GraphFile} {c : CompiledDiagram} : f.load = .ok c ↔
    ∃ c₁, loadNodes f.nodes .empty = .ok c₁ ∧
      checkReferences c₁.diagram c₁.diagram.nodes = .ok () ∧
      (∀ e ∈ f.edges, c₁.diagram.contains e.source = true ∧ c₁.diagram.contains e.target = true) ∧
        c = { c₁ with diagram :=
          ⟨c₁.diagram.nodes, c₁.diagram.edges ++ f.edges.map Edge.lowered⟩ } := by
  rw [load]
  constructor
  · intro h
    obtain ⟨c₁, hnodes, h⟩ := bind_eq_ok.mp h
    obtain ⟨⟨⟩, hreferences, h⟩ := bind_eq_ok.mp h
    obtain ⟨d, hedges, h⟩ := bind_eq_ok.mp h
    obtain rfl := pure_eq_ok.mp h
    obtain ⟨hends, rfl⟩ := loadEdges_eq_ok.mp hedges
    exact ⟨c₁, hnodes, hreferences, hends, rfl⟩
  · rintro ⟨c₁, hnodes, hreferences, hends, rfl⟩
    rw [hnodes, ok_bind, hreferences, ok_bind, loadEdges_eq_ok.mpr ⟨hends, rfl⟩]
    rfl

end GraphFile

/-! ## 4. Whole diagrams -/

namespace CompiledDiagram

variable {c : CompiledDiagram}

theorem isKnown_empty : empty.IsKnown := by
  intro p hp
  simp [empty, Register.names, Register.empty] at hp

/-- **Loading what was saved gives the diagram back.** -/
theorem load_toFile (h : c.IsCoherent) : c.toFile.load = .ok c := by
  obtain ⟨c₂, hload, hloads⟩ := loadNodes_records (c := c) c.diagram.nodes isKnown_empty
    (by simpa [empty, Diagram.empty, Diagram.paths] using h.indexed.nodup)
  have hdiagram : c₂.diagram = ⟨c.diagram.nodes, []⟩ := hloads.diagram
  have hlayout : c₂.layout = c.layout := by
    refine Register.ext_entries (hloads.layout.trans ?_)
    exact (Register.entries_eq_filterMap h.layout
      ((entityPaths_sublist _).nodup h.indexed.nodup)).symm
  have hownership : c₂.ownership = c.ownership := by
    refine Register.ext_entries (hloads.ownership.trans ?_)
    rw [c.ownership.entries_eq_map [], h.ownership]
    rfl
  have hstructures : c₂.structures = c.structures := by
    refine Register.ext_entries (hloads.structures.trans ?_)
    rw [c.structures.entries_eq_map [], h.structures]
    rfl
  have hlower : ∀ p ∈ c.diagram.paths, Text.lower p ∈ c.diagram.paths := fun p hp =>
    (h.indexed.lowered p hp).symm ▸ hp
  have hedges : c.toFile.edges.map Edge.lowered = c.diagram.edges :=
    (List.map_congr_left fun e he => Edge.lowered_eq h.indexed (h.edges e he)).trans (List.map_id _)
  refine GraphFile.load_eq_ok.mpr ⟨c₂, hload, ?_, fun e he => ?_, ?_⟩
  · rw [hdiagram]
    exact GraphFile.checkReferences_eq_ok.mpr fun n hn p hp => hlower p (h.references n hn p hp)
  · obtain ⟨hs, ht⟩ := h.edges e he
    rw [hdiagram]
    exact ⟨Diagram.contains_iff.mpr (hlower _ hs), Diagram.contains_iff.mpr (hlower _ ht)⟩
  · rw [hedges, hdiagram, hlayout, hownership, hstructures]
    rfl

/-- A diagram is read back from its text if its file is loaded. -/
theorem ofText_of_load (hfits : c.toFile.Fits) (h : c.toFile.load = .ok c) :
    ofText c.toText = .ok c := by
  have hread : (Json.readText GraphFile.reader c.toText).mapError LoadError.json =
      .ok c.toFile :=
    mapError_eq_ok.mpr (GraphFile.readText_toJson hfits)
  rw [ofText, hread, ok_bind, h]

/-- The format has room for what is recorded with each node. -/
def Fits (c : CompiledDiagram) : Prop := ∀ n ∈ c.diagram.nodes, (c.record n).Fits

/-- **A coherent diagram is read back from its text.** -/
theorem ofText_toText (h : c.IsCoherent) (hfits : c.Fits) : ofText c.toText = .ok c := by
  have hfile : c.toFile.Fits := by
    intro r hr
    obtain ⟨n, hn, rfl⟩ := List.mem_map.mp hr
    exact hfits n hn
  exact ofText_of_load hfile (load_toFile h)

end CompiledDiagram

end EntityLayout
