/-
# Why groupings make no tables

The diagram of a schema answers whatever the synthesis asks it, except for the names that the
groupings give.  So a grouping is refused for itself or for a name of nothing.

* `TypeRegister.exists_ensure`: every composite attribute gets its type.
* `IsSynthesisFault`: what groupings can be refused for.
* `isSynthesisFault_of_synthesize`: **tables are made unless there is such a fault.**
-/
import EntityLayout.Proofs.Diagram.Consistency
import EntityLayout.Proofs.Diagram.Failures
import EntityLayout.Proofs.Placement
import EntityLayout.Proofs.Tables.Repeats

namespace EntityLayout

/-! ## 1. Composite types -/

namespace TypeRegister

open Attribute (nodesOf nodesOf_eq_flatMap nodes_eq)

variable {d : Diagram} {naming : Naming}
  {ensurePart : AttributeNode → TypeRegister → Except DiagramError (String × TypeRegister)}

theorem exists_partType {part : AttributeNode}
    (h : part.isComposite = true → ∀ types, ∃ r, ensurePart part types = .ok r)
    (types : TypeRegister) : ∃ r, partType ensurePart part types = .ok r := by
  unfold partType
  cases hcomposite : part.isComposite with
  | false => exact ⟨_, rfl⟩
  | true =>
    obtain ⟨r, hr⟩ := h hcomposite types
    simp only [if_true, hr]
    exact ⟨_, rfl⟩

/-- Parts that are there have fields if their own types can be made. -/
theorem exists_fieldsBy (hd : d.IsIndexed) (node : Attribute → AttributeNode) :
    ∀ (as : List Attribute), (∀ a ∈ as, .attr (node a) ∈ d.nodes ∧
      ∀ types, ∃ r, ensurePart (node a) types = .ok r) → ∀ types,
        ∃ r, fieldsBy d ensurePart (as.map fun a => (node a).path) types = .ok r
  | [], _, _ => ⟨_, rfl⟩
  | a :: as, h, types => by
    obtain ⟨⟨hmem, hensure⟩, hrest⟩ := List.forall_mem_cons.mp h
    have hat : d.attributeAt (node a).path = .ok (node a) :=
      hd.attributeAt_eq_ok.mpr ⟨hmem, (hd.lower_path hmem).symm⟩
    obtain ⟨⟨type, types₁⟩, htype⟩ := exists_partType (fun _ => hensure) types
    obtain ⟨⟨fields, types₂⟩, hfields⟩ := exists_fieldsBy hd node as hrest types₁
    exact ⟨_, fieldsBy_cons_eq_ok.mpr ⟨_, _, _, _, hat, htype, hfields, rfl⟩⟩

/-- **The type of an attribute can be made** if there is a level for each of its nodes. -/
theorem exists_ensureWithin (hd : d.IsIndexed) : ∀ (a : Attribute) (above owner : String)
    (parent : Option String) (depth : Nat), (a.nodes above owner parent).length ≤ depth →
      (∀ n ∈ a.nodes above owner parent, .attr n ∈ d.nodes) → ∀ types,
        ∃ r, ensureWithin naming d depth (a.node above owner parent) types = .ok r := by
  intro a
  induction a using Attribute.induction with
  | step a ih =>
    intro above owner parent depth hdepth hmem types
    rw [nodes_eq, nodesOf_eq_flatMap] at hdepth hmem
    rw [List.length_cons] at hdepth
    obtain ⟨depth, rfl⟩ : ∃ m, depth = m + 1 := ⟨depth - 1, by omega⟩
    have hparts : ∀ types, ∃ r, fieldsBy d (ensureWithin naming d depth)
        (a.node above owner parent).children types = .ok r := by
      refine exists_fieldsBy hd
        (Attribute.node (a.pathBelow above) owner (some (a.pathBelow above))) _ fun b hb => ?_
      have hsub : ∀ n ∈ b.nodes (a.pathBelow above) owner (some (a.pathBelow above)),
          .attr n ∈ d.nodes := fun n hn =>
        hmem n (List.mem_cons_of_mem _ (List.mem_flatMap.mpr ⟨b, hb, hn⟩))
      have hlen := ((List.singleton_sublist.mpr hb).flatMap
        (Attribute.nodes (a.pathBelow above) owner (some (a.pathBelow above)))).length_le
      rw [List.flatMap_singleton] at hlen
      exact ⟨hsub _ (b.node_mem_nodes _ _ _),
        ih b (Attribute.shownParts_subset hb) _ _ _ depth (by omega) hsub⟩
    by_cases hknown : types.contains (naming.typeName (a.node above owner parent).path) = true
    · exact ⟨_, ensureWithin_eq_ok.mpr ⟨rfl, by rw [if_pos hknown]⟩⟩
    · obtain ⟨⟨fields, types₁⟩, hfields⟩ := hparts types
      exact ⟨_, ensureWithin_eq_ok.mpr ⟨rfl, by rw [if_neg hknown]; exact ⟨_, _, hfields, rfl⟩⟩⟩

/-- **Every attribute of a diagram gets its type.** -/
theorem exists_ensure (naming : Naming) {schema : SchemaDecl} (hw : schema.IsWellFormed)
    {n : AttributeNode} (hn : .attr n ∈ schema.diagram.nodes) (types : TypeRegister) :
    ∃ r, types.ensure naming schema.diagram n = .ok r := by
  obtain ⟨above, parent, a, hdeclares, heq⟩ := SchemaDecl.exists_declaresAt hn
  have hsub := hdeclares.sublist
  have hlen := hsub.length_le
  rw [List.length_map] at hlen
  rw [ensure, heq]
  exact exists_ensureWithin hw.isIndexed a above n.owner parent _ (by omega)
    (fun m hm => hsub.subset (List.mem_map_of_mem hm)) types

end TypeRegister

/-! ## 2. Tables -/

/-- What groupings can be refused for. -/
inductive IsSynthesisFault (d : Diagram) (groupings : List Grouping) : SynthesisError → Prop where
  | invalidGrouping {index : Nat} {fault : GroupingFault} :
      IsSynthesisFault d groupings (.invalidGrouping index fault)
  | weakEndpoint {index : Nat} {relationship : String} :
      IsSynthesisFault d groupings (.weakEndpoint index relationship)
  /-- a grouping gives a name that is no node's -/
  | unknownNode {g : Grouping} {name : String} : g ∈ groupings → name ∈ g.names →
      Text.lower name ∉ d.paths →
        IsSynthesisFault d groupings (.diagram (.unknownNode (Text.lower name)))

namespace Blueprint

variable {schema : SchemaDecl} {layout : Layout} {naming : Naming} {groupings : List Grouping}

section

variable (hw : schema.IsWellFormed) (hlayout : schema.diagram.classify groupings = .ok layout)

include hw hlayout

/-- Every subclass has been placed. -/
theorem needsKey_ne_error {e : EntityNode} (he : .entity e ∈ schema.diagram.nodes)
    {fault : SynthesisError} : needsKey ⟨schema.diagram, layout, naming⟩ e ≠ .error fault := by
  intro h
  unfold needsKey at h
  cases hsub : e.isSubclass with
  | false =>
    rw [hsub] at h
    cases h
  | true =>
    obtain ⟨placement, grouping, hget⟩ := Diagram.decision_subclass
      (Diagram.classify_entity hlayout hw.isIndexed he) hsub
    have hplacement : layout.placement? e.path = some placement := by
      rw [Layout.placement?, hget]
      rfl
    simp only [hsub, if_true, hplacement] at h
    cases h

omit hlayout in
theorem attributeColumn_ne_error {a : AttributeNode} (ha : .attr a ∈ schema.diagram.nodes)
    {only : Bool} {types : TypeRegister} {fault : SynthesisError} :
    attributeColumn ⟨schema.diagram, layout, naming⟩ only a types ≠ .error fault := by
  obtain ⟨⟨name, types₁⟩, hensure⟩ := TypeRegister.exists_ensure naming hw ha types
  have hregisters : ∃ types', Registers ⟨schema.diagram, layout, naming⟩ a types types' := by
    unfold Registers
    split
    · exact ⟨types₁, name, hensure⟩
    · exact ⟨types, rfl⟩
  obtain ⟨types', htypes⟩ := hregisters
  rw [attributeColumn_eq_ok.mpr ⟨rfl, htypes⟩]
  exact nofun

/-- The columns of nodes that are there can be added. -/
theorem addColumns_ne_error {repeats only : Bool} {fault : SynthesisError} :
    ∀ {nodes : List Node} {columns : List Column} {types : TypeRegister},
      (∀ n ∈ nodes, n ∈ schema.diagram.nodes) →
        addColumns ⟨schema.diagram, layout, naming⟩ repeats only nodes columns types ≠ .error fault
  | [], _, _, _, h => nomatch h
  | .entity e :: nodes, columns, types, hmem, h => by
    obtain ⟨he, hmem⟩ := List.forall_mem_cons.mp hmem
    rw [addColumns_entity] at h
    rcases bind_eq_error.mp h with h | ⟨keyed, -, h⟩
    · split at h
      · exact nomatch h
      · exact needsKey_ne_error hw hlayout he h
    · exact addColumns_ne_error hmem h
  | .relationship r :: nodes, columns, types, hmem, h => by
    rw [addColumns] at h
    exact addColumns_ne_error (List.forall_mem_cons.mp hmem).2 h
  | .attr a :: nodes, columns, types, hmem, h => by
    obtain ⟨ha, hmem⟩ := List.forall_mem_cons.mp hmem
    rw [addColumns] at h
    rcases bind_eq_error.mp h with h | ⟨p, -, h⟩
    · exact attributeColumn_ne_error hw ha h
    · exact addColumns_ne_error hmem h

omit hlayout in
/-- The two sides of a relationship that is there are entities that are there. -/
theorem isSynthesisFault_of_sideKeys {g : Grouping} {nodes : List Node}
    (hnodes : nodesOf ⟨schema.diagram, layout, naming⟩ g = .ok nodes) {name : String}
    (hname : name ∈ g.names) {index : Nat} {fault : SynthesisError}
    (h : sideKeys ⟨schema.diagram, layout, naming⟩ index name nodes = .error fault) :
    IsSynthesisFault schema.diagram groupings fault := by
  rcases bind_eq_error.mp h with h | ⟨n, -, h⟩
  · obtain ⟨f, hf, -⟩ := mapError_eq_error.mp h
    obtain ⟨n, -, hn⟩ := exists_of_mem_left (mapM_eq_ok.mp hnodes) hname
    exact nomatch hn.symm.trans hf
  cases n with
  | relationship r => exact throw_eq_error.mp h ▸ .invalidGrouping
  | attr a => exact throw_eq_error.mp h ▸ .invalidGrouping
  | entity e =>
    cases hr : nodes.findSome? Node.relationship? with
    | none =>
      simp only [hr] at h
      exact throw_eq_error.mp h ▸ .invalidGrouping
    | some r =>
      simp only [hr] at h
      obtain ⟨decl, hdecl, rfl⟩ := SchemaDecl.relationship_mem_nodes_iff.mp
        (relationship_mem_of_findSome? hw.isIndexed hnodes hr)
      obtain ⟨e₁, -, e₂, -, hends, -, -⟩ := hw.exists_ends hdecl
      rw [RelationshipDecl.path_node, hends] at h
      obtain h | ⟨⟨_, _⟩, hpair, h⟩ := bind_eq_error.mp h
      · exact nomatch h
      obtain ⟨rfl, rfl⟩ := Prod.mk.inj (Except.ok.inj hpair)
      cases hweak : e₁.node.isWeak || e₂.node.isWeak with
      | true =>
        simp only [hweak, if_true] at h
        exact Except.error.inj h ▸ .weakEndpoint
      | false =>
        simp only [hweak, Bool.false_eq_true, if_false] at h
        cases hroles : decl.node.roles with
        | some roles =>
          simp only [hroles] at h
          exact nomatch h
        | none =>
          simp only [hroles] at h
          split at h
          · exact Except.error.inj h ▸ .invalidGrouping
          · exact nomatch h

/-- A table that has its keys is refused only for two columns of one name. -/
theorem isSynthesisFault_of_columns {g : Grouping} {nodes : List Node}
    (hnodes : nodesOf ⟨schema.diagram, layout, naming⟩ g = .ok nodes) {repeats only : Bool}
    {keys : List Column} {types : TypeRegister} {index : Nat} {fault : SynthesisError}
    (h : (addColumns ⟨schema.diagram, layout, naming⟩ repeats only nodes keys types >>= fun p =>
      match duplicate? [] p.1 with
      | some name => throw (.invalidGrouping index (.duplicateColumn name))
      | none => pure (Table.mk (naming.tableName index) index p.1, p.2)) = .error fault) :
    IsSynthesisFault schema.diagram groupings fault := by
  obtain h | ⟨⟨columns, types'⟩, -, h⟩ := bind_eq_error.mp h
  · exact absurd h (addColumns_ne_error hw hlayout fun n hn =>
      ((mem_nodes_iff hw.isIndexed hnodes).mp hn).1)
  · cases hdup : duplicate? [] columns with
    | none =>
      simp only [hdup] at h
      exact nomatch h
    | some name =>
      simp only [hdup] at h
      exact throw_eq_error.mp h ▸ .invalidGrouping

/-- **A grouping is refused for itself or for a name of nothing.** -/
theorem isSynthesisFault_of_table {g : Grouping} (hg : g ∈ groupings) {index : Nat}
    {types : TypeRegister} {fault : SynthesisError}
    (h : table ⟨schema.diagram, layout, naming⟩ index g types = .error fault) :
    IsSynthesisFault schema.diagram groupings fault := by
  rcases bind_eq_error.mp h with h | ⟨nodes, hnodes, h⟩
  · obtain ⟨f, hf, rfl⟩ := mapError_eq_error.mp h
    obtain ⟨name, hname, hf⟩ := exists_of_mapM_eq_error hf
    obtain ⟨hmissing, rfl⟩ := Diagram.nodeAt_eq_error.mp hf
    exact .unknownNode hg hname hmissing
  have hnodes := mapError_eq_ok.mp hnodes
  rcases bind_eq_error.mp h with h | ⟨repeated, hrepeated, h⟩
  · unfold repeatedName at h
    split at h
    · exact nomatch h
    · dsimp only at h
      split at h
      · exact Except.error.inj h ▸ .invalidGrouping
      · exact nomatch h
    · exact Except.error.inj h ▸ .invalidGrouping
  cases repeated with
  | none => exact isSynthesisFault_of_columns hw hlayout hnodes h
  | some name =>
    obtain h | ⟨keys, -, h⟩ := bind_eq_error.mp h
    · have hname : name ∈ g.repeated := by
        rw [repeatedName_eq_ok hrepeated]
        exact List.mem_singleton_self name
      exact isSynthesisFault_of_sideKeys hw hnodes (Grouping.mem_names_of_repeated hname) h
    · exact isSynthesisFault_of_columns hw hlayout hnodes h

theorem isSynthesisFault_of_tablesFrom {fault : SynthesisError} : ∀ {gs : List Grouping}
    {index : Nat} {types : TypeRegister}, gs ⊆ groupings →
      tablesFrom ⟨schema.diagram, layout, naming⟩ index gs types = .error fault →
        IsSynthesisFault schema.diagram groupings fault
  | [], _, _, _, h => nomatch h
  | g :: gs, index, types, hsub, h => by
    obtain ⟨hg, hsub⟩ := List.cons_subset.mp hsub
    rcases bind_eq_error.mp h with h | ⟨⟨t, types₁⟩, -, h⟩
    · exact isSynthesisFault_of_table hw hlayout hg h
    · rcases bind_eq_error.mp h with h | ⟨⟨ts, types₂⟩, -, h⟩
      · exact isSynthesisFault_of_tablesFrom hsub h
      · exact nomatch h

end

end Blueprint

/-- **Tables are made unless a grouping is at fault**, once a layout has been settled for the
diagram of a schema. -/
theorem isSynthesisFault_of_synthesize {schema : SchemaDecl} (hw : schema.IsWellFormed)
    {layout : Layout} {groupings : List Grouping} {naming : Naming}
    (hlayout : schema.diagram.classify groupings = .ok layout) {fault : SynthesisError}
    (h : synthesize schema.diagram layout groupings naming = .error fault) :
    IsSynthesisFault schema.diagram groupings fault := by
  rcases bind_eq_error.mp h with h | ⟨p, -, h⟩
  · exact Blueprint.isSynthesisFault_of_tablesFrom hw hlayout (List.Subset.refl _) h
  · exact nomatch h

end EntityLayout
