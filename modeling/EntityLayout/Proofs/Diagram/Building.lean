/-
# Building gives the diagram of the schema

A declaration is added as its node and its attributes; the diagram of a schema is what all
declarations give one after another.

* `addEntity_eq_done`, `addRelationship_eq_done`: when a declaration can be added, and what it
  adds.
* `ofDecl_eq_ok`: **a schema has a diagram iff it is well formed**, and it is the one that was
  written down.
-/
import EntityLayout.Proofs.Diagram.Growth

namespace EntityLayout.Diagram

variable {d d' : Diagram}

/-! ## 1. An owner and its attributes -/

/-- The diagram with a declaration's nodes and edges behind its own. -/
def extend (d : Diagram) (nodes : List Node) (edges : List Edge) : Diagram :=
  ⟨d.nodes ++ nodes, d.edges ++ edges⟩

@[simp] theorem paths_extend (nodes : List Node) (edges : List Edge) :
    (d.extend nodes edges).paths = d.paths ++ nodes.map Node.path := by
  rw [extend, paths, List.map_append, paths]

theorem IsIndexed.extend (h : d.IsIndexed) {nodes : List Node} {edges : List Edge}
    (hnew : (d.paths ++ nodes.map Node.path).Nodup)
    (hlow : ∀ n ∈ nodes, Text.lower n.path = n.path) : (d.extend nodes edges).IsIndexed where
  nodup := by
    rw [paths_extend]
    exact hnew
  lowered := by
    intro p hp
    rw [paths_extend, List.mem_append] at hp
    rcases hp with hp | hp
    · exact h.lowered p hp
    · obtain ⟨n, hn, rfl⟩ := List.mem_map.mp hp
      exact hlow n hn

/-- A node `n` without attributes, to which all its attributes are added, becomes `m` with
the attributes behind it. -/
theorem addOwner_eq_done (h : d.IsIndexed) (d' : Diagram) {n m : Node} {path : String}
    (as : List Attribute) (hpath : n.path = path) (hlow : Text.lower path = path) (hkind : n.kind ≠ .attr)
    (hm : n.adopt path ((Attribute.nodesOf path path none as).map AttributeNode.path) = m) :
    (d.insertNode n).andThen (addAttributes path path none as) = (d', none) ↔
      (d.paths ++ (m :: (Attribute.nodesOf path path none as).map .attr).map Node.path).Nodup ∧
        d' = d.extend (m :: (Attribute.nodesOf path path none as).map .attr)
          (Attribute.edgesOf .hasAttribute path as) := by
  subst hpath hm
  have hrest : n.path ∉ d.paths →
      (addAttributes n.path n.path none as ⟨d.nodes ++ [n], d.edges⟩ = (d', none) ↔
        (d.paths ++ n.path :: (Attribute.nodesOf n.path n.path none as).map
            AttributeNode.path).Nodup ∧
          d' = d.extend
            (n.adopt n.path ((Attribute.nodesOf n.path n.path none as).map AttributeNode.path) ::
              (Attribute.nodesOf n.path n.path none as).map .attr)
            (Attribute.edgesOf .hasAttribute n.path as)) := by
    intro hnew
    have hplace : HasPlace ⟨d.nodes ++ [n], d.edges⟩ n.path none :=
      ⟨h.insert hnew hlow, ⟨n, by simp, rfl, hkind⟩, fun p hp => nomatch hp⟩
    have hold : ∀ owned parts, d.nodes.map (Node.grow n.path none owned parts) = d.nodes := by
      intro owned parts
      refine (List.map_congr_left fun m hm => ?_).trans d.nodes.map_id
      rw [Node.grow, Node.enclose_none,
        Node.adopt_of_ne fun hp => hnew (mem_paths.mpr ⟨m, hm, hp⟩), id]
    have hadd : addAttributes n.path n.path none as ⟨d.nodes ++ [n], d.edges⟩ = (d', none) ↔ _ :=
      addAttributes_eq_done as hplace rfl
    rw [hadd, Grows, grow, List.map_append, hold, extend]
    simp [paths, Node.grow, edgeKind]
  have hpaths : ∀ added : List AttributeNode,
      (n.adopt n.path (added.map AttributeNode.path) :: added.map .attr).map Node.path =
        n.path :: added.map AttributeNode.path := by
    intro added
    rw [List.map_cons, Node.path_adopt, List.map_map]
    rfl
  rw [Change.andThen_eq_done, hpaths]
  constructor
  · rintro ⟨d₁, hinsert, hadd⟩
    obtain ⟨hnew, rfl⟩ := insertNode_eq_done.mp hinsert
    exact (hrest hnew).mp hadd
  · intro hall
    have hnew : n.path ∉ d.paths := fun hp =>
      (List.nodup_append.mp hall.1).2.2 _ hp _ List.mem_cons_self rfl
    exact ⟨_, insertNode_eq_done.mpr ⟨hnew, rfl⟩, (hrest hnew).mpr hall⟩

/-! ## 2. Entities -/

/-- The parent that the kind of an entity calls for is in the diagram. -/
def HasParent (d : Diagram) (decl : EntityDecl) : Prop :=
  decl.kind ≠ .regular → ∃ e, .entity e ∈ d.nodes ∧ decl.parentPath = some e.path

theorem parentOf_eq_ok (h : d.IsIndexed) {decl : EntityDecl} {parent : Option String} :
    d.parentOf decl = .ok parent ↔ d.HasParent decl ∧ parent = decl.parentPath := by
  obtain ⟨name, kind, declared, attributes⟩ := decl
  have found : ∀ p, (do let e ← d.entityAt p; pure (some e.path)) =
      (Except.ok parent : Except DiagramError _) ↔
        (∃ e, .entity e ∈ d.nodes ∧ Text.lower p = e.path) ∧ parent = some (Text.lower p) := by
    intro p
    rw [bind_eq_ok]
    constructor
    · rintro ⟨e, he, hp⟩
      obtain ⟨he, hep⟩ := h.entityAt_eq_ok.mp he
      exact ⟨⟨e, he, hep.symm⟩, by rw [← hep]; exact (pure_eq_ok.mp hp).symm⟩
    · rintro ⟨⟨e, he, hep⟩, rfl⟩
      exact ⟨e, h.entityAt_eq_ok.mpr ⟨he, hep.symm⟩, by rw [hep]; rfl⟩
  cases kind with
  | regular => simp [parentOf, HasParent, EntityDecl.parentPath, eq_comm]
  | weak =>
    cases declared with
    | none => simp [parentOf, HasParent, EntityDecl.parentPath]
    | some p => simpa [parentOf, HasParent, EntityDecl.parentPath] using found p
  | subclass =>
    cases declared with
    | none => simp [parentOf, HasParent, EntityDecl.parentPath]
    | some p => simpa [parentOf, HasParent, EntityDecl.parentPath] using found p

/-- The nodes of an entity are in small letters. -/
theorem lower_of_mem_entity {decl : EntityDecl} {n : Node} (h : n ∈ decl.nodes) :
    Text.lower n.path = n.path := by
  rcases List.mem_cons.mp h with rfl | h
  · exact Text.lower_lower decl.name
  · obtain ⟨a, ha, rfl⟩ := List.mem_map.mp h
    exact Attribute.lower_of_mem_nodesOf ha

/-- The edge to the parent can be added, because the parent was looked up before. -/
theorem connectParent_eq {decl : EntityDecl} (h : d.IsIndexed) (hpath : decl.path ∈ d.paths)
    (hparent : ∀ p ∈ decl.parentPath, p ∈ d.paths) :
    (match decl.parentPath with
      | some p => d.connect .dependsOn decl.path p
      | none => (d, none)) =
      (d.extend [] (decl.parentPath.map fun p => ⟨.dependsOn, decl.path, p⟩).toList, none) := by
  cases hp : decl.parentPath with
  | none => simp [extend]
  | some p => simpa [extend] using connect_eq h _ hpath (hparent p hp)

theorem HasParent.mem_paths {decl : EntityDecl} (h : d.HasParent decl) :
    ∀ p ∈ decl.parentPath, p ∈ d.paths := by
  intro p hp
  obtain ⟨e, he, hep⟩ := h (EntityDecl.kind_ne_regular hp)
  obtain rfl : p = e.path := Option.some.inj (hp.symm.trans hep)
  exact path_mem_paths he

/-- The node of an entity and those of its attributes are added iff all their paths are new. -/
theorem addEntityNodes_eq_done (h : d.IsIndexed) {decl : EntityDecl} :
    (d.insertNode (.entity ⟨decl.name, decl.path, decl.kind, decl.parentPath, []⟩)).andThen
        (addAttributes decl.path decl.path none decl.attributes) = (d', none) ↔
      (d.paths ++ decl.nodes.map Node.path).Nodup ∧
        d' = d.extend decl.nodes (Attribute.edgesOf .hasAttribute decl.path decl.attributes) :=
  addOwner_eq_done h d' (m := .entity decl.node) decl.attributes decl.path_node
    (Text.lower_lower decl.name) (by simp [Node.kind])
    (by simp [Node.adopt, EntityDecl.node, EntityDecl.attributeNodes])

/-- **An entity can be added iff its parent is there and all its paths are new.** -/
theorem addEntity_eq_done (h : d.IsIndexed) {decl : EntityDecl} :
    d.addEntity decl = (d', none) ↔
      (d.HasParent decl ∧ (d.paths ++ decl.nodes.map Node.path).Nodup) ∧
        d' = d.extend decl.nodes decl.edges := by
  have hparent : d.HasParent decl → (d.paths ++ decl.nodes.map Node.path).Nodup →
      ∀ edges, (match decl.parentPath with
        | some p => (d.extend decl.nodes edges).connect .dependsOn decl.path p
        | none => (d.extend decl.nodes edges, none)) =
          ((d.extend decl.nodes edges).extend []
            (decl.parentPath.map fun p => ⟨.dependsOn, decl.path, p⟩).toList, none) := by
    intro hp hnew edges
    refine connectParent_eq (h.extend hnew fun n hn => lower_of_mem_entity hn) ?_ fun p hpp => ?_
    · rw [paths_extend]
      exact List.mem_append_right _ (List.mem_map_of_mem (f := Node.path) List.mem_cons_self)
    · rw [paths_extend]
      exact List.mem_append_left _ (hp.mem_paths p hpp)
  rw [addEntity, withFound_eq_done]
  constructor
  · rintro ⟨parent, hfound, hadd⟩
    obtain ⟨hp, rfl⟩ := (parentOf_eq_ok h).mp hfound
    obtain ⟨d₂, hown, hconnect⟩ := Change.andThen_eq_done.mp hadd
    obtain ⟨hnew, rfl⟩ := (addEntityNodes_eq_done h).mp hown
    refine ⟨⟨hp, hnew⟩, ?_⟩
    have hd := (hparent hp hnew _).symm.trans hconnect
    rw [Prod.mk.injEq] at hd
    simp [← hd.1, extend, EntityDecl.edges]
  · rintro ⟨⟨hp, hnew⟩, rfl⟩
    refine ⟨_, (parentOf_eq_ok h).mpr ⟨hp, rfl⟩, ?_⟩
    refine Change.andThen_eq_done.mpr ⟨_, (addEntityNodes_eq_done h).mpr ⟨hnew, rfl⟩, ?_⟩
    refine (hparent hp hnew _).trans ?_
    simp [extend, EntityDecl.edges]

/-! ## 3. Relationships -/

/-- The entities of a relationship are in the diagram, and both roles are declared or
neither. -/
structure HasEnds (d : Diagram) (decl : RelationshipDecl) : Prop where
  first : ∃ e, .entity e ∈ d.nodes ∧ e.path = decl.firstPath
  second : ∃ e, .entity e ∈ d.nodes ∧ e.path = decl.secondPath
  roles : decl.first.role.isSome = decl.second.role.isSome

theorem rolesOf_eq_ok {decl : RelationshipDecl} {roles : Option (String × String)} :
    rolesOf decl = .ok roles ↔
      decl.first.role.isSome = decl.second.role.isSome ∧ roles = decl.roles := by
  unfold rolesOf RelationshipDecl.roles
  cases decl.first.role <;> cases decl.second.role <;> simp [eq_comm]

/-- The nodes of a relationship are in small letters. -/
theorem lower_of_mem_relationship {decl : RelationshipDecl} {n : Node} (h : n ∈ decl.nodes) :
    Text.lower n.path = n.path := by
  rcases List.mem_cons.mp h with rfl | h
  · exact Text.lower_lower decl.name
  · obtain ⟨a, ha, rfl⟩ := List.mem_map.mp h
    exact Attribute.lower_of_mem_nodesOf ha

/-- The node of a relationship and those of its attributes are added iff all their paths are
new. -/
theorem addRelationshipNodes_eq_done (h : d.IsIndexed) {decl : RelationshipDecl} :
    (d.insertNode (.relationship
          ⟨decl.name, decl.path, decl.firstPath, decl.secondPath, decl.roles, []⟩)).andThen
        (addAttributes decl.path decl.path none decl.attributes) = (d', none) ↔
      (d.paths ++ decl.nodes.map Node.path).Nodup ∧
        d' = d.extend decl.nodes (Attribute.edgesOf .hasAttribute decl.path decl.attributes) :=
  addOwner_eq_done h d' (m := .relationship decl.node) decl.attributes
    decl.path_node (Text.lower_lower decl.name) (by simp [Node.kind])
    (by simp [Node.adopt, RelationshipDecl.node, RelationshipDecl.attributeNodes])

/-- A relationship whose nodes have been added can be connected with both of its entities. -/
theorem connectEnds_eq (h : d.IsIndexed) {decl : RelationshipDecl} (hends : d.HasEnds decl)
    (hnew : (d.paths ++ decl.nodes.map Node.path).Nodup) (edges : List Edge) :
    ((d.extend decl.nodes edges).connect .relates decl.path decl.firstPath).andThen
        (connect .relates decl.path decl.secondPath) =
      (d.extend decl.nodes (edges ++ [⟨.relates, decl.path, decl.firstPath⟩,
        ⟨.relates, decl.path, decl.secondPath⟩]), none) := by
  have hindexed : ∀ es, (d.extend decl.nodes es).IsIndexed := fun es =>
    h.extend hnew fun n hn => lower_of_mem_relationship hn
  have hpath : ∀ es, decl.path ∈ (d.extend decl.nodes es).paths := fun es => by
    rw [paths_extend]
    exact List.mem_append_right _ (List.mem_map_of_mem (f := Node.path) List.mem_cons_self)
  have hend : ∀ es path, (∃ e, Node.entity e ∈ d.nodes ∧ e.path = path) →
      path ∈ (d.extend decl.nodes es).paths := by
    rintro es _ ⟨e, he, rfl⟩
    rw [paths_extend]
    exact List.mem_append_left _ (path_mem_paths he)
  have hfirst := connect_eq (hindexed edges) .relates (hpath _) (hend _ _ hends.first)
  have hsecond := connect_eq (hindexed (edges ++ [⟨.relates, decl.path, decl.firstPath⟩]))
    .relates (hpath _) (hend _ _ hends.second)
  refine Change.andThen_eq_done.mpr ⟨_, hfirst, ?_⟩
  simpa [extend] using hsecond

/-- **A relationship can be added iff its entities are there and all its paths are new.** -/
theorem addRelationship_eq_done (h : d.IsIndexed) {decl : RelationshipDecl} :
    d.addRelationship decl = (d', none) ↔
      (d.HasEnds decl ∧ (d.paths ++ decl.nodes.map Node.path).Nodup) ∧
        d' = d.extend decl.nodes decl.edges := by
  rw [addRelationship, withFound_eq_done]
  constructor
  · rintro ⟨e₁, he₁, hadd⟩
    obtain ⟨e₂, he₂, hadd⟩ := withFound_eq_done.mp hadd
    obtain ⟨roles, hfound, hadd⟩ := withFound_eq_done.mp hadd
    obtain ⟨hroles, rfl⟩ := rolesOf_eq_ok.mp hfound
    obtain ⟨he₁, hp₁⟩ := h.entityAt_eq_ok.mp he₁
    obtain ⟨he₂, hp₂⟩ := h.entityAt_eq_ok.mp he₂
    rw [hp₁, hp₂] at hadd
    obtain ⟨d₃, hadd, hsecond⟩ := Change.andThen_eq_done.mp hadd
    obtain ⟨d₂, hown, hfirst⟩ := Change.andThen_eq_done.mp hadd
    obtain ⟨hnew, rfl⟩ := (addRelationshipNodes_eq_done h).mp hown
    have hd : d.HasEnds decl := ⟨⟨e₁, he₁, hp₁⟩, ⟨e₂, he₂, hp₂⟩, hroles⟩
    have hboth := (connectEnds_eq h hd hnew _).symm.trans
      (Change.andThen_eq_done.mpr ⟨d₃, hfirst, hsecond⟩)
    rw [Prod.mk.injEq] at hboth
    exact ⟨⟨hd, hnew⟩, hboth.1.symm⟩
  · rintro ⟨⟨hd, hnew⟩, rfl⟩
    obtain ⟨e₁, he₁, hp₁⟩ := hd.first
    obtain ⟨e₂, he₂, hp₂⟩ := hd.second
    refine ⟨e₁, h.entityAt_eq_ok.mpr ⟨he₁, hp₁⟩, withFound_eq_done.mpr
      ⟨e₂, h.entityAt_eq_ok.mpr ⟨he₂, hp₂⟩, withFound_eq_done.mpr
        ⟨_, rolesOf_eq_ok.mpr ⟨hd.roles, rfl⟩, ?_⟩⟩⟩
    rw [hp₁, hp₂]
    obtain ⟨d₃, hfirst, hsecond⟩ := Change.andThen_eq_done.mp (connectEnds_eq h hd hnew
      (Attribute.edgesOf .hasAttribute decl.path decl.attributes))
    exact Change.andThen_eq_done.mpr ⟨d₃, Change.andThen_eq_done.mpr
      ⟨_, (addRelationshipNodes_eq_done h).mpr ⟨hnew, rfl⟩, hfirst⟩, hsecond⟩

/-! ## 4. Schemas -/

/-- Declarations are added one after another, each to what those before it gave. -/
theorem addAll_eq_done {α : Type} {add : α → Diagram → Change} {nodes : α → List Node}
    {edges : α → List Edge} {Fit : α → Diagram → Prop}
    (hlow : ∀ a, ∀ n ∈ nodes a, Text.lower n.path = n.path)
    (hadd : ∀ a {d d' : Diagram}, d.IsIndexed → (add a d = (d', none) ↔
      (Fit a d ∧ (d.paths ++ (nodes a).map Node.path).Nodup) ∧
        d' = d.extend (nodes a) (edges a))) :
    ∀ (as : List α) {d d' : Diagram}, d.IsIndexed → (addAll add as d = (d', none) ↔
      ((∀ before a after, as = before ++ a :: after →
          Fit a (d.extend (before.flatMap nodes) (before.flatMap edges))) ∧
        (d.paths ++ (as.flatMap nodes).map Node.path).Nodup) ∧
        d' = d.extend (as.flatMap nodes) (as.flatMap edges))
  | [], d, d', h => by
    have hnil : d.extend [] [] = d := by simp [extend]
    simp [addAll, hnil, h.nodup, eq_comm]
  | a :: as, d, d', h => by
    have hextend : ∀ before : List α,
        (d.extend (nodes a) (edges a)).extend (before.flatMap nodes) (before.flatMap edges) =
          d.extend ((a :: before).flatMap nodes) ((a :: before).flatMap edges) := by
      intro before
      simp [extend]
    rw [addAll, Change.andThen_eq_done]
    constructor
    · rintro ⟨d₁, hfirst, hrest⟩
      obtain ⟨⟨hfit, hnew⟩, rfl⟩ := (hadd a h).mp hfirst
      obtain ⟨⟨hfits, hall⟩, rfl⟩ := (addAll_eq_done hlow hadd as
        (h.extend hnew (hlow a))).mp hrest
      refine ⟨⟨?_, by simpa using hall⟩, hextend as⟩
      intro before b after hsplit
      cases before with
      | nil =>
        obtain ⟨rfl, rfl⟩ := List.cons.inj hsplit
        simpa [extend] using hfit
      | cons c before =>
        obtain ⟨rfl, hafter⟩ := List.cons.inj hsplit
        rw [← hextend]
        exact hfits before b after hafter
    · rintro ⟨⟨hfits, hall⟩, rfl⟩
      have hnew : (d.paths ++ (nodes a).map Node.path).Nodup := by
        rw [List.flatMap_cons, List.map_append, ← List.append_assoc] at hall
        exact (List.nodup_append.mp hall).1
      refine ⟨_, (hadd a h).mpr ⟨⟨by simpa [extend] using hfits [] a as rfl, hnew⟩, rfl⟩, ?_⟩
      refine (addAll_eq_done hlow hadd as (h.extend hnew (hlow a))).mpr
        ⟨⟨?_, by simpa using hall⟩, (hextend as).symm⟩
      intro before b after hsplit
      rw [hextend]
      exact hfits (a :: before) b after (by rw [hsplit]; rfl)

/-- The diagram of entities alone, as far as a schema has come before its relationships. -/
def ofEntities (entities : List EntityDecl) : Diagram :=
  empty.extend (entities.flatMap EntityDecl.nodes) (entities.flatMap EntityDecl.edges)

/-- The relationships complete the diagram of a schema. -/
theorem ofEntities_extend (schema : SchemaDecl) :
    (ofEntities schema.entities).extend (schema.relationships.flatMap RelationshipDecl.nodes)
      (schema.relationships.flatMap RelationshipDecl.edges) = schema.diagram := by
  simp [ofEntities, extend, empty, SchemaDecl.diagram]

/-- The paths of a schema are those of its entities, and then those of its relationships. -/
theorem paths_ofEntities_append (schema : SchemaDecl) :
    (ofEntities schema.entities).paths ++
        (schema.relationships.flatMap RelationshipDecl.nodes).map Node.path =
      schema.diagram.nodes.map Node.path := by
  rw [← paths_extend _ (schema.relationships.flatMap RelationshipDecl.edges), ofEntities_extend,
    paths]

theorem isIndexed_empty : IsIndexed empty := ⟨List.nodup_nil, fun _ hp => nomatch hp⟩

theorem isIndexed_ofEntities {entities : List EntityDecl}
    (hnew : (ofEntities entities).paths.Nodup) : (ofEntities entities).IsIndexed := by
  rw [ofEntities, paths_extend] at hnew
  refine isIndexed_empty.extend hnew fun n hn => ?_
  obtain ⟨decl, -, hn⟩ := List.mem_flatMap.mp hn
  exact lower_of_mem_entity hn

/-- The entities among the nodes of entity declarations. -/
theorem mem_entityNodes {decls : List EntityDecl} {e : EntityNode} :
    .entity e ∈ decls.flatMap EntityDecl.nodes ↔ ∃ decl ∈ decls, e = decl.node := by
  rw [List.mem_flatMap]
  refine exists_congr fun decl => and_congr_right fun _ => ?_
  simp [EntityDecl.nodes]

/-- Relationships and attributes are no entities. -/
theorem entity_not_mem_relationshipNodes {decls : List RelationshipDecl} {e : EntityNode} :
    .entity e ∉ decls.flatMap RelationshipDecl.nodes := by
  simp [List.mem_flatMap, RelationshipDecl.nodes]

theorem hasParent_iff {before : List EntityDecl} {decl : EntityDecl} :
    HasParent (ofEntities before) decl ↔
      (decl.kind ≠ .regular → ∃ p ∈ before, decl.parentPath = some p.path) := by
  refine imp_congr_right fun _ => ?_
  constructor
  · rintro ⟨e, he, hp⟩
    obtain ⟨p, hp', rfl⟩ := mem_entityNodes.mp he
    exact ⟨p, hp', hp⟩
  · rintro ⟨p, hp', hp⟩
    exact ⟨p.node, mem_entityNodes.mpr ⟨p, hp', rfl⟩, hp⟩

/-- Relationships bring no further entities. -/
theorem exists_entity_iff {entities : List EntityDecl} {before : List RelationshipDecl}
    {es : List Edge} {path : String} :
    (∃ e, Node.entity e ∈
        ((ofEntities entities).extend (before.flatMap RelationshipDecl.nodes) es).nodes ∧
          e.path = path) ↔
      ∃ decl ∈ entities, decl.path = path := by
  have hmem : ∀ e, Node.entity e ∈
      ((ofEntities entities).extend (before.flatMap RelationshipDecl.nodes) es).nodes ↔
        ∃ decl ∈ entities, e = decl.node := by
    intro e
    rw [← mem_entityNodes]
    simp only [ofEntities, extend, empty, List.nil_append, List.mem_append,
      entity_not_mem_relationshipNodes, or_false]
  constructor
  · rintro ⟨e, he, hp⟩
    obtain ⟨decl, hd, rfl⟩ := (hmem e).mp he
    exact ⟨decl, hd, hp⟩
  · rintro ⟨decl, hd, hp⟩
    exact ⟨decl.node, (hmem _).mpr ⟨decl, hd, rfl⟩, hp⟩

/-- **Entities can be added if their parents come before them and no path is taken twice.** -/
theorem addEntities_eq_done {entities : List EntityDecl} :
    addAll addEntity entities empty = (d, none) ↔
      ((∀ before e after, entities = before ++ e :: after → HasParent (ofEntities before) e) ∧
        (ofEntities entities).paths.Nodup) ∧ d = ofEntities entities := by
  rw [addAll_eq_done (fun _ _ => lower_of_mem_entity)
    (fun e _ _ h => @addEntity_eq_done _ _ h e) entities isIndexed_empty, ofEntities,
    paths_extend]
  rfl

/-- **A schema has a diagram iff it is well formed**, and it is the one that was written
down. -/
theorem ofDecl_eq_ok {schema : SchemaDecl} {d : Diagram} :
    ofDecl schema = .ok d ↔ schema.IsWellFormed ∧ d = schema.diagram := by
  have hdone : ofDecl schema = .ok d ↔ (addAll addEntity schema.entities empty).andThen
      (addAll addRelationship schema.relationships) = (d, none) := by
    rw [ofDecl]
    split <;> simp_all
  have hrelationships := fun h : (ofEntities schema.entities).IsIndexed =>
    @addAll_eq_done _ _ _ _ _ (fun _ _ => lower_of_mem_relationship)
      (fun r _ _ h => @addRelationship_eq_done _ _ h r) schema.relationships _ d h
  rw [hdone, Change.andThen_eq_done]
  constructor
  · rintro ⟨d₁, hadd, hrest⟩
    obtain ⟨⟨hparents, hnew⟩, rfl⟩ := addEntities_eq_done.mp hadd
    obtain ⟨⟨hends, hall⟩, rfl⟩ := (hrelationships (isIndexed_ofEntities hnew)).mp hrest
    rw [paths_ofEntities_append] at hall
    refine ⟨⟨hall, ?_, ?_, ?_, ?_⟩, ofEntities_extend schema⟩
    · intro before e after hsplit
      exact hasParent_iff.mp (hparents before e after hsplit)
    all_goals
      intro r hr
      obtain ⟨before, after, hsplit⟩ := List.append_of_mem hr
      have hr := hends before r after hsplit
    · exact exists_entity_iff.mp hr.first
    · exact exists_entity_iff.mp hr.second
    · exact hr.roles
  · rintro ⟨hw, rfl⟩
    have hall := hw.nodup
    rw [← paths_ofEntities_append] at hall
    have hnew := (List.nodup_append.mp hall).1
    refine ⟨_, addEntities_eq_done.mpr ⟨⟨fun before e after hsplit =>
      hasParent_iff.mpr (hw.parents before e after hsplit), hnew⟩, rfl⟩,
      (hrelationships (isIndexed_ofEntities hnew)).mpr
        ⟨⟨fun before r after hsplit => ?_, hall⟩, (ofEntities_extend schema).symm⟩⟩
    have hr : r ∈ schema.relationships := by simp [hsplit]
    exact ⟨exists_entity_iff.mpr (hw.first r hr), exists_entity_iff.mpr (hw.second r hr),
      hw.roles r hr⟩

end EntityLayout.Diagram
