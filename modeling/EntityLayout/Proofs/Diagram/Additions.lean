/-
# Adding declarations one by one

A diagram is built up by declarations, and a declaration that is refused half-way leaves what it
had added.  Later declarations build on that.  Nothing that was there is ever touched: what a
declaration adds, in whole or in part, comes behind it.

* `Declaration.paths`: the paths that a declaration takes up, in order.
* `Diagram.afterAll`: the diagram after any declarations, refused ones among them.
* `Diagram.Keeps`: **what adding a declaration does to a diagram**, however it ends.
* `Diagram.keeps_addTo`: adding does no more than that, after any declarations.
-/
import EntityLayout.Proofs.Diagram.Acceptance
import EntityLayout.Proofs.Diagram.Failures

namespace EntityLayout

/-! ## 1. The paths of a declaration -/

namespace Attribute

theorem pathsFrom_eq (above : String) (a : Attribute) : a.pathsFrom above =
    a.pathBelow above :: pathsFromEach (a.pathBelow above) a.shownParts := by
  obtain ⟨name, type, primaryKey, discriminator, multivalued, parts⟩ := a
  rw [pathsFrom, shownParts, isComposite]
  by_cases h : type = .composite <;>
    simp [h, pathBelow, pathsFromEach, AttributeType.isComposite]

theorem isComposite_of_isCutAt {above path : String} {a : Attribute} {bs : List Attribute}
    (h : IsCutAt above a.shownParts bs path) : a.isComposite = true := by
  by_contra hsimple
  rw [shownParts, if_neg hsimple] at h
  cases h

/-- **The paths before the one that is cut at are those of the attributes before it.** -/
theorem IsCutAt.exists_paths {above path : String} {as bs : List Attribute}
    (h : IsCutAt above as bs path) :
    ∃ after, pathsFromEach above as = pathsFromEach above bs ++ path :: after := by
  induction h with
  | @here above a as =>
    refine ⟨pathsFromEach (a.pathBelow above) a.shownParts ++ pathsFromEach above as, ?_⟩
    rw [pathsFromEach, pathsFromEach, pathsFrom_eq, List.nil_append, List.cons_append]
  | @within above path a as parts h ih =>
    obtain ⟨after, hparts⟩ := ih
    have hcut : pathsFromEach above [{ a with parts }] =
        a.pathBelow above :: pathsFromEach (a.pathBelow above) parts := by
      have hshown : shownParts { a with parts } = parts := if_pos (isComposite_of_isCutAt h)
      rw [pathsFromEach, pathsFromEach, List.append_nil, pathsFrom_eq, hshown]
      rfl
    refine ⟨after ++ pathsFromEach above as, ?_⟩
    rw [pathsFromEach, pathsFrom_eq, hparts, hcut]
    simp
  | @later above path a as bs _ ih =>
    obtain ⟨after, hrest⟩ := ih
    exact ⟨after, by rw [pathsFromEach, pathsFromEach, hrest, List.append_assoc]⟩

end Attribute

namespace Declaration

/-- The paths that a declaration takes up, in order: its own, and behind it those of its
attributes. -/
def paths (decl : Declaration) : List String :=
  decl.path :: Attribute.pathsFromEach decl.path decl.attributes

variable {decl : Declaration} {d d' : Diagram}

@[simp] theorem path_withAttributes (decl : Declaration) (bs : List Attribute) :
    (decl.withAttributes bs).path = decl.path := by
  cases decl <;> rfl

@[simp] theorem attributes_withAttributes (decl : Declaration) (bs : List Attribute) :
    (decl.withAttributes bs).attributes = bs := by
  cases decl <;> rfl

theorem map_snd_ownerListing (kind : NodeKind) (path : String) (as : List Attribute) :
    (ownerListing kind path as).map Prod.snd = path :: Attribute.pathsFromEach path as := by
  rw [ownerListing, List.map_cons, List.map_map]
  exact congrArg (path :: ·) (List.map_id _)

/-- The nodes that a declaration puts into a diagram lie at its paths. -/
theorem map_path_nodes (decl : Declaration) : decl.nodes.map Node.path = decl.paths := by
  have hsnd (nodes : List Node) :
      nodes.map Node.path = (nodes.map fun n => (n.kind, n.path)).map Prod.snd := by
    rw [List.map_map]
    rfl
  cases decl with
  | entity decl => exact (hsnd _).trans (decl.map_nodes ▸ map_snd_ownerListing _ _ _)
  | relationship decl => exact (hsnd _).trans (decl.map_nodes ▸ map_snd_ownerListing _ _ _)

theorem lower_of_mem_nodes {n : Node} (h : n ∈ decl.nodes) : Text.lower n.path = n.path := by
  cases decl with
  | entity decl => exact Diagram.lower_of_mem_entity h
  | relationship decl => exact Diagram.lower_of_mem_relationship h

/-- **A declaration can be added iff what it refers to is there and all its paths are new.** -/
theorem addTo_eq_done (h : d.IsIndexed) : decl.addTo d = (d', none) ↔
    (decl.HasReferences d ∧ (d.paths ++ decl.paths).Nodup) ∧
      d' = d.extend decl.nodes decl.edges := by
  rw [← map_path_nodes]
  cases decl with
  | entity decl => exact Diagram.addEntity_eq_done h
  | relationship decl => exact Diagram.addRelationship_eq_done h

theorem addTo_eq_cut (h : d.IsIndexed) {e : DiagramError} (hcut : decl.addTo d = (d', some e)) :
    d.Refuses decl d' e := by
  cases decl with
  | entity decl => exact Diagram.addEntity_eq_cut h hcut
  | relationship decl => exact Diagram.addRelationship_eq_cut h hcut

end Declaration

/-! ## 2. Diagrams that are built up -/

namespace Diagram

variable {d d' : Diagram} {decl : Declaration} {e : DiagramError}

/-- The diagram after declarations were added one after another, each to what the one before it
left, refused or not. -/
def afterAll (decls : List Declaration) : Diagram :=
  decls.foldl (fun d decl => (decl.addTo d).1) empty

/-- What is left of a declaration that is refused is a diagram that look-ups are exact in. -/
theorem Refuses.isIndexed (hd : d.IsIndexed) (h : d.Refuses decl d' e) : d'.IsIndexed := by
  cases h with
  | reference _ => exact hd
  | taken _ => exact hd
  | takenBelow _ hnew _ => exact hd.extend hnew fun n hn => Declaration.lower_of_mem_nodes hn

/-- **Look-ups stay exact**, whether a declaration is refused or not. -/
theorem IsIndexed.addTo (h : d.IsIndexed) (decl : Declaration) : (decl.addTo d).1.IsIndexed := by
  rcases hadd : decl.addTo d with ⟨d', _ | e⟩
  · obtain ⟨⟨-, hnew⟩, rfl⟩ := (Declaration.addTo_eq_done h).mp hadd
    exact h.extend (decl.map_path_nodes ▸ hnew) fun n hn => Declaration.lower_of_mem_nodes hn
  · exact (Declaration.addTo_eq_cut h hadd).isIndexed h

theorem isIndexed_afterAll (decls : List Declaration) : (afterAll decls).IsIndexed := by
  have hfold : ∀ d : Diagram, d.IsIndexed →
      (decls.foldl (fun d decl => (decl.addTo d).1) d).IsIndexed := by
    induction decls with
    | nil => exact fun _ h => h
    | cons decl decls ih => exact fun d h => ih _ (h.addTo decl)
  exact hfold empty isIndexed_empty

/-- **What adding a declaration does to a diagram**, whether it is refused or not. -/
structure Keeps (d : Diagram) (decl : Declaration) (c : Change) : Prop where
  /-- the nodes that were there keep their places and all that they say -/
  nodes : d.nodes <+: c.1.nodes
  /-- and so do the edges -/
  edges : d.edges <+: c.1.edges
  /-- no two nodes share a path -/
  distinct : c.1.paths.Nodup
  /-- a look-up finds the one node of the path, in any spelling, and nothing if there is none -/
  found : ∀ path n, c.1.find? path = some n ↔ n ∈ c.1.nodes ∧ n.path = Text.lower path
  /-- so every node is found under its own path -/
  own : ∀ n ∈ c.1.nodes, c.1.find? n.path = some n
  /-- a declaration that is added brings its nodes and edges -/
  added : c.2 = none → c.1 = d.extend decl.nodes decl.edges
  /-- it is refused for what it refers to or for a path -/
  fault : ∀ e, c.2 = some e → IsDeclarationFault e
  /-- if it is refused for what it refers to, nothing changes -/
  unchanged : ∀ e, c.2 = some e → (∀ path, e ≠ .duplicateNode path) → c.1 = d
  /-- if it is refused for a path, a node has that path -/
  taken : ∀ path, c.2 = some (.duplicateNode path) → ∃ n ∈ c.1.nodes, n.path = path ∧
    c.1.find? path = some n
  /-- and exactly what was to come before that path was added -/
  stopped : ∀ path, c.2 = some (.duplicateNode path) → ∃ before after,
    decl.paths = before ++ path :: after ∧ c.1.paths = d.paths ++ before

theorem extend_nil (d : Diagram) : d.extend [] [] = d := by
  rw [extend, List.append_nil, List.append_nil]

/-- What is left of a refused declaration comes behind what was there. -/
theorem Refuses.exists_extend (h : d.Refuses decl d' e) :
    ∃ nodes edges, d' = d.extend nodes edges := by
  cases h with
  | reference _ => exact ⟨[], [], d.extend_nil.symm⟩
  | taken _ => exact ⟨[], [], d.extend_nil.symm⟩
  | takenBelow _ _ _ => exact ⟨_, _, rfl⟩

/-- Where a declaration was refused for a path, that path is the next of its paths and is taken. -/
theorem Refuses.exists_paths {path : String} (h : d.Refuses decl d' (.duplicateNode path)) :
    path ∈ d'.paths ∧ ∃ before after,
      decl.paths = before ++ path :: after ∧ d'.paths = d.paths ++ before := by
  cases h with
  | reference h => exact absurd rfl (h.2 path)
  | taken h => exact ⟨h, [], _, rfl, (List.append_nil _).symm⟩
  | @takenBelow bs _ hcut _ htaken =>
    obtain ⟨after, hafter⟩ := hcut.exists_paths
    refine ⟨paths_extend _ _ ▸ htaken, (decl.withAttributes bs).paths, after, ?_, ?_⟩
    · rw [Declaration.paths, Declaration.paths, Declaration.path_withAttributes,
        Declaration.attributes_withAttributes, hafter, List.cons_append]
    · rw [paths_extend, Declaration.map_path_nodes]

theorem Refuses.eq_of_ne (h : d.Refuses decl d' e) (hne : ∀ path, e ≠ .duplicateNode path) :
    d' = d := by
  cases h with
  | reference _ => rfl
  | taken _ => exact absurd rfl (hne _)
  | takenBelow _ _ _ => exact absurd rfl (hne _)

theorem IsIndexed.find?_own (h : d.IsIndexed) {n : Node} (hn : n ∈ d.nodes) :
    d.find? n.path = some n :=
  h.find?_eq_some.mpr ⟨hn, (h.lower_path hn).symm⟩

theorem keeps_of_refuses (h : d.IsIndexed) (hrefuses : d.Refuses decl d' e) :
    d.Keeps decl (d', some e) := by
  have hindexed := hrefuses.isIndexed h
  obtain ⟨nodes, edges, hextend⟩ := hrefuses.exists_extend
  exact {
    nodes := hextend ▸ List.prefix_append _ _
    edges := hextend ▸ List.prefix_append _ _
    distinct := hindexed.nodup
    found := fun _ _ => hindexed.find?_eq_some
    own := fun _ => hindexed.find?_own
    added := nofun
    fault := fun e' he => Option.some.inj he ▸ hrefuses.isDeclarationFault
    unchanged := fun e' he hne => hrefuses.eq_of_ne (Option.some.inj he ▸ hne)
    taken := fun path he => by
      obtain ⟨n, hn, rfl⟩ := mem_paths.mp (Option.some.inj he ▸ hrefuses).exists_paths.1
      exact ⟨n, hn, rfl, hindexed.find?_own hn⟩
    stopped := fun path he => (Option.some.inj he ▸ hrefuses).exists_paths.2 }

/-- **Adding a declaration keeps what is there**, after any declarations, refused ones among
them. -/
theorem keeps_addTo (decls : List Declaration) (decl : Declaration) :
    (afterAll decls).Keeps decl (decl.addTo (afterAll decls)) := by
  have h := isIndexed_afterAll decls
  have hindexed := h.addTo decl
  rcases hadd : decl.addTo (afterAll decls) with ⟨d', _ | e⟩
  · rw [hadd] at hindexed
    obtain ⟨-, rfl⟩ := (Declaration.addTo_eq_done h).mp hadd
    exact {
      nodes := List.prefix_append _ _
      edges := List.prefix_append _ _
      distinct := hindexed.nodup
      found := fun _ _ => hindexed.find?_eq_some
      own := fun _ => hindexed.find?_own
      added := fun _ => rfl
      fault := nofun
      unchanged := nofun
      taken := nofun
      stopped := nofun }
  · exact keeps_of_refuses h (Declaration.addTo_eq_cut h hadd)

/-- Two parts of one name: what comes before the second of them stays, with its owner. -/
example :
    let c := (Declaration.entity ⟨"Person", .regular, none,
      [⟨"name", .composite, false, false, false, [⟨"first", .varchar, false, false, false, []⟩,
        ⟨"First", .varchar, false, false, false, []⟩]⟩,
        ⟨"age", .integer, false, false, false, []⟩]⟩).addTo empty
    c.1.paths = ["person", "person.name", "person.name.first"] ∧
      c.2 = some (.duplicateNode "person.name.first") := by
  decide +kernel

end Diagram

end EntityLayout
