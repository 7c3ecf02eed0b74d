/-
# Adding attributes to a diagram

An attribute is added node by node, and each node goes back to its owner and to the attribute
around it to be listed there.  The outcome is that of one change: the nodes of the attribute
and its parts stand behind the others, and the owner lists all of them.

* `Diagram.grow`: that change.
* `Diagram.HasPlace`: where attributes can be added.
* `addAttributes_eq_done`: adding attributes succeeds iff their paths are new, and grows the
  diagram by them.
-/
import EntityLayout.Proofs.Diagram.Listing
import EntityLayout.Proofs.Diagram.Lookup

namespace EntityLayout

/-! ## 1. What is recorded in earlier nodes -/

namespace Node

/-- A node with more attributes, if it is their owner. -/
def adopt (owner : String) (owned : List String) : Node → Node
  | .entity e =>
    .entity (if e.path = owner then { e with attributes := e.attributes ++ owned } else e)
  | .relationship r =>
    .relationship (if r.path = owner then { r with attributes := r.attributes ++ owned } else r)
  | .attr a => .attr a

/-- A node with more parts, if it is the attribute around them. -/
def enclose (parent : Option String) (parts : List String) : Node → Node
  | .attr a =>
    .attr (if parent = some a.path then { a with children := a.children ++ parts } else a)
  | n => n

@[simp] theorem path_adopt (owner : String) (owned : List String) (n : Node) :
    (n.adopt owner owned).path = n.path := by
  cases n <;> simp only [adopt, path] <;> split <;> rfl

@[simp] theorem kind_adopt (owner : String) (owned : List String) (n : Node) :
    (n.adopt owner owned).kind = n.kind := by
  cases n <;> rfl

@[simp] theorem path_enclose (parent : Option String) (parts : List String) (n : Node) :
    (n.enclose parent parts).path = n.path := by
  cases n with
  | attr a => simp only [enclose, path]; split <;> rfl
  | _ => rfl

@[simp] theorem kind_enclose (parent : Option String) (parts : List String) (n : Node) :
    (n.enclose parent parts).kind = n.kind := by
  cases n <;> rfl

@[simp] theorem enclose_none (parts : List String) (n : Node) : n.enclose none parts = n := by
  cases n <;> rfl

theorem adopt_of_ne {owner : String} {owned : List String} {n : Node} (h : n.path ≠ owner) :
    n.adopt owner owned = n := by
  cases n with
  | entity e => simp only [adopt, if_neg (show ¬e.path = owner from h)]
  | relationship r => simp only [adopt, if_neg (show ¬r.path = owner from h)]
  | attr a => rfl

theorem enclose_of_ne {parent : Option String} {parts : List String} {n : Node}
    (h : parent ≠ some n.path) : n.enclose parent parts = n := by
  cases n with
  | attr a => simp only [enclose, if_neg (show ¬parent = some a.path from h)]
  | _ => rfl

@[simp] theorem adopt_nil (owner : String) (n : Node) : n.adopt owner [] = n := by
  cases n <;> simp [adopt]

@[simp] theorem enclose_nil (parent : Option String) (n : Node) : n.enclose parent [] = n := by
  cases n <;> simp [enclose]

theorem adopt_adopt (owner : String) (xs ys : List String) (n : Node) :
    (n.adopt owner xs).adopt owner ys = n.adopt owner (xs ++ ys) := by
  cases n with
  | entity e => by_cases h : e.path = owner <;> simp [adopt, h]
  | relationship r => by_cases h : r.path = owner <;> simp [adopt, h]
  | attr a => rfl

theorem enclose_enclose (parent : Option String) (xs ys : List String) (n : Node) :
    (n.enclose parent xs).enclose parent ys = n.enclose parent (xs ++ ys) := by
  cases n with
  | attr a => by_cases h : parent = some a.path <;> simp [enclose, h]
  | _ => rfl

theorem adopt_enclose (owner : String) (parent : Option String) (xs ys : List String) (n : Node) :
    (n.enclose parent ys).adopt owner xs = (n.adopt owner xs).enclose parent ys := by
  cases n <;> rfl

/-- A node after attributes of `owner` were added within `parent`. -/
def grow (owner : String) (parent : Option String) (owned parts : List String) (n : Node) :
    Node :=
  (n.adopt owner owned).enclose parent parts

@[simp] theorem path_grow (owner : String) (parent : Option String) (owned parts : List String)
    (n : Node) : (n.grow owner parent owned parts).path = n.path := by
  simp [grow]

@[simp] theorem kind_grow (owner : String) (parent : Option String) (owned parts : List String)
    (n : Node) : (n.grow owner parent owned parts).kind = n.kind := by
  simp [grow]

theorem grow_grow (owner : String) (parent : Option String) (xs xs' ys ys' : List String)
    (n : Node) : (n.grow owner parent xs ys).grow owner parent xs' ys' =
      n.grow owner parent (xs ++ xs') (ys ++ ys') := by
  rw [grow, grow, adopt_enclose, adopt_adopt, enclose_enclose, grow]

end Node

/-! ## 2. Single changes -/

theorem Change.andThen_eq_done {c : Change} {next : Diagram → Change} {d' : Diagram} :
    c.andThen next = (d', none) ↔ ∃ d, c = (d, none) ∧ next d = (d', none) := by
  obtain ⟨d, e⟩ := c
  cases e <;> simp [andThen]

namespace Diagram

variable {d d' : Diagram}

theorem withFound_eq_done {α : Type} {found : Except DiagramError α} {next : α → Change} :
    d.withFound found next = (d', none) ↔ ∃ a, found = .ok a ∧ next a = (d', none) := by
  cases found <;> simp [withFound]

theorem insertNode_eq_done {n : Node} :
    d.insertNode n = (d', none) ↔ n.path ∉ d.paths ∧ d' = ⟨d.nodes ++ [n], d.edges⟩ := by
  rw [insertNode]
  split
  · next h =>
    have h' : n.path ∈ d.paths := by simpa [mem_paths] using h
    simp [h']
  · next h =>
    have h' : n.path ∉ d.paths := by simpa [mem_paths] using h
    simp [h', eq_comm]

theorem IsIndexed.insert (h : d.IsIndexed) {n : Node} (hn : n.path ∉ d.paths)
    (hlow : Text.lower n.path = n.path) : IsIndexed ⟨d.nodes ++ [n], d.edges⟩ where
  nodup := by
    rw [paths, List.map_append, List.nodup_append]
    refine ⟨h.nodup, by simp, ?_⟩
    rintro p hp q hq rfl
    rw [List.map_singleton, List.mem_singleton] at hq
    exact hn (hq ▸ hp)
  lowered := by
    intro p hp
    rw [paths, List.map_append, List.mem_append, List.map_singleton, List.mem_singleton] at hp
    rcases hp with hp | rfl
    · exact h.lowered p hp
    · exact hlow

theorem paths_map {f : Node → Node} (hf : ∀ n, (f n).path = n.path) (ns : List Node)
    (es : List Edge) : paths ⟨ns.map f, es⟩ = ns.map Node.path := by
  rw [paths, List.map_map]
  exact List.map_congr_left fun n _ => hf n

/-- Changing nodes under their paths keeps look-ups exact. -/
theorem IsIndexed.map (h : d.IsIndexed) {f : Node → Node} (hf : ∀ n, (f n).path = n.path) :
    IsIndexed ⟨d.nodes.map f, d.edges⟩ :=
  ⟨by rw [paths_map hf]; exact h.nodup, by rw [paths_map hf]; exact h.lowered⟩

theorem nodeAt_eq_ok_of_mem (h : d.IsIndexed) {n : Node} (hn : n ∈ d.nodes) :
    d.nodeAt n.path = .ok n :=
  h.nodeAt_eq_ok.mpr ⟨hn, (h.lower_path hn).symm⟩

/-- An edge needs both of its ends. -/
theorem connect_eq_done (h : d.IsIndexed) {kind : EdgeKind} {source target : String} :
    d.connect kind source target = (d', none) ↔
      (Text.lower source ∈ d.paths ∧ Text.lower target ∈ d.paths) ∧
        d' = ⟨d.nodes, d.edges ++ [⟨kind, Text.lower source, Text.lower target⟩]⟩ := by
  rw [connect, withFound_eq_done]
  constructor
  · rintro ⟨s, hs, ht⟩
    obtain ⟨t, ht, hd⟩ := withFound_eq_done.mp ht
    obtain ⟨hs, hsp⟩ := h.nodeAt_eq_ok.mp hs
    obtain ⟨ht, htp⟩ := h.nodeAt_eq_ok.mp ht
    rw [Prod.mk.injEq] at hd
    exact ⟨⟨hsp ▸ path_mem_paths hs, htp ▸ path_mem_paths ht⟩, by rw [← hd.1, hsp, htp]⟩
  · rintro ⟨⟨hs, ht⟩, rfl⟩
    obtain ⟨s, hs, hsp⟩ := mem_paths.mp hs
    obtain ⟨t, ht, htp⟩ := mem_paths.mp ht
    refine ⟨s, h.nodeAt_eq_ok.mpr ⟨hs, hsp⟩, ?_⟩
    rw [withFound_eq_done]
    exact ⟨t, h.nodeAt_eq_ok.mpr ⟨ht, htp⟩, by rw [hsp, htp]⟩

/-- An edge between two nodes that are there. -/
theorem connect_eq (h : d.IsIndexed) (kind : EdgeKind) {source target : String}
    (hs : source ∈ d.paths) (ht : target ∈ d.paths) :
    d.connect kind source target = (⟨d.nodes, d.edges ++ [⟨kind, source, target⟩]⟩, none) := by
  rw [connect_eq_done h, h.lowered _ hs, h.lowered _ ht]
  exact ⟨⟨hs, ht⟩, rfl⟩

/-- Changing the one node of a path is changing every node as if it were that one. -/
theorem updateNode_eq (h : d.IsIndexed) {n : Node} (hn : n ∈ d.nodes) {f : Node → Node}
    (hf : ∀ m : Node, m.path ≠ n.path → f m = m) :
    d.updateNode n.path (fun _ => f n) = ⟨d.nodes.map f, d.edges⟩ := by
  rw [updateNode]
  congr 1
  refine List.map_congr_left fun m hm => ?_
  split
  · next hp => rw [h.eq_of_path hm hn hp]
  · next hp => exact (hf m hp).symm

theorem recordOwned_eq (h : d.IsIndexed) {owner path : String} {n : Node} (hn : n ∈ d.nodes)
    (hp : n.path = owner) (hkind : n.kind ≠ .attr) :
    d.recordOwned owner path = (⟨d.nodes.map (Node.adopt owner [path]), d.edges⟩, none) := by
  have hupdate := updateNode_eq h hn (f := Node.adopt owner [path]) fun m hm =>
    Node.adopt_of_ne (hp ▸ hm)
  subst hp
  rw [recordOwned, nodeAt_eq_ok_of_mem h hn, ← hupdate]
  cases n with
  | entity e => simp [withFound, Node.adopt, Node.path]
  | relationship r => simp [withFound, Node.adopt, Node.path]
  | attr a => exact absurd rfl hkind

theorem recordPart_eq (h : d.IsIndexed) {parent path : String} {n : Node} (hn : n ∈ d.nodes)
    (hp : n.path = parent) (hkind : n.kind = .attr) :
    d.recordPart parent path =
      (⟨d.nodes.map (Node.enclose (some parent) [path]), d.edges⟩, none) := by
  have hupdate := updateNode_eq h hn (f := Node.enclose (some parent) [path]) fun m hm =>
    Node.enclose_of_ne (by rw [← hp]; exact fun e => hm (Option.some.inj e).symm)
  subst hp
  rw [recordPart, nodeAt_eq_ok_of_mem h hn, ← hupdate]
  cases n with
  | attr a => simp [withFound, Node.enclose, Node.path]
  | entity e => exact absurd hkind (by simp [Node.kind])
  | relationship r => exact absurd hkind (by simp [Node.kind])

/-! ## 3. Attributes -/

/-- The diagram after attributes of `owner` were added within `parent`. -/
def grow (owner : String) (parent : Option String) (owned parts : List String)
    (added : List AttributeNode) (edges : List Edge) (d : Diagram) : Diagram :=
  ⟨d.nodes.map (Node.grow owner parent owned parts) ++ added.map .attr, d.edges ++ edges⟩

/-- The diagram has the owner of attributes to be added, and the attribute around them. -/
structure HasPlace (d : Diagram) (owner : String) (parent : Option String) : Prop where
  indexed : d.IsIndexed
  owner : ∃ n ∈ d.nodes, n.path = owner ∧ n.kind ≠ .attr
  parent : ∀ p ∈ parent, ∃ n ∈ d.nodes, n.path = p ∧ n.kind = .attr

/-- The kind of the edge to an attribute within `parent`. -/
def edgeKind (parent : Option String) : EdgeKind :=
  if parent.isSome then .hasPart else .hasAttribute

/-- Adding attributes succeeds with their paths being new, and grows the diagram by them. -/
def Grows (above owner : String) (parent : Option String) (as : List Attribute)
    (d d' : Diagram) : Prop :=
  (d.paths ++ (Attribute.nodesOf above owner parent as).map AttributeNode.path).Nodup ∧
    d' = d.grow owner parent ((Attribute.nodesOf above owner parent as).map AttributeNode.path)
      (as.map (Attribute.pathBelow above)) (Attribute.nodesOf above owner parent as)
      (Attribute.edgesOf (edgeKind parent) above as)

section

variable {above owner path : String} {parent : Option String} {owned parts : List String}
  {added : List AttributeNode} {edges : List Edge}

@[simp] theorem paths_grow :
    (d.grow owner parent owned parts added edges).paths =
      d.paths ++ added.map AttributeNode.path := by
  rw [grow, paths, List.map_append, List.map_map, List.map_map]
  exact congrArg (· ++ _) (List.map_congr_left fun n _ => Node.path_grow owner parent owned parts n)

theorem mem_nodes_grow {n : Node} (h : n ∈ d.nodes) :
    n.grow owner parent owned parts ∈ (d.grow owner parent owned parts added edges).nodes :=
  List.mem_append_left _ (List.mem_map_of_mem h)

/-- Growing by new paths in small letters keeps look-ups exact. -/
theorem IsIndexed.grow (h : d.IsIndexed)
    (hnew : (d.paths ++ added.map AttributeNode.path).Nodup)
    (hlow : ∀ a ∈ added, Text.lower a.path = a.path) :
    (d.grow owner parent owned parts added edges).IsIndexed where
  nodup := by
    rw [paths_grow]
    exact hnew
  lowered := by
    intro p hp
    rw [paths_grow, List.mem_append] at hp
    rcases hp with hp | hp
    · exact h.lowered p hp
    · obtain ⟨a, ha, rfl⟩ := List.mem_map.mp hp
      exact hlow a ha

/-- Growing keeps the places where attributes can be added. -/
theorem HasPlace.grow {place : Option String} (h : d.HasPlace owner place)
    (hnew : (d.paths ++ added.map AttributeNode.path).Nodup)
    (hlow : ∀ a ∈ added, Text.lower a.path = a.path) :
    (d.grow owner parent owned parts added edges).HasPlace owner place where
  indexed := h.indexed.grow hnew hlow
  owner := by
    obtain ⟨n, hn, hp, hk⟩ := h.owner
    exact ⟨_, mem_nodes_grow hn, by simpa using hp, by simpa using hk⟩
  parent := by
    intro p hp
    obtain ⟨n, hn, hp, hk⟩ := h.parent p hp
    exact ⟨_, mem_nodes_grow hn, by simpa using hp, by simpa using hk⟩

/-- The node of an attribute before any of its parts was added. -/
def bareNode (above owner : String) (parent : Option String) (a : Attribute) : AttributeNode :=
  { a.node above owner parent with children := [] }

/-- The last step for a node: listing it in the attribute around it and tying it on. -/
theorem tie_eq (h : d.IsIndexed) (hpath : path ∈ d.paths) (howner : owner ∈ d.paths)
    (hparent : ∀ p ∈ parent, ∃ n ∈ d.nodes, n.path = p ∧ n.kind = .attr) :
    (match parent with
      | some p => (d.recordPart p path).andThen (connect .hasPart p path)
      | none => d.connect .hasAttribute owner path) =
      (⟨d.nodes.map (Node.enclose parent [path]),
        d.edges ++ [⟨edgeKind parent, parent.getD owner, path⟩]⟩, none) := by
  cases parent with
  | none =>
    have hnodes : d.nodes.map (Node.enclose none [path]) = d.nodes :=
      (List.map_congr_left fun n _ => Node.enclose_none [path] n).trans d.nodes.map_id
    rw [hnodes]
    exact connect_eq h _ howner hpath
  | some p =>
    obtain ⟨n, hn, hnp, hk⟩ := hparent p rfl
    have h' := h.map (f := Node.enclose (some p) [path]) (Node.path_enclose (some p) [path])
    have hpaths := paths_map (Node.path_enclose (some p) [path]) d.nodes d.edges
    refine Change.andThen_eq_done.mpr ⟨_, recordPart_eq h hn hnp hk, connect_eq h' _ ?_ ?_⟩
    · rw [hpaths]
      exact mem_paths.mpr ⟨n, hn, hnp⟩
    · rw [hpaths]
      exact hpath

/-- A node whose path is new is listed where it belongs and tied on. -/
theorem addAttributeNode_eq (h : d.HasPlace owner parent) (habove : above = parent.getD owner)
    {a : Attribute} (hnew : a.pathBelow above ∉ d.paths) :
    d.addAttributeNode a (a.pathBelow above) owner parent =
      (d.grow owner parent [a.pathBelow above] [a.pathBelow above]
        [bareNode above owner parent a] [⟨edgeKind parent, above, a.pathBelow above⟩], none) := by
  obtain ⟨n, hn, hnp, hk⟩ := h.owner
  have hinsert : d.insertNode (.attr (bareNode above owner parent a)) =
      (⟨d.nodes ++ [.attr (bareNode above owner parent a)], d.edges⟩, none) :=
    insertNode_eq_done.mpr ⟨hnew, rfl⟩
  have h₁ : IsIndexed ⟨d.nodes ++ [.attr (bareNode above owner parent a)], d.edges⟩ :=
    h.indexed.insert hnew (a.lower_pathBelow above)
  refine Change.andThen_eq_done.mpr ⟨_, Change.andThen_eq_done.mpr ⟨_, hinsert,
    recordOwned_eq h₁ (List.mem_append_left _ hn) hnp hk⟩, ?_⟩
  refine (tie_eq (h₁.map (Node.path_adopt owner _)) ?_ ?_ ?_).trans ?_
  · rw [paths_map (Node.path_adopt owner _)]
    exact List.mem_map_of_mem (List.mem_append_right _ List.mem_cons_self)
  · rw [paths_map (Node.path_adopt owner _), ← hnp]
    exact List.mem_map_of_mem (List.mem_append_left _ hn)
  · intro p hp
    obtain ⟨m, hm, hmp, hmk⟩ := h.parent p hp
    exact ⟨_, List.mem_map_of_mem (List.mem_append_left _ hm), by simpa using hmp,
      by simpa using hmk⟩
  · have hbare : (Node.attr (bareNode above owner parent a)).enclose parent
        [a.pathBelow above] = .attr (bareNode above owner parent a) := by
      refine Node.enclose_of_ne fun hp => ?_
      obtain ⟨m, hm, hmp, -⟩ := h.parent _ hp
      exact hnew (mem_paths.mpr ⟨m, hm, hmp⟩)
    rw [grow, List.map_append, List.map_append, List.map_map, habove]
    simp only [List.map_cons, List.map_nil, Node.adopt]
    rw [← habove, hbare]
    rfl

/-- **Adding a node succeeds iff its path is new.** -/
theorem addAttributeNode_eq_done (h : d.HasPlace owner parent) (habove : above = parent.getD owner)
    (a : Attribute) :
    d.addAttributeNode a (a.pathBelow above) owner parent = (d', none) ↔
      a.pathBelow above ∉ d.paths ∧
        d' = d.grow owner parent [a.pathBelow above] [a.pathBelow above]
          [bareNode above owner parent a] [⟨edgeKind parent, above, a.pathBelow above⟩] := by
  constructor
  · intro hadd
    have hnew : a.pathBelow above ∉ d.paths := by
      obtain ⟨d₂, h₂, -⟩ := Change.andThen_eq_done.mp hadd
      obtain ⟨d₁, h₁, -⟩ := Change.andThen_eq_done.mp h₂
      exact (insertNode_eq_done.mp h₁).1
    rw [addAttributeNode_eq h habove hnew, Prod.mk.injEq] at hadd
    exact ⟨hnew, hadd.1.symm⟩
  · rintro ⟨hnew, rfl⟩
    exact addAttributeNode_eq h habove hnew

end

section

variable {above owner : String} {parent : Option String} {a : Attribute} {as : List Attribute}

theorem HasPlace.parent_mem_paths (h : d.HasPlace owner parent) {p : String} (hp : p ∈ parent) :
    p ∈ d.paths := by
  obtain ⟨n, hn, hnp, -⟩ := h.parent p hp
  exact mem_paths.mpr ⟨n, hn, hnp⟩

/-- What was added is where attributes can be added, too. -/
theorem Grows.hasPlace (h : d.HasPlace owner parent) (hg : Grows above owner parent as d d') :
    d'.HasPlace owner parent := by
  obtain ⟨hnew, rfl⟩ := hg
  exact h.grow hnew fun a ha => Attribute.lower_of_mem_nodesOf ha

/-- Once the node of an attribute is there, its parts have a place within it. -/
theorem HasPlace.within {owned parts : List String} {es : List Edge} (h : d.HasPlace owner parent)
    (hnew : a.pathBelow above ∉ d.paths) :
    (d.grow owner parent owned parts [bareNode above owner parent a] es).HasPlace owner
      (some (a.pathBelow above)) := by
  have hnodup : (d.paths ++ [bareNode above owner parent a].map AttributeNode.path).Nodup := by
    rw [List.map_singleton, List.nodup_append]
    refine ⟨h.indexed.nodup, by simp, ?_⟩
    intro p hp q hq e
    rw [List.mem_singleton] at hq
    exact hnew (show (bareNode above owner parent a).path ∈ d.paths from hq ▸ e ▸ hp)
  have hgrow : (d.grow owner parent owned parts [bareNode above owner parent a] es).HasPlace owner
      parent := h.grow hnodup fun b hb => by
    rw [List.mem_singleton.mp hb]
    exact a.lower_pathBelow above
  refine ⟨hgrow.indexed, hgrow.owner, ?_⟩
  rintro p ⟨rfl⟩
  exact ⟨_, List.mem_append_right _ (List.mem_map_of_mem List.mem_cons_self), rfl, rfl⟩

/-- More attributes of the same owner within the same attribute, which is none of those that
were added before. -/
theorem grow_grow {xs xs' ys ys' : List String} {added added' : List AttributeNode}
    {es es' : List Edge} (h : ∀ a ∈ added, parent ≠ some a.path) :
    (d.grow owner parent xs ys added es).grow owner parent xs' ys' added' es' =
      d.grow owner parent (xs ++ xs') (ys ++ ys') (added ++ added') (es ++ es') := by
  have hold : (d.nodes.map (Node.grow owner parent xs ys)).map (Node.grow owner parent xs' ys') =
      d.nodes.map (Node.grow owner parent (xs ++ xs') (ys ++ ys')) := by
    rw [List.map_map]
    exact List.map_congr_left fun n _ => Node.grow_grow owner parent xs xs' ys ys' n
  have hadded : (added.map Node.attr).map (Node.grow owner parent xs' ys') =
      added.map .attr := by
    rw [List.map_map]
    exact List.map_congr_left fun a ha => Node.enclose_of_ne (n := .attr a) (h a ha)
  simp only [grow, List.map_append, hold, hadded, List.append_assoc]

/-- Attributes of the same owner within the one that was just added. -/
theorem grow_grow_within {xs xs' ys ys' : List String} (bare : AttributeNode)
    {added' : List AttributeNode} {es es' : List Edge} (h : bare.path ∉ d.paths) :
    (d.grow owner parent xs ys [bare] es).grow owner (some bare.path) xs' ys' added' es' =
      d.grow owner parent (xs ++ xs') ys ({ bare with children := bare.children ++ ys' } :: added')
        (es ++ es') := by
  have hold : (d.nodes.map (Node.grow owner parent xs ys)).map
      (Node.grow owner (some bare.path) xs' ys') =
      d.nodes.map (Node.grow owner parent (xs ++ xs') ys) := by
    rw [List.map_map]
    refine List.map_congr_left fun n hn => ?_
    have hne : some bare.path ≠ some n.path := fun e =>
      h (Option.some.inj e ▸ path_mem_paths hn)
    show Node.enclose _ _ (Node.adopt _ _ (Node.enclose _ _ (Node.adopt _ _ n))) = _
    rw [Node.enclose_of_ne (by simpa using hne), Node.adopt_enclose, Node.adopt_adopt]
    rfl
  have hbare : (Node.attr bare).grow owner (some bare.path) xs' ys' =
      .attr { bare with children := bare.children ++ ys' } := by
    simp [Node.grow, Node.adopt, Node.enclose]
  simp only [grow, List.map_append, hold, List.map_cons, List.map_nil, hbare, List.append_assoc,
    List.cons_append, List.nil_append]

theorem grows_nil (h : d.IsIndexed) : Grows above owner parent [] d d' ↔ d' = d := by
  have hnodes : d.nodes.map (Node.grow owner parent [] []) = d.nodes :=
    (List.map_congr_left fun n _ => by simp [Node.grow]).trans d.nodes.map_id
  have hgrow : d.grow owner parent [] [] [] [] = d := by
    simp only [grow, hnodes, List.map_nil, List.append_nil]
  simp only [Grows, Attribute.nodesOf, Attribute.edgesOf, List.map_nil, List.append_nil, hgrow]
  exact ⟨And.right, fun hd => ⟨h.nodup, hd⟩⟩

/-- Adding several attributes is adding the first, then the others. -/
theorem grows_cons (h : d.HasPlace owner parent) : Grows above owner parent (a :: as) d d' ↔
    ∃ d₁, Grows above owner parent [a] d d₁ ∧ Grows above owner parent as d₁ d' := by
  have hcons : ∀ d₁, Grows above owner parent [a] d d₁ →
      (Grows above owner parent as d₁ d' ↔ Grows above owner parent (a :: as) d d') := by
    rintro _ ⟨hnew, rfl⟩
    have hne : ∀ b ∈ Attribute.nodesOf above owner parent [a], parent ≠ some b.path := by
      intro b hb hp
      exact (List.nodup_append.mp hnew).2.2 _ (h.parent_mem_paths hp) _
        (List.mem_map_of_mem hb) rfl
    rw [Grows, Grows, paths_grow, grow_grow hne]
    simp [Attribute.nodesOf, Attribute.edgesOf]
  constructor
  · intro hall
    have hfirst : Grows above owner parent [a] d _ := ⟨?_, rfl⟩
    · exact ⟨_, hfirst, (hcons _ hfirst).mpr hall⟩
    · have hnew := hall.1
      rw [Attribute.nodesOf, List.map_append, ← List.append_assoc] at hnew
      simpa [Attribute.nodesOf] using (List.nodup_append.mp hnew).1
  · rintro ⟨d₁, hfirst, hrest⟩
    exact (hcons d₁ hfirst).mp hrest

/-- Adding an attribute is adding its node, then its parts. -/
theorem grows_single : Grows above owner parent [a] d d' ↔
    a.pathBelow above ∉ d.paths ∧
      Grows (a.pathBelow above) owner (some (a.pathBelow above)) a.shownParts
        (d.grow owner parent [a.pathBelow above] [a.pathBelow above]
          [bareNode above owner parent a] [⟨edgeKind parent, above, a.pathBelow above⟩]) d' := by
  have hnodes : Attribute.nodesOf above owner parent [a] = a.node above owner parent ::
      Attribute.nodesOf (a.pathBelow above) owner (some (a.pathBelow above)) a.shownParts := by
    rw [Attribute.nodesOf, Attribute.nodesOf, List.append_nil, Attribute.nodes_eq]
  have hedges : Attribute.edgesOf (edgeKind parent) above [a] =
      ⟨edgeKind parent, above, a.pathBelow above⟩ ::
        Attribute.edgesOf .hasPart (a.pathBelow above) a.shownParts := by
    rw [Attribute.edgesOf, Attribute.edgesOf, List.append_nil, Attribute.edges_eq]
  have hsame : a.pathBelow above ∉ d.paths →
      (Grows (a.pathBelow above) owner (some (a.pathBelow above)) a.shownParts
        (d.grow owner parent [a.pathBelow above] [a.pathBelow above]
          [bareNode above owner parent a] [⟨edgeKind parent, above, a.pathBelow above⟩]) d' ↔
        Grows above owner parent [a] d d') := by
    intro hnew
    rw [Grows, Grows, paths_grow, hnodes, hedges,
      show some (a.pathBelow above) = some (bareNode above owner parent a).path from rfl,
      grow_grow_within (bareNode above owner parent a) hnew]
    simp [bareNode, Attribute.node, edgeKind]
  constructor
  · intro hall
    have hnew : a.pathBelow above ∉ d.paths := by
      have hnodup := hall.1
      rw [hnodes] at hnodup
      exact fun hp => (List.nodup_append.mp hnodup).2.2 _ hp _ List.mem_cons_self rfl
    exact ⟨hnew, (hsame hnew).mpr hall⟩
  · rintro ⟨hnew, hparts⟩
    exact (hsame hnew).mp hparts

mutual

theorem addAttribute_eq_done : ∀ (a : Attribute) {above owner : String} {parent : Option String}
    {d d' : Diagram}, d.HasPlace owner parent → above = parent.getD owner →
      (addAttribute above owner parent a d = (d', none) ↔ Grows above owner parent [a] d d')
  | ⟨name, type, primaryKey, discriminator, multivalued, parts⟩, above, owner, parent, d, d',
      h, habove => by
    rw [addAttribute, Change.andThen_eq_done, grows_single]
    -- the parts, or nothing where the type is not composite
    have hparts : ∀ {d₁ : Diagram} {path : String}, d₁.HasPlace owner (some path) →
        ((if type.isComposite then addAttributes path owner (some path) parts d₁
            else (d₁, none)) = (d', none) ↔
          Grows path owner (some path)
            (Attribute.shownParts
              ⟨name, type, primaryKey, discriminator, multivalued, parts⟩) d₁ d') := by
      intro d₁ path h₁
      unfold Attribute.shownParts Attribute.isComposite
      split
      · exact addAttributes_eq_done parts h₁ rfl
      · rw [Prod.mk.injEq, grows_nil h₁.indexed]
        simp [eq_comm]
    constructor
    · rintro ⟨d₁, hnode, hrest⟩
      obtain ⟨hnew, rfl⟩ := (addAttributeNode_eq_done h habove _).mp hnode
      exact ⟨hnew, (hparts (h.within hnew)).mp hrest⟩
    · rintro ⟨hnew, hrest⟩
      exact ⟨_, (addAttributeNode_eq_done h habove _).mpr ⟨hnew, rfl⟩,
        (hparts (h.within hnew)).mpr hrest⟩

/-- **Adding attributes succeeds iff their paths are new**, and grows the diagram by them. -/
theorem addAttributes_eq_done : ∀ (as : List Attribute) {above owner : String}
    {parent : Option String} {d d' : Diagram}, d.HasPlace owner parent →
      above = parent.getD owner →
        (addAttributes above owner parent as d = (d', none) ↔ Grows above owner parent as d d')
  | [], _, _, _, d, d', h, _ => by
    rw [addAttributes, Prod.mk.injEq, grows_nil h.indexed]
    simp [eq_comm]
  | a :: as, above, owner, parent, d, d', h, habove => by
    rw [addAttributes, Change.andThen_eq_done, grows_cons h]
    refine exists_congr fun d₁ => ?_
    rw [addAttribute_eq_done a h habove]
    exact and_congr_right fun hg => addAttributes_eq_done as (hg.hasPlace h) habove

end

end

end Diagram

end EntityLayout
