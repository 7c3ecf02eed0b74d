/-
# The diagram of a schema in another case

Declarations may spell a name in any case; a diagram knows its nodes by small letters.  So two
schemas that differ in the case of letters have diagrams that differ in the names as they were
declared, and in nothing else.

* `SchemaDecl.caseless`, `Diagram.caseless`: with the letters of ASCII in all names made small.
* `Diagram.nodeAt_caseless`, `Diagram.endpoints_caseless`: look-ups find the same nodes.
* `Diagram.ofDecl_caseless`: **making letters small and building the diagram commute.**
-/
import EntityLayout.Proofs.Diagram.Listing
import EntityLayout.Proofs.Outcome

namespace EntityLayout

/-! ## 1. Declarations -/

namespace Attribute

mutual

/-- The attribute with small letters in its name and in those of its parts. -/
def caseless : Attribute → Attribute
  | ⟨name, type, primaryKey, discriminator, multivalued, parts⟩ =>
    ⟨Text.asciiLower name, type, primaryKey, discriminator, multivalued, caselessOf parts⟩

/-- Several attributes with small letters in their names. -/
def caselessOf : List Attribute → List Attribute
  | [] => []
  | a :: as => caseless a :: caselessOf as

end

end Attribute

/-- The entity with small letters in its name, in that of its parent and in its attributes. -/
def EntityDecl.caseless (e : EntityDecl) : EntityDecl where
  name := Text.asciiLower e.name
  kind := e.kind
  parent := e.parent.map Text.asciiLower
  attributes := Attribute.caselessOf e.attributes

/-- The side of a relationship with small letters in its name and role. -/
def Endpoint.caseless (p : Endpoint) : Endpoint :=
  ⟨Text.asciiLower p.name, p.role.map Text.asciiLower⟩

/-- The relationship with small letters in its name, in its sides and in its attributes. -/
def RelationshipDecl.caseless (r : RelationshipDecl) : RelationshipDecl where
  name := Text.asciiLower r.name
  first := r.first.caseless
  second := r.second.caseless
  attributes := Attribute.caselessOf r.attributes

/-- The schema with small letters in all its names. -/
def SchemaDecl.caseless (s : SchemaDecl) : SchemaDecl :=
  ⟨s.entities.map EntityDecl.caseless, s.relationships.map RelationshipDecl.caseless⟩

/-! ## 2. Nodes -/

/-- The entity with small letters in its name. -/
def EntityNode.caseless (e : EntityNode) : EntityNode := { e with name := Text.asciiLower e.name }

/-- The relationship with small letters in its name and roles. -/
def RelationshipNode.caseless (r : RelationshipNode) : RelationshipNode :=
  { r with
    name := Text.asciiLower r.name
    roles := r.roles.map (Prod.map Text.asciiLower Text.asciiLower) }

/-- The attribute with small letters in its name. -/
def AttributeNode.caseless (a : AttributeNode) : AttributeNode :=
  { a with name := Text.asciiLower a.name }

/-- The node with small letters in its name. -/
def Node.caseless : Node → Node
  | .entity e => .entity e.caseless
  | .relationship r => .relationship r.caseless
  | .attr a => .attr a.caseless

@[simp] theorem Node.path_caseless (n : Node) : n.caseless.path = n.path := by
  cases n <;> rfl

namespace Diagram

/-- The diagram with small letters in all names. -/
def caseless (d : Diagram) : Diagram := ⟨d.nodes.map Node.caseless, d.edges⟩

variable (d : Diagram) (path : String)

/-! ## 3. Looking up nodes -/

/-- The node of a path is the same, however nodes are spelled. -/
theorem find?_path_caseless (key : String) :
    d.caseless.nodes.find? (fun n => n.path = key) =
      (d.nodes.find? fun n => n.path = key).map Node.caseless := by
  have hkey : (fun n : Node => decide (n.path = key)) ∘ Node.caseless =
      fun n => decide (n.path = key) :=
    funext fun n => by rw [Function.comp_apply, Node.path_caseless]
  rw [caseless, List.find?_map, hkey]

/-- **A look-up finds the same node.** -/
theorem nodeAt_caseless : d.caseless.nodeAt path = (d.nodeAt path).map Node.caseless := by
  unfold nodeAt find?
  rw [find?_path_caseless]
  cases d.nodes.find? fun n => n.path = Text.lower path <;> rfl

/-- The spelling of a path does not matter. -/
@[simp] theorem nodeAt_asciiLower : d.nodeAt (Text.asciiLower path) = d.nodeAt path := by
  simp only [nodeAt, find?, Text.lower_asciiLower]

theorem entityAt_caseless :
    d.caseless.entityAt (Text.asciiLower path) = (d.entityAt path).map EntityNode.caseless := by
  rw [entityAt, entityAt, nodeAt_asciiLower, nodeAt_caseless]
  cases d.nodeAt path with
  | error e => rfl
  | ok n => cases n <;> rfl

theorem relationshipAt_caseless :
    d.caseless.relationshipAt path = (d.relationshipAt path).map RelationshipNode.caseless := by
  rw [relationshipAt, relationshipAt, nodeAt_caseless]
  cases d.nodeAt path with
  | error e => rfl
  | ok n => cases n <;> rfl

theorem related_caseless : d.caseless.related path = (d.related path).map EntityNode.caseless := by
  rw [related, related, List.map_filterMap]
  refine List.filterMap_congr fun e _ => ?_
  split
  · rw [find?_path_caseless]
    cases d.nodes.find? fun n => n.path = e.target with
    | none => rfl
    | some n => cases n <;> rfl
  · rfl

/-- **The ends of a relationship are the same.** -/
theorem endpoints_caseless : d.caseless.endpoints path =
    (d.endpoints path).map (Prod.map EntityNode.caseless EntityNode.caseless) := by
  rw [endpoints, endpoints, relationshipAt_caseless]
  cases d.relationshipAt path with
  | error e => rfl
  | ok r =>
    rw [show (Except.ok r).map RelationshipNode.caseless = .ok (ε := DiagramError) r.caseless from
      rfl, ok_bind, ok_bind, show r.caseless.path = r.path from rfl, related_caseless]
    match d.related r.path with
    | [] => rfl
    | [_] => rfl
    | [e₁, e₂] =>
      simp only [List.map_cons, List.map_nil]
      by_cases hends : e₁.path = r.first ∧ e₂.path = r.second
      · rw [if_pos hends]
        exact if_pos hends
      · rw [if_neg hends]
        exact if_neg hends
    | _ :: _ :: _ :: _ => rfl

end Diagram

/-! ## 4. Single steps -/

/-- The change with small letters in all names. -/
def Change.caseless (c : Change) : Change := (c.1.caseless, c.2)

theorem Change.andThen_caseless {next next' : Diagram → Change}
    (h : ∀ d : Diagram, next' d.caseless = (next d).caseless) (c : Change) :
    c.caseless.andThen next' = (c.andThen next).caseless := by
  obtain ⟨d, o⟩ := c
  cases o with
  | none => exact h d
  | some e => rfl

namespace Diagram

variable {d : Diagram} {owner path above : String} {parent : Option String}

theorem withFound_caseless {α β : Type} {f : α → β} {next : α → Change} {next' : β → Change}
    {found : Except DiagramError α} {found' : Except DiagramError β} (hfound : found' = found.map f)
    (h : ∀ a, next' (f a) = (next a).caseless) :
    d.caseless.withFound found' next' = (d.withFound found next).caseless := by
  subst hfound
  cases found with
  | error e => rfl
  | ok a => exact h a

theorem insertNode_caseless (n : Node) :
    d.caseless.insertNode n.caseless = (d.insertNode n).caseless := by
  have hany : (d.caseless.nodes.any fun m => m.path = n.path) =
      d.nodes.any fun m => m.path = n.path := by
    simp [caseless, List.any_map, Function.comp_def]
  rw [insertNode, insertNode, Node.path_caseless, hany]
  split
  · rfl
  · simp [Change.caseless, caseless]

theorem connect_caseless (kind : EdgeKind) (source target : String) :
    d.caseless.connect kind source target = (d.connect kind source target).caseless := by
  refine withFound_caseless (nodeAt_caseless d source) fun s => ?_
  refine withFound_caseless (nodeAt_caseless d target) fun t => ?_
  rw [Node.path_caseless, Node.path_caseless]
  rfl

/-- Nodes are replaced alike. -/
theorem updateNode_caseless (n : Node) :
    ((d.caseless.updateNode path fun _ => n.caseless, none) : Change) =
      Change.caseless (d.updateNode path fun _ => n, none) := by
  simp only [updateNode, caseless, Change.caseless, List.map_map, Prod.mk.injEq, Diagram.mk.injEq,
    and_true]
  refine List.map_congr_left fun m _ => ?_
  simp only [Function.comp_apply, Node.path_caseless]
  split <;> rfl

theorem recordOwned_caseless :
    d.caseless.recordOwned owner path = (d.recordOwned owner path).caseless := by
  refine withFound_caseless (nodeAt_caseless d owner) fun n => ?_
  cases n with
  | entity e =>
    exact updateNode_caseless (.entity { e with attributes := e.attributes ++ [path] })
  | relationship r =>
    exact updateNode_caseless (.relationship { r with attributes := r.attributes ++ [path] })
  | attr a => rfl

theorem recordPart_caseless (p : String) :
    d.caseless.recordPart p path = (d.recordPart p path).caseless := by
  refine withFound_caseless (nodeAt_caseless d p) fun n => ?_
  cases n with
  | attr a => exact updateNode_caseless (.attr { a with children := a.children ++ [path] })
  | entity e => rfl
  | relationship r => rfl

/-! ## 5. Attributes -/

theorem addAttributeNode_caseless (a : Attribute) :
    d.caseless.addAttributeNode a.caseless path owner parent =
      (d.addAttributeNode a path owner parent).caseless := by
  obtain ⟨name, type, primaryKey, discriminator, multivalued, parts⟩ := a
  have hinsert := insertNode_caseless (d := d) (.attr ⟨name, path, type, multivalued, primaryKey,
    discriminator, owner, parent, []⟩)
  rw [addAttributeNode, addAttributeNode]
  simp only [Attribute.caseless]
  rw [← Change.andThen_caseless, ← Change.andThen_caseless, ← hinsert]
  · rfl
  · exact fun d => recordOwned_caseless
  · intro d
    cases parent with
    | none => exact connect_caseless _ _ _
    | some p =>
      simp only
      rw [recordPart_caseless]
      exact Change.andThen_caseless (fun d => connect_caseless _ _ _) _

mutual

theorem addAttribute_caseless : ∀ (a : Attribute) {above owner : String} {parent : Option String}
    {d : Diagram}, addAttribute above owner parent a.caseless d.caseless =
      (addAttribute above owner parent a d).caseless
  | ⟨name, type, primaryKey, discriminator, multivalued, parts⟩, above, owner, parent, d => by
    rw [Attribute.caseless, addAttribute, addAttribute, Path.below_asciiLower,
      ← Attribute.caseless, addAttributeNode_caseless]
    refine Change.andThen_caseless (fun d => ?_) _
    split
    · exact addAttributes_caseless parts
    · rfl

/-- **Attributes are added alike.** -/
theorem addAttributes_caseless : ∀ (as : List Attribute) {above owner : String}
    {parent : Option String} {d : Diagram},
      addAttributes above owner parent (Attribute.caselessOf as) d.caseless =
        (addAttributes above owner parent as d).caseless
  | [], _, _, _, _ => rfl
  | a :: as, above, owner, parent, d => by
    rw [Attribute.caselessOf, addAttributes, addAttributes, addAttribute_caseless a]
    exact Change.andThen_caseless (fun d => addAttributes_caseless as) _

end

/-! ## 6. Entities and relationships -/

/-- The paths of parents are the same. -/
theorem parentOf_caseless (decl : EntityDecl) :
    d.caseless.parentOf decl.caseless = d.parentOf decl := by
  obtain ⟨name, kind, parent, attributes⟩ := decl
  have hlower : Text.lower (Text.asciiLower name) = Text.lower name := Text.lower_asciiLower name
  cases parent with
  | none => cases kind <;> simp [parentOf, EntityDecl.caseless, hlower]
  | some p =>
    have hparent : (d.caseless.entityAt (Text.asciiLower p) >>= fun e => pure (some e.path)) =
        d.entityAt p >>= fun e => pure (some e.path) := by
      rw [entityAt_caseless]
      cases d.entityAt p <;> rfl
    cases kind with
    | regular => rfl
    | weak => exact hparent
    | subclass => exact hparent

theorem addEntity_caseless (decl : EntityDecl) :
    d.caseless.addEntity decl.caseless = (d.addEntity decl).caseless := by
  have hpath : Text.lower decl.caseless.name = Text.lower decl.name := Text.lower_asciiLower _
  refine withFound_caseless (f := id) (by rw [Except.map_id, parentOf_caseless]; rfl) fun p => ?_
  rw [hpath, ← Change.andThen_caseless, ← Change.andThen_caseless, ← insertNode_caseless]
  · rfl
  · exact fun d => addAttributes_caseless decl.attributes
  · intro d
    cases p with
    | none => rfl
    | some p => exact connect_caseless _ _ _

theorem rolesOf_caseless (decl : RelationshipDecl) : rolesOf decl.caseless =
    (rolesOf decl).map (Option.map (Prod.map Text.asciiLower Text.asciiLower)) := by
  obtain ⟨name, ⟨first, role₁⟩, ⟨second, role₂⟩, attributes⟩ := decl
  cases role₁ <;> cases role₂ <;>
    simp [rolesOf, RelationshipDecl.caseless, Endpoint.caseless, Except.map]

theorem addRelationship_caseless (decl : RelationshipDecl) :
    d.caseless.addRelationship decl.caseless = (d.addRelationship decl).caseless := by
  have hpath : Text.lower decl.caseless.name = Text.lower decl.name := Text.lower_asciiLower _
  refine withFound_caseless (entityAt_caseless d decl.first.name) fun e₁ => ?_
  refine withFound_caseless (entityAt_caseless d decl.second.name) fun e₂ => ?_
  refine withFound_caseless (rolesOf_caseless decl) fun roles => ?_
  rw [hpath, ← Change.andThen_caseless, ← Change.andThen_caseless, ← Change.andThen_caseless,
    ← insertNode_caseless]
  · rfl
  · exact fun d => addAttributes_caseless decl.attributes
  · exact fun d => connect_caseless _ _ _
  · exact fun d => connect_caseless _ _ _

/-! ## 7. Whole schemas -/

theorem addAll_caseless {α : Type} {add : α → Diagram → Change} {f : α → α}
    (hadd : ∀ a (d : Diagram), add (f a) d.caseless = (add a d).caseless) :
    ∀ (as : List α) (d : Diagram),
      addAll add (as.map f) d.caseless = (addAll add as d).caseless
  | [], _ => rfl
  | a :: as, d => by
    rw [List.map_cons, addAll, addAll, hadd a d]
    exact Change.andThen_caseless (fun d => addAll_caseless hadd as d) _

/-- **The diagram of a schema in small letters is that of the schema**, in small letters; and where
there is none, the reason is the same. -/
theorem ofDecl_caseless (schema : SchemaDecl) :
    ofDecl schema.caseless = (ofDecl schema).map caseless := by
  have hempty : empty.caseless = empty := rfl
  have hentities := addAll_caseless (fun e d => addEntity_caseless (d := d) e) schema.entities empty
  rw [hempty] at hentities
  have hall := Change.andThen_caseless (addAll_caseless (fun r d => addRelationship_caseless (d := d) r)
    schema.relationships) (addAll addEntity schema.entities empty)
  rw [← hentities] at hall
  rw [ofDecl, ofDecl]
  simp only [SchemaDecl.caseless]
  rw [hall]
  obtain ⟨d, o⟩ := (addAll addEntity schema.entities empty).andThen
    (addAll addRelationship schema.relationships)
  cases o <;> rfl

end Diagram

end EntityLayout
