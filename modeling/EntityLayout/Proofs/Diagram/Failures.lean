/-
# Why a schema has no diagram

A declaration cannot be added if it refers to what is not there or takes a path that is taken.
Everything else that adding it looks up was put there before, so those look-ups do not fail.
What was added up to a path that is taken stays: it is what a shorter declaration would have
brought.

* `Diagram.nodeAt_eq_error`, `Diagram.entityAt_eq_error`: what look-ups fail for.
* `Attribute.IsCutAt`: the attributes that come before one of them.
* `Diagram.IsDeclarationFault`: what declarations can be refused for.
* `Diagram.Refuses`: how a declaration is refused, and what is left of it.
* `Diagram.isDeclarationFault_of_ofDecl`: **building fails for nothing else.**
-/
import EntityLayout.Proofs.Diagram.Building

namespace EntityLayout

/-- `bs` is what comes before the attribute of that path: the attributes before it in the list and,
if it is a part, the composite attribute around it with the parts before it. -/
inductive Attribute.IsCutAt : (above : String) → (as bs : List Attribute) → (path : String) → Prop
  | here {above : String} {a : Attribute} {as : List Attribute} :
      IsCutAt above (a :: as) [] (a.pathBelow above)
  | within {above path : String} {a : Attribute} {as parts : List Attribute} :
      IsCutAt (a.pathBelow above) a.shownParts parts path →
        IsCutAt above (a :: as) [{ a with parts }] path
  | later {above path : String} {a : Attribute} {as bs : List Attribute} :
      IsCutAt above as bs path → IsCutAt above (a :: as) (a :: bs) path

/-- Behind the attribute that is cut at, the list may go on. -/
theorem Attribute.IsCutAt.append {above path : String} {as bs : List Attribute}
    (h : IsCutAt above as bs path) (rest : List Attribute) : IsCutAt above (as ++ rest) bs path := by
  induction h with
  | here => exact .here
  | within h _ => exact .within h
  | later _ ih => exact .later ih

/-! ## 1. Changes cut short -/

theorem Change.andThen_eq_cut {c : Change} {next : Diagram → Change} {d' : Diagram}
    {e : DiagramError} : c.andThen next = (d', some e) ↔
      c = (d', some e) ∨ ∃ d, c = (d, none) ∧ next d = (d', some e) := by
  obtain ⟨d, o⟩ := c
  cases o <;> simp [andThen]

namespace Diagram

variable {d d' : Diagram} {e : DiagramError} {path : String}

theorem withFound_eq_cut {α : Type} {found : Except DiagramError α} {next : α → Change} :
    d.withFound found next = (d', some e) ↔
      found = .error e ∧ d' = d ∨ ∃ a, found = .ok a ∧ next a = (d', some e) := by
  cases found <;> simp [withFound, eq_comm, and_comm]

theorem insertNode_eq_cut {n : Node} : d.insertNode n = (d', some e) ↔
    n.path ∈ d.paths ∧ d' = d ∧ e = .duplicateNode n.path := by
  rw [insertNode]
  split
  · next h =>
    have h' : n.path ∈ d.paths := by simpa [mem_paths] using h
    simp [h', eq_comm]
  · next h =>
    have h' : n.path ∉ d.paths := by simpa [mem_paths] using h
    simp [h']

/-! ## 2. Look-ups -/

theorem nodeAt_eq_error :
    d.nodeAt path = .error e ↔ Text.lower path ∉ d.paths ∧ .unknownNode (Text.lower path) = e := by
  rw [← find?_eq_none, nodeAt]
  cases d.find? path <;> simp

theorem entityAt_eq_error (h : d.entityAt path = .error e) :
    e = .unknownNode (Text.lower path) ∨
      ∃ n, d.nodeAt path = .ok n ∧ e = .misuse n.path (.wrongKind .entity n.kind) := by
  rcases bind_eq_error.mp h with h | ⟨n, hn, h⟩
  · exact .inl (nodeAt_eq_error.mp h).2.symm
  · cases n with
    | entity => exact nomatch h
    | relationship r => exact .inr ⟨_, hn, (throw_eq_error.mp h).symm⟩
    | attr a => exact .inr ⟨_, hn, (throw_eq_error.mp h).symm⟩

/-! ## 3. Attributes -/

section

variable {above owner : String} {parent : Option String}

/-- The node of an attribute is refused for its path only, and then nothing is done. -/
theorem addAttributeNode_eq_cut (h : d.HasPlace owner parent) (habove : above = parent.getD owner)
    {a : Attribute}
    (hcut : d.addAttributeNode a (a.pathBelow above) owner parent = (d', some e)) :
    a.pathBelow above ∈ d.paths ∧ d' = d ∧ e = .duplicateNode (a.pathBelow above) := by
  by_cases hnew : a.pathBelow above ∈ d.paths
  · -- no step behind the insertion is reached
    rcases Change.andThen_eq_cut.mp hcut with hcut | ⟨d₂, hdone, -⟩
    · rcases Change.andThen_eq_cut.mp hcut with hcut | ⟨d₁, hdone, -⟩
      · exact insertNode_eq_cut.mp hcut
      · exact absurd hnew (insertNode_eq_done.mp hdone).1
    · obtain ⟨d₁, hdone, -⟩ := Change.andThen_eq_done.mp hdone
      exact absurd hnew (insertNode_eq_done.mp hdone).1
  · rw [(addAttributeNode_eq_done h habove a).mpr ⟨hnew, rfl⟩] at hcut
    cases hcut

/-- Adding attributes stopped at a path that is taken, with as much in the diagram as the
attributes before it bring. -/
def Stops (above owner : String) (parent : Option String) (as : List Attribute) (d d' : Diagram)
    (e : DiagramError) : Prop :=
  ∃ bs path, Attribute.IsCutAt above as bs path ∧
    addAttributes above owner parent bs d = (d', none) ∧ path ∈ d'.paths ∧
      e = .duplicateNode path

mutual

theorem addAttribute_eq_cut : ∀ (a : Attribute) {above owner : String} {parent : Option String}
    {d d' : Diagram}, d.HasPlace owner parent → above = parent.getD owner →
      addAttribute above owner parent a d = (d', some e) → Stops above owner parent [a] d d' e
  | ⟨name, type, primaryKey, discriminator, multivalued, parts⟩, above, owner, parent, d, d',
      h, habove, hcut => by
    rw [addAttribute] at hcut
    rcases Change.andThen_eq_cut.mp hcut with hcut | ⟨d₁, hdone, hcut⟩
    · obtain ⟨htaken, rfl, rfl⟩ := addAttributeNode_eq_cut h habove hcut
      exact ⟨[], _, .here, rfl, htaken, rfl⟩
    · split at hcut
      · next hcomposite =>
        obtain ⟨hnew, rfl⟩ := (addAttributeNode_eq_done h habove _).mp hdone
        obtain ⟨bs, path, hbs, hadd, htaken, rfl⟩ := addAttributes_eq_cut parts (h.within hnew) rfl hcut
        refine ⟨[⟨name, type, primaryKey, discriminator, multivalued, bs⟩], path, .within ?_, ?_,
          htaken, rfl⟩
        · rwa [Attribute.shownParts, Attribute.isComposite, if_pos hcomposite]
        · rw [addAttributes, addAttribute]
          refine Change.andThen_eq_done.mpr ⟨d', Change.andThen_eq_done.mpr ⟨_, hdone, ?_⟩, rfl⟩
          rwa [if_pos hcomposite]
      · cases hcut

/-- **Attributes are refused for their paths only**: their owner and the attribute around them
are there. -/
theorem addAttributes_eq_cut : ∀ (as : List Attribute) {above owner : String}
    {parent : Option String} {d d' : Diagram}, d.HasPlace owner parent →
      above = parent.getD owner → addAttributes above owner parent as d = (d', some e) →
        Stops above owner parent as d d' e
  | [], _, _, _, _, _, _, _, hcut => by cases hcut
  | a :: as, above, owner, parent, d, d', h, habove, hcut => by
    rw [addAttributes] at hcut
    rcases Change.andThen_eq_cut.mp hcut with hcut | ⟨d₁, hdone, hcut⟩
    · obtain ⟨bs, path, hbs, hrest⟩ := addAttribute_eq_cut a h habove hcut
      exact ⟨bs, path, hbs.append as, hrest⟩
    · have hgrows := (addAttribute_eq_done a h habove).mp hdone
      obtain ⟨bs, path, hbs, hadd, hrest⟩ := addAttributes_eq_cut as (hgrows.hasPlace h) habove hcut
      refine ⟨a :: bs, path, .later hbs, ?_, hrest⟩
      rw [addAttributes]
      exact Change.andThen_eq_done.mpr ⟨d₁, hdone, hadd⟩

end

end

/-- An owner is refused for its path or for those of its attributes. -/
theorem addOwner_eq_cut (h : d.IsIndexed) (n : Node) (as : List Attribute) (hpath : n.path = path)
    (hlow : Text.lower path = path) (hkind : n.kind ≠ .attr)
    (hcut : (d.insertNode n).andThen (addAttributes path path none as) = (d', some e)) :
    (path ∈ d.paths ∧ d' = d ∧ e = .duplicateNode path) ∨
      ∃ bs k, Attribute.IsCutAt path as bs k ∧
        (d.insertNode n).andThen (addAttributes path path none bs) = (d', none) ∧
          k ∈ d'.paths ∧ e = .duplicateNode k := by
  subst hpath
  rcases Change.andThen_eq_cut.mp hcut with hcut | ⟨d₁, hdone, hcut⟩
  · exact .inl (insertNode_eq_cut.mp hcut)
  · obtain ⟨hnew, rfl⟩ := insertNode_eq_done.mp hdone
    have hplace : HasPlace ⟨d.nodes ++ [n], d.edges⟩ n.path none :=
      ⟨h.insert hnew hlow, ⟨n, by simp, rfl, hkind⟩, fun p hp => nomatch hp⟩
    obtain ⟨bs, k, hbs, hadd, hrest⟩ := addAttributes_eq_cut as hplace rfl hcut
    exact .inr ⟨bs, k, hbs, Change.andThen_eq_done.mpr ⟨_, hdone, hadd⟩, hrest⟩

/-! ## 4. Declarations -/

/-- What a declaration can be refused for. -/
inductive IsDeclarationFault : DiagramError → Prop where
  /-- no node has the path of its parent or of one of its ends -/
  | unknownNode {path : String} : IsDeclarationFault (.unknownNode path)
  /-- the node of that path is no entity -/
  | noEntity {path : String} {found : NodeKind} :
      IsDeclarationFault (.misuse path (.wrongKind .entity found))
  | noParent {path : String} : IsDeclarationFault (.misuse path .noParent)
  | loneRole {path : String} : IsDeclarationFault (.misuse path .loneRole)
  | duplicateNode {path : String} : IsDeclarationFault (.duplicateNode path)

/-- A fault of a declaration that is found before anything is added. -/
def IsReferenceFault (e : DiagramError) : Prop :=
  IsDeclarationFault e ∧ ∀ path, e ≠ .duplicateNode path

theorem isReferenceFault_of_entityAt (h : d.entityAt path = .error e) : IsReferenceFault e := by
  rcases entityAt_eq_error h with rfl | ⟨n, -, rfl⟩
  · exact ⟨.unknownNode, by simp⟩
  · exact ⟨.noEntity, by simp⟩

theorem isReferenceFault_of_parentOf {decl : EntityDecl} (h : d.parentOf decl = .error e) :
    IsReferenceFault e := by
  obtain ⟨name, kind, declared, attributes⟩ := decl
  have hlookup : ∀ p, (do let e ← d.entityAt p; pure (some e.path)) =
      (Except.error e : Except DiagramError (Option String)) → IsReferenceFault e := fun p h =>
    isReferenceFault_of_entityAt (bind_pure_eq_error.mp h)
  cases kind with
  | regular => simp [parentOf] at h
  | weak =>
    cases declared with
    | none => exact Except.error.inj h ▸ ⟨.noParent, by simp⟩
    | some p => exact hlookup p h
  | subclass =>
    cases declared with
    | none => exact Except.error.inj h ▸ ⟨.noParent, by simp⟩
    | some p => exact hlookup p h

theorem isReferenceFault_of_rolesOf {decl : RelationshipDecl} (h : rolesOf decl = .error e) :
    IsReferenceFault e := by
  unfold rolesOf at h
  split at h
  · exact nomatch h
  · exact nomatch h
  · exact Except.error.inj h ▸ ⟨.loneRole, by simp⟩

end Diagram

/-- A declaration of either kind. -/
inductive Declaration where
  | entity (decl : EntityDecl)
  | relationship (decl : RelationshipDecl)

namespace Declaration

/-- The path of what is declared. -/
def path : Declaration → String
  | entity decl => decl.path
  | relationship decl => decl.path

/-- The attributes that are declared with it. -/
def attributes : Declaration → List Attribute
  | entity decl => decl.attributes
  | relationship decl => decl.attributes

/-- The declaration with other attributes. -/
def withAttributes (bs : List Attribute) : Declaration → Declaration
  | entity decl => entity { decl with attributes := bs }
  | relationship decl => relationship { decl with attributes := bs }

/-- The nodes of a declaration. -/
def nodes : Declaration → List Node
  | entity decl => decl.nodes
  | relationship decl => decl.nodes

/-- The edges of a declaration. -/
def edges : Declaration → List Edge
  | entity decl => decl.edges
  | relationship decl => decl.edges

/-- The edges to the attributes, which come before the others. -/
def attributeEdges (decl : Declaration) : List Edge :=
  Attribute.edgesOf .hasAttribute decl.path decl.attributes

/-- What the declaration refers to is in the diagram. -/
def HasReferences (d : Diagram) : Declaration → Prop
  | entity decl => d.HasParent decl
  | relationship decl => d.HasEnds decl

/-- Adds the declaration to a diagram. -/
def addTo (d : Diagram) : Declaration → Change
  | entity decl => d.addEntity decl
  | relationship decl => d.addRelationship decl

end Declaration

namespace Diagram

variable {d d' : Diagram} {e : DiagramError}

/-- **How a declaration is refused**, and what is left of it. -/
inductive Refuses (d : Diagram) (decl : Declaration) : Diagram → DiagramError → Prop where
  /-- for what it refers to, before anything was added -/
  | reference {e : DiagramError} : IsReferenceFault e → Refuses d decl d e
  /-- for its own path, before anything was added -/
  | taken : decl.path ∈ d.paths → Refuses d decl d (.duplicateNode decl.path)
  /-- for the path of an attribute, when everything before it was added -/
  | takenBelow {bs : List Attribute} {path : String} :
      Attribute.IsCutAt decl.path decl.attributes bs path →
      (d.paths ++ (decl.withAttributes bs).nodes.map Node.path).Nodup →
      path ∈ d.paths ++ (decl.withAttributes bs).nodes.map Node.path →
        Refuses d decl (d.extend (decl.withAttributes bs).nodes
          (decl.withAttributes bs).attributeEdges) (.duplicateNode path)

/-- An entity whose attributes could be added could be added. -/
theorem addEntity_eq_cut (h : d.IsIndexed) {decl : EntityDecl}
    (hcut : d.addEntity decl = (d', some e)) : d.Refuses (.entity decl) d' e := by
  have hall := hcut
  rw [addEntity] at hcut
  rcases withFound_eq_cut.mp hcut with ⟨hparent, rfl⟩ | ⟨parent, hparent, hcut⟩
  · exact .reference (isReferenceFault_of_parentOf hparent)
  obtain ⟨hfound, rfl⟩ := (parentOf_eq_ok h).mp hparent
  rcases Change.andThen_eq_cut.mp hcut with hcut | ⟨d₂, hdone, -⟩
  · rcases addOwner_eq_cut h
      (.entity ⟨decl.name, decl.path, decl.kind, decl.parentPath, []⟩) decl.attributes
      decl.path_node (Text.lower_lower decl.name) (by simp [Node.kind]) hcut with
      ⟨htaken, rfl, rfl⟩ | ⟨bs, path, hbs, hadd, htaken, rfl⟩
    · exact .taken htaken
    · obtain ⟨hnew, rfl⟩ :=
        (@addEntityNodes_eq_done d d' h { decl with attributes := bs }).mp hadd
      exact .takenBelow hbs hnew (paths_extend _ _ ▸ htaken)
  · have hnew := ((addEntityNodes_eq_done h).mp hdone).1
    rw [(addEntity_eq_done h).mpr ⟨⟨hfound, hnew⟩, rfl⟩] at hall
    cases hall

/-- A relationship whose attributes could be added could be added. -/
theorem addRelationship_eq_cut (h : d.IsIndexed) {decl : RelationshipDecl}
    (hcut : d.addRelationship decl = (d', some e)) : d.Refuses (.relationship decl) d' e := by
  have hall := hcut
  rw [addRelationship] at hcut
  rcases withFound_eq_cut.mp hcut with ⟨hfirst, rfl⟩ | ⟨e₁, he₁, hcut⟩
  · exact .reference (isReferenceFault_of_entityAt hfirst)
  rcases withFound_eq_cut.mp hcut with ⟨hsecond, rfl⟩ | ⟨e₂, he₂, hcut⟩
  · exact .reference (isReferenceFault_of_entityAt hsecond)
  rcases withFound_eq_cut.mp hcut with ⟨hroles, rfl⟩ | ⟨roles, hroles, hcut⟩
  · exact .reference (isReferenceFault_of_rolesOf hroles)
  obtain ⟨hsame, rfl⟩ := rolesOf_eq_ok.mp hroles
  obtain ⟨he₁, hp₁⟩ := h.entityAt_eq_ok.mp he₁
  obtain ⟨he₂, hp₂⟩ := h.entityAt_eq_ok.mp he₂
  rw [hp₁, hp₂] at hcut
  have hdone : ∀ d₂, (d.insertNode (.relationship ⟨decl.name, decl.path, decl.firstPath,
      decl.secondPath, decl.roles, []⟩)).andThen
        (addAttributes decl.path decl.path none decl.attributes) = (d₂, none) → False := by
    intro d₂ hdone
    have hnew := ((addRelationshipNodes_eq_done h).mp hdone).1
    rw [(addRelationship_eq_done h).mpr ⟨⟨⟨⟨e₁, he₁, hp₁⟩, ⟨e₂, he₂, hp₂⟩, hsame⟩, hnew⟩, rfl⟩]
      at hall
    cases hall
  rcases Change.andThen_eq_cut.mp hcut with hcut | ⟨d₃, hthird, -⟩
  · rcases Change.andThen_eq_cut.mp hcut with hcut | ⟨d₂, hsecond, -⟩
    · rcases addOwner_eq_cut h (.relationship
        ⟨decl.name, decl.path, decl.firstPath, decl.secondPath, decl.roles, []⟩) decl.attributes
        decl.path_node (Text.lower_lower decl.name) (by simp [Node.kind]) hcut with
        ⟨htaken, rfl, rfl⟩ | ⟨bs, path, hbs, hadd, htaken, rfl⟩
      · exact .taken htaken
      · obtain ⟨hnew, rfl⟩ :=
          (@addRelationshipNodes_eq_done d d' h { decl with attributes := bs }).mp hadd
        exact .takenBelow hbs hnew (paths_extend _ _ ▸ htaken)
    · exact (hdone d₂ hsecond).elim
  · obtain ⟨d₂, hsecond, -⟩ := Change.andThen_eq_done.mp hthird
    exact (hdone d₂ hsecond).elim

theorem Refuses.isDeclarationFault {decl : Declaration} (h : d.Refuses decl d' e) :
    IsDeclarationFault e := by
  cases h with
  | reference h => exact h.1
  | taken _ => exact .duplicateNode
  | takenBelow _ _ _ => exact .duplicateNode

/-! ## 5. Schemas -/

/-- What cuts the adding of many declarations short cut the adding of one of them short. -/
theorem addAll_eq_cut {α : Type} {add : α → Diagram → Change} {P : DiagramError → Prop}
    (hstep : ∀ a {d d' : Diagram}, d.IsIndexed → add a d = (d', none) → d'.IsIndexed)
    (hcut : ∀ a {d d' : Diagram} {e : DiagramError}, d.IsIndexed → add a d = (d', some e) → P e) :
    ∀ (as : List α) {d d' : Diagram}, d.IsIndexed → addAll add as d = (d', some e) → P e
  | [], _, _, _, h => nomatch (Prod.mk.inj h).2
  | a :: as, d, d', hd, h => by
    rw [addAll] at h
    rcases Change.andThen_eq_cut.mp h with h | ⟨d₁, hdone, h⟩
    · exact hcut a hd h
    · exact addAll_eq_cut hstep hcut as (hstep a hd hdone) h

theorem addAll_isIndexed {α : Type} {add : α → Diagram → Change}
    (hstep : ∀ a {d d' : Diagram}, d.IsIndexed → add a d = (d', none) → d'.IsIndexed) :
    ∀ (as : List α) {d d' : Diagram}, d.IsIndexed → addAll add as d = (d', none) → d'.IsIndexed
  | [], d, d', hd, h => by
    obtain ⟨rfl, -⟩ := Prod.mk.inj h
    exact hd
  | a :: as, d, d', hd, h => by
    rw [addAll, Change.andThen_eq_done] at h
    obtain ⟨d₁, hdone, h⟩ := h
    exact addAll_isIndexed hstep as (hstep a hd hdone) h

theorem addEntity_isIndexed (h : d.IsIndexed) {decl : EntityDecl} {d' : Diagram}
    (hdone : d.addEntity decl = (d', none)) : d'.IsIndexed := by
  obtain ⟨⟨-, hnew⟩, rfl⟩ := (addEntity_eq_done h).mp hdone
  exact h.extend hnew fun n hn => lower_of_mem_entity hn

theorem addRelationship_isIndexed (h : d.IsIndexed) {decl : RelationshipDecl} {d' : Diagram}
    (hdone : d.addRelationship decl = (d', none)) : d'.IsIndexed := by
  obtain ⟨⟨-, hnew⟩, rfl⟩ := (addRelationship_eq_done h).mp hdone
  exact h.extend hnew fun n hn => lower_of_mem_relationship hn

/-- **A schema is refused for the fault of a declaration.** -/
theorem isDeclarationFault_of_ofDecl {schema : SchemaDecl} (h : ofDecl schema = .error e) :
    IsDeclarationFault e := by
  obtain ⟨d', hcut⟩ : ∃ d', (addAll addEntity schema.entities empty).andThen
      (addAll addRelationship schema.relationships) = (d', some e) := by
    rw [ofDecl] at h
    split at h
    · cases h
    · next heq => exact ⟨_, heq.trans (by rw [Except.error.inj h])⟩
  have hentity := fun a {d d' : Diagram} (hd : d.IsIndexed) (h : addEntity a d = (d', none)) =>
    addEntity_isIndexed hd h
  rcases Change.andThen_eq_cut.mp hcut with hcut | ⟨d₁, hdone, hcut⟩
  · exact addAll_eq_cut hentity (fun _ _ _ _ hd h => (addEntity_eq_cut hd h).isDeclarationFault) _
      isIndexed_empty hcut
  · exact addAll_eq_cut (fun _ _ _ hd h => addRelationship_isIndexed hd h)
      (fun _ _ _ _ hd h => (addRelationship_eq_cut hd h).isDeclarationFault) _
      (addAll_isIndexed hentity _ isIndexed_empty hdone) hcut

end Diagram

end EntityLayout
