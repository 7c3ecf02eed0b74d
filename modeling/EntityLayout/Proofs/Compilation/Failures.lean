/-
# Why a compilation fails

Each pass relies on what the passes before it have settled, and refuses to go on without it.
None ever has to: a compilation fails for what its declarations and groupings say, and for
nothing else.

* `Diagram.IsLayoutFault`, `Structures.IsStructureFault`: what a layout and structures can be
  refused for.
* `Structures.Settled.exists_structure`: what is known of an entity by the time it is needed.
* `Compilation.IsForeseen`: **what a failure of a compilation never is.**
* `Compilation.isForeseen_of_ofDecl`: every failure is foreseen.
-/
import EntityLayout.Proofs.Compilation.Passes
import EntityLayout.Proofs.Diagram.Failures
import EntityLayout.Proofs.Tables.Failures

namespace EntityLayout

variable {schema : SchemaDecl} {groupings : List Grouping} {layout : Layout} {naming : Naming}

/-! ## 1. Layouts -/

/-- What groupings settle no layout for. -/
inductive Diagram.IsLayoutFault (d : Diagram) (groupings : List Grouping) : LayoutError → Prop where
  | conflict {entity : String} {grouping : Nat} :
      IsLayoutFault d groupings (.conflict entity grouping)
  | missingGrouping {entity : String} : IsLayoutFault d groupings (.missingGrouping entity)
  /-- a weak entity or subclass has no attributes, or its parent has none -/
  | noAttributes {path : String} : IsLayoutFault d groupings (.diagram (.misuse path .noAttributes))
  /-- a grouping gives a name that is no node's -/
  | unknownNode {g : Grouping} {name : String} : g ∈ groupings → name ∈ g.names →
      Text.lower name ∉ d.paths →
        IsLayoutFault d groupings (.diagram (.unknownNode (Text.lower name)))

namespace SchemaDecl.IsWellFormed

variable (h : schema.IsWellFormed)

include h

/-- **No layout is settled for a fault of a grouping or an entity without attributes.** -/
theorem isLayoutFault_of_classify {fault : LayoutError}
    (hfault : schema.diagram.classify groupings = .error fault) :
    schema.diagram.IsLayoutFault groupings fault := by
  obtain ⟨e, he, hdecision⟩ := Diagram.classifyEach_eq_error hfault
  obtain ⟨decl, hdecl, rfl⟩ := entity_mem_nodes_iff.mp (Diagram.mem_entities.mp he)
  obtain ⟨g, rfl⟩ | rfl | ⟨f, hevidence, rfl⟩ := Diagram.decision_eq_error hdecision
  · exact .conflict
  · exact .missingGrouping
  obtain ⟨parent, hparent, hlist | hlist | ⟨g, hg, name, hname, hat⟩⟩ :=
    Diagram.evidence_eq_error hevidence
  · rw [h.attributesOf_eq_error hdecl hlist]
    exact .noAttributes
  · obtain ⟨p, hp, rfl⟩ := h.exists_parent hdecl hparent
    rw [h.attributesOf_eq_error hp hlist]
    exact .noAttributes
  · obtain ⟨hmissing, rfl⟩ := Diagram.nodeAt_eq_error.mp hat
    exact .unknownNode hg hname hmissing

end SchemaDecl.IsWellFormed

/-! ## 2. What is known when it is needed -/

/-- Of two neighbours by order, the first is found before the second. -/
theorem mem_of_pair_sublist {α : Type} {x y : α} {after : List α} : ∀ {before : List α},
    (before ++ y :: after).Nodup → [x, y].Sublist (before ++ y :: after) → x ∈ before := by
  intro before
  induction before with
  | nil =>
    intro hn hsub
    obtain ⟨hy, -⟩ := List.nodup_cons.mp hn
    rcases List.sublist_cons_iff.mp hsub with hsub | ⟨rest, hrest, hsub⟩
    · exact absurd (hsub.subset (by simp)) hy
    · obtain ⟨-, rfl⟩ := List.cons.inj hrest
      exact absurd (hsub.subset (by simp)) hy
  | cons b before ih =>
    intro hn hsub
    rcases List.sublist_cons_iff.mp hsub with hsub | ⟨rest, hrest, -⟩
    · exact List.mem_cons_of_mem b (ih (List.nodup_cons.mp hn).2 hsub)
    · obtain ⟨rfl, -⟩ := List.cons.inj hrest
      exact List.mem_cons_self

namespace SchemaDecl

/-- A parent stands before its subclasses and weak entities. -/
theorem IsWellFormed.parent_sublist (h : schema.IsWellFormed) {e : EntityDecl}
    (he : e ∈ schema.entities) {parent : String} (hparent : e.node.parent = some parent) :
    ∃ p ∈ schema.entities, p.path = parent ∧
      [.entity p.node, .entity e.node].Sublist schema.diagram.nodes := by
  obtain ⟨before, after, hsplit, hbefore⟩ := h.exists_split he
  obtain ⟨q, hq, hpath⟩ := hbefore parent hparent
  obtain ⟨p, hp, rfl⟩ := entity_mem_nodes_iff.mp
    (show .entity q ∈ schema.diagram.nodes by rw [hsplit]; exact List.mem_append_left _ hq)
  refine ⟨p, hp, hpath, ?_⟩
  rw [hsplit]
  exact (List.singleton_sublist.mpr hq).append (List.singleton_sublist.mpr List.mem_cons_self)

/-- Entities stand before relationships. -/
theorem entity_sublist {e : EntityDecl} (he : e ∈ schema.entities) {r : RelationshipDecl}
    (hr : r ∈ schema.relationships) :
    [.entity e.node, .relationship r.node].Sublist schema.diagram.nodes :=
  (List.singleton_sublist.mpr (List.mem_flatMap.mpr ⟨e, he, List.mem_cons_self⟩)).append
    (List.singleton_sublist.mpr (List.mem_flatMap.mpr ⟨r, hr, List.mem_cons_self⟩))

end SchemaDecl

namespace Structures

theorem keyCount_of_regular {e : EntityDecl} (h : e.kind = .regular) : keyCount e.node = 1 := by
  simp [keyCount, EntityNode.isWeak, EntityDecl.node, h]

/-- What a node is dealt with by: the structures of the nodes before it. -/
structure Settled (schema : SchemaDecl) (groupings : List Grouping) (layout : Layout)
    (naming : Naming) (n : Node) (known : Structures) : Prop where
  wellFormed : schema.IsWellFormed
  classified : schema.diagram.classify groupings = .ok layout
  split : ∃ before after, schema.diagram.nodes = before ++ n :: after ∧
    Register.Fills Node.path (IsValue schema.diagram layout naming) before .empty known

namespace Settled

variable {n : Node} {known : Structures} (h : Settled schema groupings layout naming n known)

include h

/-- **The structure of an entity is known where it is needed**, and it has all that identifies the
entity unless this is a regular one without attributes. -/
theorem exists_structure {e : EntityDecl} (he : e ∈ schema.entities)
    (hbefore : [.entity e.node, n].Sublist schema.diagram.nodes) :
    ∃ as, known.get? e.path = some as ∧ e.attributes.length ≤ as.length ∧
      (as.length < keyCount e.node → e.kind = .regular ∧ e.attributes = [] ∧ as = []) := by
  obtain ⟨before, after, hsplit, hfills⟩ := h.split
  have hnodup := h.wellFormed.nodup
  rw [hsplit] at hbefore hnodup
  have hmem := mem_of_pair_sublist (List.Nodup.of_map _ hnodup) hbefore
  rw [List.map_append] at hnodup
  obtain ⟨known', -, as, hget, hof⟩ := hfills.get?_of_mem (List.nodup_append.mp hnodup).1 hmem
  obtain ⟨inherited, own, hinherits, hown, rfl⟩ := ofEntity_eq_ok.mp hof
  obtain rfl : own = e.attributes.map Attribute.logical :=
    Except.ok.inj (hown.symm.trans (h.wellFormed.own_entity he))
  refine ⟨_, hget, ?_⟩
  rw [length_withInherited, List.length_map]
  refine ⟨Nat.le_add_left _ _, fun hlt => ?_⟩
  cases hinherits with
  | regular hnone =>
    have hkind : e.kind = .regular := by
      by_contra hkind
      have hsome := (h.wellFormed.parent_isSome_iff he).mpr hkind
      rw [← EntityDecl.parent_node, hnone] at hsome
      exact nomatch hsome
    rw [keyCount_of_regular hkind, List.length_nil, Nat.zero_add, Nat.lt_one_iff] at hlt
    have hnil := List.length_eq_zero_iff.mp hlt
    refine ⟨hkind, hnil, List.length_eq_zero_iff.mp ?_⟩
    rw [length_withInherited, hnil]
    rfl
  | weak hsome hweak hget =>
    obtain ⟨p, hp, rfl, -⟩ := h.wellFormed.parent_sublist he hsome
    have hpos := List.length_pos_iff.mpr (h.wellFormed.attributes_ne_nil h.classified he hp hsome).1
    rw [keyCount, if_pos hweak, List.length_singleton] at hlt
    omega
  | subclass hsome hweak hget =>
    obtain ⟨p, hp, rfl, -⟩ := h.wellFormed.parent_sublist he hsome
    have hpos := List.length_pos_iff.mpr (h.wellFormed.attributes_ne_nil h.classified he hp hsome).1
    rw [keyCount, if_neg (by simp [hweak])] at hlt
    omega

/-- What identifies an entity is told where it is needed, unless the entity is a regular one
without attributes. -/
theorem leading_eq_error {e : EntityDecl} (he : e ∈ schema.entities)
    (hbefore : [.entity e.node, n].Sublist schema.diagram.nodes) {fault : DiagramError}
    (hfault : known.leading e.path (keyCount e.node) = .error fault) :
    e.kind = .regular ∧ e.attributes = [] ∧ fault = .misuse e.path (.tooFewAttributes 1 0) := by
  obtain ⟨as, hget, -, hfew⟩ := h.exists_structure he hbefore
  obtain ⟨hnone, -⟩ | ⟨as', hget', hlt, rfl⟩ := Structures.leading_eq_error.mp hfault
  · exact nomatch hget.symm.trans hnone
  · obtain rfl := Option.some.inj (hget.symm.trans hget')
    obtain ⟨hkind, hattributes, rfl⟩ := hfew hlt
    exact ⟨hkind, hattributes, by rw [keyCount_of_regular hkind]; rfl⟩

end Settled

/-! ## 3. Structures -/

/-- What a node is refused a structure for. -/
inductive IsStructureFault (schema : SchemaDecl) : StructureError → Prop where
  | unsupported {r : RelationshipDecl} {clash : KeyClash} : r ∈ schema.relationships →
      IsStructureFault schema (.unsupported r.path clash)
  /-- an end of a relationship is a regular entity without attributes -/
  | noKey {r : RelationshipDecl} {e : EntityDecl} : r ∈ schema.relationships →
      e ∈ schema.entities → e.path = r.firstPath ∨ e.path = r.secondPath → e.kind = .regular →
        e.attributes = [] →
          IsStructureFault schema (.diagram (.misuse e.path (.tooFewAttributes 1 0)))

/-- No entity is refused: its parent has a structure, with an attribute in it. -/
theorem Settled.ofEntity_ne_error {e : EntityDecl} (he : e ∈ schema.entities) {known : Structures}
    (h : Settled schema groupings layout naming (.entity e.node) known) {fault : DiagramError} :
    ofEntity schema.diagram layout naming known e.node ≠ .error fault := by
  intro hfault
  obtain hown | ⟨parent, hparent, hfault⟩ := ofEntity_eq_error hfault
  · exact nomatch (h.wellFormed.own_entity he).symm.trans hown
  obtain ⟨p, hp, rfl, hbefore⟩ := h.wellFormed.parent_sublist he hparent
  obtain ⟨as, hget, hlen, -⟩ := h.exists_structure hp hbefore
  have hpos := List.length_pos_iff.mpr (h.wellFormed.attributes_ne_nil h.classified he hp hparent).2
  obtain ⟨-, hleading⟩ | hrequire := hfault
  · obtain ⟨hnone, -⟩ | ⟨as', hget', hlt, -⟩ := Structures.leading_eq_error.mp hleading
    · exact nomatch hget.symm.trans hnone
    · obtain rfl := Option.some.inj (hget.symm.trans hget')
      omega
  · exact nomatch hget.symm.trans (require_eq_error.mp hrequire).1

/-- A relationship is refused for its keys only. -/
theorem Settled.isStructureFault_of_ofRelationship {r : RelationshipDecl}
    (hr : r ∈ schema.relationships) {known : Structures}
    (h : Settled schema groupings layout naming (.relationship r.node) known)
    {fault : StructureError}
    (hfault : ofRelationship schema.diagram naming known r.node = .error fault) :
    IsStructureFault schema fault := by
  obtain ⟨e₁, he₁, e₂, he₂, hends, hfirst, hsecond⟩ := h.wellFormed.exists_ends hr
  obtain ⟨f, hf, -⟩ | ⟨_, _, f, hf, hleading, rfl⟩ | ⟨f, hf, -⟩ | ⟨clash, rfl⟩ :=
    ofRelationship_eq_error hfault
  · exact nomatch hends.symm.trans hf
  · obtain ⟨rfl, rfl⟩ := Prod.mk.inj (Except.ok.inj (hends.symm.trans hf))
    rcases hleading with hleading | hleading
    · obtain ⟨hkind, hattributes, rfl⟩ :=
        h.leading_eq_error he₁ (SchemaDecl.entity_sublist he₁ hr) hleading
      exact .noKey hr he₁ (.inl hfirst) hkind hattributes
    · obtain ⟨hkind, hattributes, rfl⟩ :=
        h.leading_eq_error he₂ (SchemaDecl.entity_sublist he₂ hr) hleading
      exact .noKey hr he₂ (.inr hsecond) hkind hattributes
  · exact nomatch (h.wellFormed.own_relationship hr).symm.trans hf
  · exact .unsupported hr

/-- **Structures are refused for the keys of a relationship only.** -/
theorem isStructureFault_of_derive (hw : schema.IsWellFormed)
    (hlayout : schema.diagram.classify groupings = .ok layout) {fault : StructureError}
    (hfault : derive schema.diagram layout naming = .error fault) :
    IsStructureFault schema fault := by
  obtain ⟨before, n, after, known, hsplit, hfills, hrefused⟩ := deriveEach_eq_error hfault
  have hsettled : Settled schema groupings layout naming n known :=
    ⟨hw, hlayout, before, after, hsplit, hfills⟩
  have hn : n ∈ schema.diagram.nodes := by simp [hsplit]
  cases n with
  | entity e =>
    obtain ⟨decl, hdecl, rfl⟩ := SchemaDecl.entity_mem_nodes_iff.mp hn
    obtain ⟨f, hf, -⟩ := hrefused
    exact absurd hf (hsettled.ofEntity_ne_error hdecl)
  | relationship r =>
    obtain ⟨decl, hdecl, rfl⟩ := SchemaDecl.relationship_mem_nodes_iff.mp hn
    exact hsettled.isStructureFault_of_ofRelationship hdecl hrefused
  | attr a => exact hrefused.elim

end Structures

/-! ## 4. Compilations -/

/-- The failure to build or to consult the diagram that a failure comes from. -/
def CompileError.diagramError? : CompileError → Option DiagramError
  | .diagram e | .layout (.diagram e) | .synthesis (.diagram e) | .ownership (.diagram e)
  | .structures (.diagram e) | .load (.diagram e) => some e
  | _ => none

namespace Compilation

/-- What a compilation of declarations fails for. -/
inductive IsFault (schema : SchemaDecl) (groupings : List Grouping) : CompileError → Prop where
  | declaration {e : DiagramError} : Diagram.IsDeclarationFault e →
      IsFault schema groupings (.diagram e)
  | layout {e : LayoutError} : schema.diagram.IsLayoutFault groupings e →
      IsFault schema groupings (.layout e)
  | synthesis {e : SynthesisError} : IsSynthesisFault schema.diagram groupings e →
      IsFault schema groupings (.synthesis e)
  | missingGrouping {relationship : String} :
      IsFault schema groupings (.ownership (.missingGrouping relationship))
  | multipleGroupings {relationship : String} {tables : List String} :
      IsFault schema groupings (.ownership (.multipleGroupings relationship tables))
  | structures {e : StructureError} : Structures.IsStructureFault schema e →
      IsFault schema groupings (.structures e)

/-- **A compilation fails for what its declarations and groupings say.** -/
theorem isFault_of_ofDecl {s : Settings} {e : CompileError}
    (h : ofDecl schema groupings s = .error e) : IsFault schema groupings e := by
  obtain h | ⟨d, hd, h⟩ := bind_eq_error.mp h
  · obtain ⟨f, hf, rfl⟩ := mapError_eq_error.mp h
    exact .declaration (Diagram.isDeclarationFault_of_ofDecl hf)
  obtain ⟨hw, rfl⟩ := Diagram.ofDecl_eq_ok.mp (mapError_eq_ok.mp hd)
  obtain h | ⟨layout, hlayout, h⟩ := bind_eq_error.mp h
  · obtain ⟨f, hf, rfl⟩ := mapError_eq_error.mp h
    exact .layout (hw.isLayoutFault_of_classify hf)
  have hlayout := mapError_eq_ok.mp hlayout
  obtain h | ⟨tables, -, h⟩ := bind_eq_error.mp h
  · obtain ⟨f, hf, rfl⟩ := mapError_eq_error.mp h
    exact .synthesis (isSynthesisFault_of_synthesize hw hlayout hf)
  obtain h | ⟨ownership, -, h⟩ := bind_eq_error.mp h
  · obtain ⟨f, hf, rfl⟩ := mapError_eq_error.mp h
    obtain ⟨r, -, rfl | ⟨names, rfl⟩⟩ := Ownership.resolveEach_eq_error hf
    · exact .missingGrouping
    · exact .multipleGroupings
  · obtain ⟨f, hf, rfl⟩ := mapError_eq_error.mp (bind_pure_eq_error.mp h)
    exact .structures (Structures.isStructureFault_of_derive hw hlayout hf)

/-- **What a failure of a compilation never is**: that something is missing or out of order which
an earlier pass has seen to. -/
structure IsForeseen (schema : SchemaDecl) (groupings : List Grouping) (e : CompileError) :
    Prop where
  /-- subclasses are placed before tables are made -/
  placed : ∀ subclass, e ≠ .synthesis (.missingDecision subclass)
  /-- ownership asks nothing of the diagram -/
  owned : ∀ fault, e ≠ .ownership (.diagram fault)
  /-- a structure is derived after those that it is made from -/
  derived : ∀ path, e ≠ .structures (.diagram (.unknownNode path))
  /-- in no pass does a relationship lack its ends or an attribute own or contain what it cannot -/
  consistent : ∀ path misuse, e.diagramError? = some (.misuse path misuse) →
    misuse ∉ [.unresolvedEndpoints, .ownedByAttribute, .ownsNothing, .partOfItself]
  /-- tables need only the nodes that groupings name -/
  named : ∀ fault, e = .synthesis (.diagram fault) → ∃ g ∈ groupings, ∃ name ∈ g.names,
    Text.lower name ∉ schema.diagram.paths ∧ fault = .unknownNode (Text.lower name)
  /-- the key of an entity is missing only where a regular one without attributes is related -/
  keyed : ∀ path wanted found,
    e = .structures (.diagram (.misuse path (.tooFewAttributes wanted found))) →
      ∃ r ∈ schema.relationships, ∃ x ∈ schema.entities,
        (x.path = r.firstPath ∨ x.path = r.secondPath) ∧ x.kind = .regular ∧ x.attributes = [] ∧
          path = x.path ∧ wanted = 1 ∧ found = 0

/-- **Every failure of a compilation is foreseen**, whatever the declarations, groupings and
settings. -/
theorem isForeseen_of_ofDecl {s : Settings} {e : CompileError}
    (h : ofDecl schema groupings s = .error e) : IsForeseen schema groupings e := by
  have hfault := isFault_of_ofDecl h
  refine ⟨?placed, ?owned, ?derived, ?consistent, ?named, ?keyed⟩
  case placed =>
    rintro subclass rfl
    cases hfault with
    | synthesis hfault => exact nomatch hfault
  case owned =>
    rintro fault rfl
    exact nomatch hfault
  case derived =>
    rintro path rfl
    cases hfault with
    | structures hfault => exact nomatch hfault
  case consistent =>
    intro path misuse hcause
    cases hfault with
    | declaration hfault => cases hfault <;> cases hcause <;> simp
    | layout hfault =>
      cases hfault <;> cases hcause
      simp
    | synthesis hfault => cases hfault <;> cases hcause
    | missingGrouping => exact nomatch hcause
    | multipleGroupings => exact nomatch hcause
    | structures hfault =>
      cases hfault <;> cases hcause
      simp
  case named =>
    rintro fault rfl
    cases hfault with
    | synthesis hfault =>
      cases hfault with
      | unknownNode hg hname hmissing => exact ⟨_, hg, _, hname, hmissing, rfl⟩
  case keyed =>
    rintro path wanted found rfl
    cases hfault with
    | structures hfault =>
      cases hfault with
      | noKey hr he hend hkind hattributes =>
        exact ⟨_, hr, _, he, hend, hkind, hattributes, rfl, rfl, rfl⟩

end Compilation

/-- Persons write logs, which have no attributes. -/
def SchemaDecl.logs : SchemaDecl where
  entities := [⟨"Person", .regular, none, [⟨"person_id", .integer, true, false, false, []⟩]⟩,
    ⟨"Log", .regular, none, []⟩]
  relationships := [⟨"Writes", ⟨"Person", none⟩, ⟨"Log", none⟩, []⟩]

/-- Logs have no key for those who write them, and nothing is called an author. -/
theorem Compilation.isForeseen_logs : ∃ e f,
    ofDecl .logs [.ofNames ["Writes", "Person", "Log"]] .standard = .error e ∧
      IsForeseen .logs [.ofNames ["Writes", "Person", "Log"]] e ∧
        e = .structures (.diagram (.misuse "log" (.tooFewAttributes 1 0))) ∧
    ofDecl .logs [.ofNames ["Writes", "Author"]] .standard = .error f ∧
      IsForeseen .logs [.ofNames ["Writes", "Author"]] f ∧
        f = .synthesis (.diagram (.unknownNode "author")) := by
  have hlogs : ofDecl .logs [.ofNames ["Writes", "Person", "Log"]] .standard =
      .error (.structures (.diagram (.misuse "log" (.tooFewAttributes 1 0)))) := by
    decide +kernel
  have hauthor : ofDecl .logs [.ofNames ["Writes", "Author"]] .standard =
      .error (.synthesis (.diagram (.unknownNode "author"))) := by
    decide +kernel
  exact ⟨_, _, hlogs, isForeseen_of_ofDecl hlogs, rfl, hauthor, isForeseen_of_ofDecl hauthor, rfl⟩

end EntityLayout
