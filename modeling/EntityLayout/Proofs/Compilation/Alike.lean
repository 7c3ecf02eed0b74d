/-
# Passes over diagrams that answer alike

The passes know a diagram by its look-ups, and they use a declared name in small letters only.  So
over diagrams that answer alike, each step of a pass has the same outcome, if what the step reads
of the steps before it is the same.

* `Alike.decision_eq`: the decision for an entity.
* `Structures.ofEntity_alike`, `Structures.ofRelationship_alike`: the structure of a node.
* `Ownership.entityTables_alike`: the tables of an entity.
* `synthesize_alike`: **all tables and composite types.**
-/
import EntityLayout.Ownership
import EntityLayout.Proofs.Diagram.Alike
import EntityLayout.Structure
import EntityLayout.Tables.Synthesis

namespace EntityLayout

variable {d d' : Diagram} {layout layout' : Layout} {naming : Naming} {e e' : EntityNode}
  {r r' : RelationshipNode}

/-! ## 1. Decisions -/

namespace Diagram.Alike

variable (h : d.Alike d') {groupings : List Grouping}

include h

theorem namesRelationship_eq : ∀ names : List String,
    d.namesRelationship names = d'.namesRelationship names
  | [] => rfl
  | name :: names => by
    rw [namesRelationship, namesRelationship]
    refine (h.nodeAt name).bind_eq fun n n' hn => ?_
    cases hn with
    | entity _ => exact namesRelationship_eq names
    | relationship _ => rfl
    | attr _ => exact namesRelationship_eq names

theorem evidence_eq (he : e.Alike e') : d.evidence groupings e = d'.evidence groupings e' := by
  cases he
  simp only [evidence]
  cases e.parent with
  | none => rfl
  | some parent =>
    refine (h.attributesOf e.path).bind_eq fun own own' hown => ?_
    refine (h.attributesOf parent).bind_eq fun inherited inherited' hinherited => ?_
    have hqualifies : (fun g : Grouping × Nat => qualifies e.path parent own g.1) =
        fun g => qualifies e.path parent own' g.1 := funext fun g => by
      rw [qualifies, qualifies, AttributeNode.any_alike hown g.1.contains]
    rw [hqualifies]
    split
    · rfl
    · next g index _ =>
      rw [h.namesRelationship_eq, AttributeNode.any_alike hinherited g.contains]

/-- **The decision for an entity.** -/
theorem decision_eq (he : e.Alike e') : d.decision groupings e = d'.decision groupings e' := by
  have hevidence : d.evidence groupings e = d'.evidence groupings e' := h.evidence_eq he
  cases he
  simp only [decision, hevidence]

end Diagram.Alike

/-! ## 2. Structures -/

namespace Structures

variable {known known' : Structures}

section

variable (h : d.Alike d')

include h

theorem treesBy_alike {tree tree' : AttributeNode → Except DiagramError Attribute}
    (htree : ∀ a a', a.Alike a' → tree a = tree' a') : ∀ paths : List String,
      treesBy d tree paths = treesBy d' tree' paths
  | [] => rfl
  | path :: paths => by
    rw [treesBy, treesBy]
    refine (h.attributeAt path).bind_eq fun a a' ha => ?_
    rw [htree a a' ha, treesBy_alike htree paths]

/-- Trees are the same: names stand in them in small letters. -/
theorem treeWithin_alike : ∀ (depth : Nat) (a a' : AttributeNode), a.Alike a' →
    treeWithin d depth a = treeWithin d' depth a' := by
  intro depth
  induction depth with
  | zero =>
    intro a a' ha
    cases ha
    rfl
  | succ depth ih =>
    intro a a' ha
    cases ha with
    | respelled hname => rw [treeWithin, treeWithin, treesBy_alike h ih, hname]

theorem own_alike (path : String) : own d path = own d' path := by
  refine (h.topLevel path).bind_eq fun as as' has => ?_
  refine Agree.mapM_eq (fun a a' ha => ?_) has
  rw [tree, tree, h.length_eq]
  exact treeWithin_alike h _ a a' ha

end

theorem require_congr {path : String} (h : known.get? path = known'.get? path) :
    known.require path = known'.require path := by
  rw [require, require, h]

theorem leading_congr {path : String} (h : known.get? path = known'.get? path) (count : Nat) :
    known.leading path count = known'.leading path count := by
  rw [leading, leading, require_congr h]

/-- **The structure of an entity**, if the layout says the same of it and the structure of its
parent is the same. -/
theorem ofEntity_alike (h : d.Alike d') (he : e.Alike e')
    (hlayout : layout.get? e.path = layout'.get? e.path)
    (hknown : ∀ p ∈ e.parent, known.get? p = known'.get? p) :
    ofEntity d layout naming known e = ofEntity d' layout' naming known' e' := by
  cases he
  have halone : layout.isAlone e.path = layout'.isAlone e.path := by
    rw [Layout.isAlone, Layout.isAlone, hlayout]
  simp only [ofEntity]
  rw [own_alike h]
  cases hparent : e.parent with
  | none => rfl
  | some parent =>
    have hget := hknown parent hparent
    simp only [require_congr hget, leading_congr hget, halone]
    rfl

end Structures

/-- The column of a role is made of its small letters. -/
theorem Naming.roleKeyColumn_congr {role role' : String} (h : Text.lower role = Text.lower role') :
    naming.roleKeyColumn role = naming.roleKeyColumn role' := by
  rw [roleKeyColumn, roleKeyColumn, h]

/-- Roles that are the same in small letters are both declared or not, with the same columns. -/
theorem RelationshipNode.Alike.roles_cases (h : r.Alike r') :
    (r.roles = none ∧ r'.roles = none) ∨ ∃ role₁ role₂ role₁' role₂',
      r.roles = some (role₁, role₂) ∧ r'.roles = some (role₁', role₂') ∧
        Text.lower role₁ = Text.lower role₁' ∧ Text.lower role₂ = Text.lower role₂' := by
  cases h with
  | @respelled name roles hroles =>
    cases hr : r.roles with
    | none =>
      rw [hr, Option.map_none, Option.map_eq_none_iff] at hroles
      exact .inl ⟨rfl, hroles⟩
    | some x =>
      rw [hr] at hroles
      obtain ⟨y, hy, hxy⟩ := Option.map_eq_some_iff.mp hroles
      obtain ⟨h₁, h₂⟩ := Prod.mk.inj hxy
      exact .inr ⟨x.1, x.2, y.1, y.2, rfl, hy, h₁.symm, h₂.symm⟩

namespace Structures

variable {known known' : Structures}

theorem sideKeys_alike {e₁ e₁' e₂ e₂' : EntityNode} (hr : r.Alike r') (he₁ : e₁.Alike e₁')
    (he₂ : e₂.Alike e₂') (left right : List Attribute) :
    sideKeys naming r e₁ e₂ left right = sideKeys naming r' e₁' e₂' left right := by
  have hnames : sideNames naming r e₁ e₂ = sideNames naming r' e₁' e₂' := by
    cases he₁
    cases he₂
    rw [sideNames, sideNames]
    rcases hr.roles_cases with ⟨hr, hr'⟩ | ⟨role₁, role₂, role₁', role₂', hr, hr', h₁, h₂⟩
    · rw [hr, hr']
    · rw [hr, hr']
      simp only [Naming.roleKeyColumn_congr h₁, Naming.roleKeyColumn_congr h₂]
  simp only [sideKeys, hnames]
  cases hr
  cases he₁
  cases he₂
  rfl

/-- **The structure of a relationship**, if the structures of its ends are the same. -/
theorem ofRelationship_alike (h : d.Alike d') (hr : r.Alike r')
    (hknown : ∀ e₁ e₂, d.endpoints r.path = .ok (e₁, e₂) →
      known.get? e₁.path = known'.get? e₁.path ∧ known.get? e₂.path = known'.get? e₂.path) :
    ofRelationship d naming known r = ofRelationship d' naming known' r' := by
  have hpath : r.path = r'.path := by
    cases hr
    rfl
  have hends := h.endpoints r.path
  rw [ofRelationship, ofRelationship, ← hpath, own_alike h]
  generalize hx : d.endpoints r.path = x at hends
  generalize d'.endpoints r.path = y at hends
  cases hends with
  | error e => rfl
  | @ok ends ends' hends =>
    obtain ⟨e₁, e₂⟩ := ends
    obtain ⟨e₁', e₂'⟩ := ends'
    obtain ⟨he₁, he₂⟩ := hends
    obtain ⟨hknown₁, hknown₂⟩ := hknown e₁ e₂ hx
    have hkeys : ∀ left right, sideKeys naming r e₁ e₂ left right =
        sideKeys naming r' e₁' e₂' left right := sideKeys_alike hr he₁ he₂
    cases he₁
    cases he₂
    simp only [liftDiagram, Except.mapError, ok_bind, leading_congr hknown₁, leading_congr hknown₂,
      hkeys]
    rfl

end Structures

/-! ## 3. Ownership -/

/-- **The tables of an entity**, if the layout says the same of it and its parent has the same. -/
theorem Ownership.entityTables_alike {groupings : List Grouping} {tables : List Table}
    {settled settled' : Ownership} (he : e.Alike e')
    (hlayout : layout.get? e.path = layout'.get? e.path)
    (hsettled : ∀ p ∈ e.parent, settled.get? p = settled'.get? p) :
    entityTables layout groupings tables settled e =
      entityTables layout' groupings tables settled' e' := by
  cases he
  have hinherited : inherited layout settled e = inherited layout' settled' e := by
    unfold inherited
    cases hparent : e.parent with
    | none => rfl
    | some p =>
      simp only [Layout.sharesWithParent, hlayout, tablesOf, hsettled p hparent]
      rfl
  rw [entityTables, entityTables, hinherited]
  rfl

/-! ## 4. Composite types -/

namespace TypeRegister

variable (h : d.Alike d')

include h

theorem fieldsBy_alike {ensurePart ensurePart' : AttributeNode → TypeRegister →
      Except DiagramError (String × TypeRegister)}
    (hensure : ∀ a a', a.Alike a' → ∀ types, ensurePart a types = ensurePart' a' types) :
    ∀ (paths : List String) (types : TypeRegister),
      fieldsBy d ensurePart paths types = fieldsBy d' ensurePart' paths types
  | [], _ => rfl
  | path :: paths, types => by
    rw [fieldsBy, fieldsBy]
    refine (h.attributeAt path).bind_eq fun a a' ha => ?_
    have hpart := hensure a a' ha types
    cases ha
    simp only [hpart, fieldsBy_alike hensure paths]
    rfl

theorem ensureWithin_alike : ∀ (depth : Nat) (a a' : AttributeNode), a.Alike a' →
    ∀ types : TypeRegister, ensureWithin naming d depth a types =
      ensureWithin naming d' depth a' types := by
  intro depth
  induction depth with
  | zero =>
    intro a a' ha types
    cases ha
    rfl
  | succ depth ih =>
    intro a a' ha types
    cases ha
    rw [ensureWithin, ensureWithin, fieldsBy_alike h ih]

theorem ensure_alike {a a' : AttributeNode} (ha : a.Alike a') (types : TypeRegister) :
    types.ensure naming d a = types.ensure naming d' a' := by
  rw [ensure, ensure, h.length_eq]
  exact ensureWithin_alike h _ a a' ha types

end TypeRegister

/-! ## 5. Tables -/

/-- The first relationship among nodes. -/
theorem Node.relationship?_alike {nodes nodes' : List Node}
    (h : List.Forall₂ Node.Alike nodes nodes') :
    Option.Rel RelationshipNode.Alike (nodes.findSome? Node.relationship?)
      (nodes'.findSome? Node.relationship?) := by
  induction h with
  | nil => exact .none
  | cons hn _ ih =>
    cases hn with
    | entity _ => exact ih
    | relationship hr => exact .some hr
    | attr _ => exact ih

/-- The number of attributes among nodes. -/
theorem Node.length_attr?_alike {nodes nodes' : List Node}
    (h : List.Forall₂ Node.Alike nodes nodes') :
    (nodes.filterMap Node.attr?).length = (nodes'.filterMap Node.attr?).length := by
  refine (List.rel_filterMap (P := AttributeNode.Alike) (fun n n' hn => ?_) h).length_eq
  cases hn with
  | entity _ => exact .none
  | relationship _ => exact .none
  | attr ha => exact .some ha

namespace Blueprint

variable (h : d.Alike d') (hlayout : ∀ path, layout.get? path = layout'.get? path)

theorem needsKey_alike (hlayout : ∀ path, layout.get? path = layout'.get? path)
    (he : e.Alike e') : needsKey ⟨d, layout, naming⟩ e = needsKey ⟨d', layout', naming⟩ e' := by
  cases he
  simp only [needsKey, Layout.placement?, hlayout e.path]
  rfl

include h

theorem sideKeys_alike {nodes nodes' : List Node} (hnodes : List.Forall₂ Node.Alike nodes nodes')
    (index : Nat) (name : String) : sideKeys ⟨d, layout, naming⟩ index name nodes =
      sideKeys ⟨d', layout', naming⟩ index name nodes' := by
  rw [sideKeys, sideKeys]
  refine (h.nodeAt name).mapError.bind_eq fun n n' hn => ?_
  cases hn with
  | relationship _ => rfl
  | attr _ => rfl
  | entity _ =>
    have hfirst := Node.relationship?_alike hnodes
    revert hfirst
    generalize nodes.findSome? Node.relationship? = o
    generalize nodes'.findSome? Node.relationship? = o'
    intro hfirst
    cases hfirst with
    | none => rfl
    | @some r r' hr =>
      have hpath : r.path = r'.path := by
        cases hr
        rfl
      simp only [← hpath]
      refine (h.endpoints r.path).mapError.bind_eq fun ends ends' hends => ?_
      obtain ⟨e₁, e₂⟩ := ends
      obtain ⟨e₁', e₂'⟩ := ends'
      obtain ⟨he₁, he₂⟩ := hends
      cases he₁
      cases he₂
      rcases hr.roles_cases with ⟨hr, hr'⟩ | ⟨role₁, role₂, role₁', role₂', hr, hr', h₁, h₂⟩
      · rw [hr, hr']
        rfl
      · rw [hr, hr']
        simp only [Naming.roleKeyColumn_congr h₁, Naming.roleKeyColumn_congr h₂]
        rfl

theorem attributeColumn_alike {a a' : AttributeNode} (ha : a.Alike a') (only : Bool)
    (types : TypeRegister) : attributeColumn ⟨d, layout, naming⟩ only a types =
      attributeColumn ⟨d', layout', naming⟩ only a' types := by
  have hensure : types.ensure naming d a = types.ensure naming d' a' :=
    TypeRegister.ensure_alike h ha types
  cases ha
  simp only [attributeColumn, hensure]
  rfl

include hlayout

theorem addColumns_alike {repeats only : Bool} {nodes nodes' : List Node}
    (hnodes : List.Forall₂ Node.Alike nodes nodes') : ∀ (columns : List Column)
      (types : TypeRegister), addColumns ⟨d, layout, naming⟩ repeats only nodes columns types =
        addColumns ⟨d', layout', naming⟩ repeats only nodes' columns types := by
  induction hnodes with
  | nil => exact fun _ _ => rfl
  | cons hn _ ih =>
    intro columns types
    cases hn with
    | entity he =>
      have hkey : needsKey ⟨d, layout, naming⟩ _ = needsKey ⟨d', layout', naming⟩ _ :=
        needsKey_alike hlayout he
      cases he
      simp only [addColumns, hkey, ih]
    | relationship _ => exact ih columns types
    | attr ha =>
      have hcolumn : attributeColumn ⟨d, layout, naming⟩ only _ types =
        attributeColumn ⟨d', layout', naming⟩ only _ types := attributeColumn_alike h ha only types
      simp only [addColumns, hcolumn, ih]

theorem table_alike (index : Nat) (g : Grouping) (types : TypeRegister) :
    table ⟨d, layout, naming⟩ index g types = table ⟨d', layout', naming⟩ index g types := by
  have hnodes : Agree (List.Forall₂ Node.Alike) (nodesOf ⟨d, layout, naming⟩ g)
      (nodesOf ⟨d', layout', naming⟩ g) := .mapM fun name _ => h.nodeAt name
  rw [table, table]
  refine hnodes.mapError.bind_eq fun nodes nodes' hnodes => ?_
  have hkeys : ∀ name, sideKeys ⟨d, layout, naming⟩ index name nodes =
      sideKeys ⟨d', layout', naming⟩ index name nodes' := sideKeys_alike h hnodes index
  simp only [hkeys, addColumns_alike h hlayout hnodes, Node.length_attr?_alike hnodes]

theorem tablesFrom_alike : ∀ (groupings : List Grouping) (index : Nat) (types : TypeRegister),
    tablesFrom ⟨d, layout, naming⟩ index groupings types =
      tablesFrom ⟨d', layout', naming⟩ index groupings types
  | [], _, _ => rfl
  | g :: groupings, index, types => by
    simp only [tablesFrom, table_alike h hlayout, tablesFrom_alike groupings]

end Blueprint

/-- **All tables and composite types**, if the layouts say the same. -/
theorem synthesize_alike (h : d.Alike d') (hlayout : ∀ path, layout.get? path = layout'.get? path)
    (groupings : List Grouping) :
    synthesize d layout groupings naming = synthesize d' layout' groupings naming := by
  rw [synthesize, synthesize, Blueprint.tablesFrom_alike h hlayout]

end EntityLayout
