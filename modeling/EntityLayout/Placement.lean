/-
# Placement of subclasses and weak entities

The groupings decide how a subclass is stored.  A grouping qualifies for an entity when it
holds the entity, its parent and one of the entity's attributes; the first one counts.

* No grouping qualifies: the subclass stands alone, with all inherited attributes.
* It holds an attribute of the parent: the subclass is kept within its parent's table.
* It holds none: the subclass has a table beside its parent's, under the parent's key.

A qualifying grouping must not hold a relationship.  A weak entity needs a qualifying
grouping; for it only the question whether the owner's attributes are there is settled.
-/
import EntityLayout.Diagram.Basic
import EntityLayout.Grouping
import EntityLayout.Register

namespace EntityLayout

/-! ## 1. Decisions -/

/-- How a subclass is stored. -/
inductive Placement where
  | alone
  | withinParent
  | besideParent
  deriving DecidableEq, Repr

/-- What is settled for a subclass or a weak entity, and the grouping that settled it. -/
inductive Decision where
  | subclass (placement : Placement) (grouping : Option Nat)
  | weak (alone : Bool) (grouping : Nat)
  deriving DecidableEq, Repr

namespace Decision

/-- Whether the entity is stored without attributes of its parent. -/
def isAlone : Decision → Bool
  | .subclass p _ => decide (p = .alone)
  | .weak alone _ => alone

/-- Whether a subclass is kept within its parent's table. -/
def isWithinParent : Decision → Bool
  | .subclass p _ => decide (p = .withinParent)
  | .weak _ _ => false

/-- Whether a subclass has a table beside its parent's. -/
def isBesideParent : Decision → Bool
  | .subclass p _ => decide (p = .besideParent)
  | .weak _ _ => false

/-- The grouping that settled it. -/
def grouping : Decision → Option Nat
  | .subclass _ g => g
  | .weak _ g => some g

/-- The placement of a subclass. -/
def placement? : Decision → Option Placement
  | .subclass p _ => some p
  | .weak _ _ => none

end Decision

/-- The decisions for the subclasses and weak entities of a diagram. -/
abbrev Layout := Register Decision

/-- The placement of a subclass, if one is recorded. -/
def Layout.placement? (layout : Layout) (path : String) : Option Placement :=
  (layout.get? path).bind Decision.placement?

/-- Whether an entity is recorded as standing alone. -/
def Layout.isAlone (layout : Layout) (path : String) : Bool :=
  match layout.get? path with
  | some d => d.isAlone
  | none => false

/-- Whether an entity is recorded as stored together with its parent. -/
def Layout.sharesWithParent (layout : Layout) (path : String) : Bool :=
  match layout.get? path with
  | some d => !d.isAlone
  | none => false

/-! ## 2. Errors -/

/-- Why the groupings settle no layout. -/
inductive LayoutError where
  /-- the qualifying grouping of a subclass also holds a relationship -/
  | conflict (entity : String) (grouping : Nat)
  /-- no grouping qualifies for a weak entity -/
  | missingGrouping (entity : String)
  | diagram (e : DiagramError)
  deriving DecidableEq, Repr

/-- The wording of a failure. -/
def LayoutError.message : LayoutError → String
  | .conflict entity grouping =>
    "Classification conflict for subclass " ++ entity ++ ": grouping " ++ Nat.repr grouping
      ++ " also holds a relationship"
  | .missingGrouping entity =>
    "Weak entity " ++ entity ++ " has no grouping containing it, its owner and one of its attributes"
  | .diagram e => e.message

/-- A failure to consult the diagram, as a failure of the layout. -/
def LayoutError.ofDiagram {α : Type} : Except DiagramError α → Except LayoutError α :=
  Except.mapError .diagram

/-! ## 3. Evidence -/

/-- What the first qualifying grouping shows. -/
structure Evidence where
  index : Nat
  holdsRelationship : Bool
  holdsParentAttribute : Bool
  deriving DecidableEq, Repr

/-- The placement of a subclass by the evidence for it. -/
def placementBy (entity : String) : Option Evidence → Except LayoutError Placement
  | none => .ok .alone
  | some e =>
    if e.holdsRelationship then .error (.conflict entity e.index)
    else .ok (if e.holdsParentAttribute then .withinParent else .besideParent)

namespace Diagram

/-- Whether one of the names is a relationship's; names behind the first such are not looked
up. -/
def namesRelationship (d : Diagram) : List String → Except DiagramError Bool
  | [] => .ok false
  | n :: ns => do
    match ← d.nodeAt n with
    | .relationship _ => pure true
    | _ => d.namesRelationship ns

/-- Whether a grouping holds an entity, its parent and one of the entity's attributes. -/
def qualifies (entity parent : String) (own : List AttributeNode) (g : Grouping) : Bool :=
  g.contains entity && g.contains parent && own.any fun a => g.contains a.path

/-- What the first qualifying grouping of an entity shows. -/
def evidence (d : Diagram) (groupings : List Grouping) (e : EntityNode) :
    Except DiagramError (Option Evidence) :=
  match e.parent with
  | none => .ok none
  | some parent => do
    let own ← d.attributesOf e.path
    let inherited ← d.attributesOf parent
    match groupings.zipIdx.find? fun g => qualifies e.path parent own g.1 with
    | none => pure none
    | some (g, index) =>
      let holdsRelationship ← d.namesRelationship g.names
      pure (some ⟨index, holdsRelationship, inherited.any fun a => g.contains a.path⟩)

/-! ## 4. Classification -/

/-- What is settled for an entity; nothing for a regular one. -/
def decision (d : Diagram) (groupings : List Grouping) (e : EntityNode) :
    Except LayoutError (Option Decision) :=
  match e.kind with
  | .regular => .ok none
  | .subclass => do
    let found ← LayoutError.ofDiagram (d.evidence groupings e)
    let placement ← placementBy e.path found
    pure (some (.subclass placement (found.map Evidence.index)))
  | .weak => do
    match ← LayoutError.ofDiagram (d.evidence groupings e) with
    | none => throw (.missingGrouping e.path)
    | some found => pure (some (.weak (!found.holdsParentAttribute) found.index))

/-- Settles the layout of entities in order. -/
def classifyEach (d : Diagram) (groupings : List Grouping) :
    List EntityNode → Layout → Except LayoutError Layout
  | [], layout => .ok layout
  | e :: es, layout => do
    match ← d.decision groupings e with
    | some made => d.classifyEach groupings es (layout.insert e.path made)
    | none => d.classifyEach groupings es layout

/-- The layout that the groupings settle. -/
def classify (d : Diagram) (groupings : List Grouping) : Except LayoutError Layout :=
  d.classifyEach groupings d.entities .empty

end Diagram

end EntityLayout
