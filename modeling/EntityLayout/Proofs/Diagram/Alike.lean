/-
# Diagrams that answer alike

Two diagrams answer alike if every look-up has the same outcome in both, up to the spelling in
which names and roles were declared.  In what order the nodes stand does not matter.

* `Node.Alike`: a node and the same node under another spelling of its name.
* `Diagram.Alike`: **look-ups have the same outcome**, failures included.
* `Alike.attributesOf`, `Alike.topLevel`: so do the answers that are put together of look-ups.
* `Diagram.alike_caseless`: a diagram answers like itself in small letters.
-/
import EntityLayout.Proofs.Diagram.Caseless
import EntityLayout.Proofs.Diagram.Lookup

namespace EntityLayout

/-! ## 1. Nodes -/

/-- An entity under another spelling of its name. -/
inductive EntityNode.Alike (e : EntityNode) : EntityNode → Prop where
  | respelled (name : String) : e.Alike { e with name }

/-- A relationship under another spelling of its name and roles; in small letters the roles are
the same. -/
inductive RelationshipNode.Alike (r : RelationshipNode) : RelationshipNode → Prop where
  | respelled (name : String) {roles : Option (String × String)} :
      roles.map (Prod.map Text.lower Text.lower) = r.roles.map (Prod.map Text.lower Text.lower) →
        r.Alike { r with name, roles }

/-- An attribute under another spelling of its name, which is the same in small letters. -/
inductive AttributeNode.Alike (a : AttributeNode) : AttributeNode → Prop where
  | respelled {name : String} : Text.lower name = Text.lower a.name → a.Alike { a with name }

/-- A node under another spelling of its name. -/
inductive Node.Alike : Node → Node → Prop where
  | entity {e e' : EntityNode} : e.Alike e' → Node.Alike (.entity e) (.entity e')
  | relationship {r r' : RelationshipNode} :
      r.Alike r' → Node.Alike (.relationship r) (.relationship r')
  | attr {a a' : AttributeNode} : a.Alike a' → Node.Alike (.attr a) (.attr a')

theorem EntityNode.Alike.refl (e : EntityNode) : e.Alike e := .respelled e.name

theorem Node.Alike.refl (n : Node) : n.Alike n := by
  cases n with
  | entity e => exact .entity (.refl e)
  | relationship r => exact .relationship (.respelled r.name rfl)
  | attr a => exact .attr (.respelled rfl)

theorem EntityNode.alike_caseless (e : EntityNode) : e.Alike e.caseless := .respelled _

theorem Node.alike_caseless (n : Node) : n.Alike n.caseless := by
  cases n with
  | entity e => exact .entity e.alike_caseless
  | relationship r =>
    refine .relationship (.respelled _ ?_)
    rw [Option.map_map]
    exact congrArg (r.roles.map ·) (funext fun x => by simp [Prod.map])
  | attr a => exact .attr (.respelled (Text.lower_asciiLower _))

theorem AttributeNode.Alike.path_eq {a a' : AttributeNode} (h : a.Alike a') : a.path = a'.path := by
  cases h
  rfl

/-- What is asked of the paths of attributes has the same answer under other spellings. -/
theorem AttributeNode.any_alike {as as' : List AttributeNode}
    (h : List.Forall₂ AttributeNode.Alike as as') (p : String → Bool) :
    (as.any fun a => p a.path) = as'.any fun a => p a.path := by
  induction h with
  | nil => rfl
  | cons ha _ ih => rw [List.any_cons, List.any_cons, ha.path_eq, ih]

/-! ## 2. Diagrams -/

namespace Diagram

/-- **Look-ups have the same outcome in both diagrams**, up to the spelling of names. -/
structure Alike (d d' : Diagram) : Prop where
  nodeAt : ∀ path, Agree Node.Alike (d.nodeAt path) (d'.nodeAt path)
  endpoints : ∀ path, Agree (fun x y => x.1.Alike y.1 ∧ x.2.Alike y.2) (d.endpoints path)
    (d'.endpoints path)
  /-- no chain of parts can be longer in the one than in the other -/
  length_eq : d.nodes.length = d'.nodes.length

/-- A diagram answers like itself in small letters. -/
theorem alike_caseless (d : Diagram) : d.Alike d.caseless where
  nodeAt path := by
    rw [nodeAt_caseless]
    exact .map_right Node.alike_caseless _
  endpoints path := by
    rw [endpoints_caseless]
    exact .map_right (fun x => ⟨x.1.alike_caseless, x.2.alike_caseless⟩) _
  length_eq := by rw [caseless, List.length_map]

namespace Alike

variable {d d' : Diagram} (h : d.Alike d') (path : String)

include h

theorem entityAt : Agree EntityNode.Alike (d.entityAt path) (d'.entityAt path) := by
  refine (h.nodeAt path).bind fun n n' hn => ?_
  cases hn with
  | entity he => exact .ok he
  | relationship hr => cases hr; exact .error _
  | attr ha => cases ha; exact .error _

theorem attributeAt : Agree AttributeNode.Alike (d.attributeAt path) (d'.attributeAt path) := by
  refine (h.nodeAt path).bind fun n n' hn => ?_
  cases hn with
  | entity he => cases he; exact .error _
  | relationship hr => cases hr; exact .error _
  | attr ha => exact .ok ha

/-- **The attributes of an entity.** -/
theorem attributesOf : Agree (List.Forall₂ AttributeNode.Alike) (d.attributesOf path)
    (d'.attributesOf path) := by
  refine (h.entityAt path).bind fun e e' he => ?_
  cases he
  dsimp only
  split
  · exact .error _
  · exact .mapM fun p _ => h.attributeAt p

/-- **The attributes of an entity or relationship that are no parts of others.** -/
theorem topLevel : Agree (List.Forall₂ AttributeNode.Alike) (d.topLevel path)
    (d'.topLevel path) := by
  have howned : ∀ owned : List String, Agree (List.Forall₂ AttributeNode.Alike)
      (owned.mapM d.attributeAt >>= fun as => pure (as.filter fun a => a.parent.isNone))
      (owned.mapM d'.attributeAt >>= fun as => pure (as.filter fun a => a.parent.isNone)) := by
    intro owned
    refine (Agree.mapM fun p _ => h.attributeAt p).bind fun as as' has => .ok ?_
    refine List.rel_filter (fun a a' ha => ?_) has
    cases ha
    rfl
  refine (h.nodeAt path).bind fun n n' hn => ?_
  cases hn with
  | entity he => cases he; exact howned _
  | relationship hr => cases hr; exact howned _
  | attr ha => cases ha; exact .error _

end Alike

end Diagram

end EntityLayout
