/-
# Declarations

What a schema declares: entities with their attributes, and relationships between two
entities.  Entities come before relationships, and each names only entities before it.
-/
import EntityLayout.Attribute

namespace EntityLayout

/-- The kind of an entity. -/
inductive EntityKind where
  | regular
  /-- identified only together with its owner -/
  | weak
  /-- a special case of its parent -/
  | subclass
  deriving DecidableEq, Repr

/-- The declaration of an entity; a weak entity names its owner and a subclass its
superclass. -/
structure EntityDecl where
  name : String
  kind : EntityKind
  parent : Option String
  attributes : List Attribute
  deriving DecidableEq

/-- One side of a relationship, with the role that the entity plays in it. -/
structure Endpoint where
  name : String
  role : Option String
  deriving DecidableEq

/-- The declaration of a relationship. -/
structure RelationshipDecl where
  name : String
  first : Endpoint
  second : Endpoint
  attributes : List Attribute
  deriving DecidableEq

/-- The declarations of a schema. -/
structure SchemaDecl where
  entities : List EntityDecl
  relationships : List RelationshipDecl
  deriving DecidableEq

end EntityLayout
