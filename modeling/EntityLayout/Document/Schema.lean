/-
# Schemas and groupings as JSON

The written form of declarations and groupings.  A declaration is read from an object, or
from an array of its fields in order; a written declaration has all its fields, except that
parents and roles are left out where there are none.
-/
import EntityLayout.Declaration
import EntityLayout.Grouping
import EntityLayout.Json.Print
import EntityLayout.Json.Reader

namespace EntityLayout

open Json (Reader Field)

/-! ## 1. Attributes -/

namespace AttributeType

/-- Reads a type by its spelling. -/
def reader : Reader AttributeType := fun scope d => do
  let s ← Json.string scope d
  pure (ofSpelling s)

/-- Writes a type by its spelling. -/
def toJson (t : AttributeType) : Json := .text t.spelling

end AttributeType

namespace Attribute

/-- Reads a declared attribute whose parts are nested no deeper than `depth`. -/
def declReader : (depth : Nat) → Reader Attribute
  | 0 => fun _ _ => Json.fail .malformed
  | depth + 1 => fun scope d => do
    let (name, type, primaryKey, discriminator, multivalued, parts, ()) ←
      @Json.record [String, AttributeType, Bool, Bool, Bool, List Attribute]
        "struct AttributeRecord"
        (.required "attr_name" Json.string,
          .required "attr_type" AttributeType.reader,
          .withDefault "is_primary_key" Json.boolean false,
          .withDefault "is_discriminator" Json.boolean false,
          .withDefault "is_multivalued" Json.boolean false,
          .withDefault "sub_attributes" (Json.list (declReader depth)) [], ()) scope d
    pure ⟨name, type, primaryKey, discriminator, multivalued, parts⟩

/-- Reads a declared attribute.  A text is not nested deeper than the limit. -/
def declFromJson : Reader Attribute := declReader Json.nestingLimit

mutual

/-- Writes a declared attribute. -/
def declToJson : Attribute → Json
  | ⟨name, type, primaryKey, discriminator, multivalued, parts⟩ =>
    .object [("attr_name", .text name), ("attr_type", type.toJson),
      ("is_primary_key", .bool primaryKey), ("is_discriminator", .bool discriminator),
      ("is_multivalued", .bool multivalued), ("sub_attributes", .array (declsToJson parts))]

/-- Writes declared attributes, each on its own. -/
def declsToJson : List Attribute → List Json
  | [] => []
  | a :: as => declToJson a :: declsToJson as

end

end Attribute

/-! ## 2. Entities and relationships -/

namespace EntityKind

/-- The kinds by name. -/
def byName : List (String × EntityKind) :=
  [("REGULAR", .regular), ("WEAK", .weak), ("SUBCLASS", .subclass)]

/-- Reads a kind by its name. -/
def reader : Reader EntityKind := Json.choice byName

/-- The name of a kind. -/
def name : EntityKind → String
  | .regular => "REGULAR"
  | .weak => "WEAK"
  | .subclass => "SUBCLASS"

end EntityKind

/-- Reads the declaration of an entity. -/
def EntityDecl.reader : Reader EntityDecl := fun scope d => do
  let (name, kind, parent, attributes, ()) ←
    @Json.record [String, EntityKind, Option String, List Attribute] "struct EntityRecord"
      (.required "table_name" Json.string,
        .required "entity_type" EntityKind.reader,
        .optional "parent_entity" Json.string,
        .required "attributes" (Json.list Attribute.declFromJson), ()) scope d
  pure ⟨name, kind, parent, attributes⟩

/-- Writes the declaration of an entity. -/
def EntityDecl.toJson (e : EntityDecl) : Json :=
  .object ([("table_name", .text e.name), ("entity_type", .text e.kind.name)]
    ++ Json.fieldIfSome "parent_entity" .text e.parent
    ++ [("attributes", .array (Attribute.declsToJson e.attributes))])

/-- Reads one side of a relationship. -/
def Endpoint.reader : Reader Endpoint := fun scope d => do
  let (name, role, ()) ← @Json.record [String, Option String] "struct EndpointRecord"
    (.required "name" Json.string, .optional "role" Json.string, ()) scope d
  pure ⟨name, role⟩

/-- Writes one side of a relationship. -/
def Endpoint.toJson (e : Endpoint) : Json :=
  .object (("name", .text e.name) :: Json.fieldIfSome "role" .text e.role)

/-- Reads the declaration of a relationship. -/
def RelationshipDecl.reader : Reader RelationshipDecl := fun scope d => do
  let (name, first, second, attributes, ()) ←
    @Json.record [String, Endpoint, Endpoint, List Attribute] "struct RelationshipRecord"
      (.required "table_name" Json.string,
        .required "entity1" Endpoint.reader,
        .required "entity2" Endpoint.reader,
        .withDefault "attributes" (Json.list Attribute.declFromJson) [], ()) scope d
  pure ⟨name, first, second, attributes⟩

/-- Writes the declaration of a relationship. -/
def RelationshipDecl.toJson (r : RelationshipDecl) : Json :=
  .object [("table_name", .text r.name), ("entity1", r.first.toJson),
    ("entity2", r.second.toJson), ("attributes", .array (Attribute.declsToJson r.attributes))]

/-! ## 3. Schemas and groupings -/

/-- Reads the declarations of a schema. -/
def SchemaDecl.reader : Reader SchemaDecl := fun scope d => do
  let (entities, relationships, ()) ←
    @Json.record [List EntityDecl, List RelationshipDecl] "struct SchemaRecords"
      (.withDefault "entities" (Json.list EntityDecl.reader) [],
        .withDefault "relationships" (Json.list RelationshipDecl.reader) [], ()) scope d
  pure ⟨entities, relationships⟩

/-- Writes the declarations of a schema. -/
def SchemaDecl.toJson (s : SchemaDecl) : Json :=
  .object [("entities", .array (s.entities.map EntityDecl.toJson)),
    ("relationships", .array (s.relationships.map RelationshipDecl.toJson))]

/-- Reads a grouping. -/
def Grouping.reader : Reader Grouping := fun scope d => do
  let names ← Json.list Json.string scope d
  pure (.ofNames names)

/-- Reads a list of groupings. -/
def Grouping.listReader : Reader (List Grouping) := Json.list Grouping.reader

end EntityLayout
