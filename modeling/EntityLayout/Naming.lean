/-
# Names of keys, types and tables

The names that a layout makes up.  A key column is called after its entity, as in
`person_id`; an optional modifier goes before the `id`.  A composite type is called after its
attribute, and tables are numbered.
-/
import EntityLayout.Path

namespace EntityLayout

/-- The parts of made-up names. -/
structure Naming where
  keyModifier : String
  typeSuffix : String
  tableStem : String
  deriving DecidableEq, Repr

namespace Naming

/-- The names without a modifier: `person_id`, `person_name_type`, `rel0`. -/
def standard : Naming := ⟨"", "_type", "rel"⟩

instance : Inhabited Naming := ⟨standard⟩

/-- What every key column ends in. -/
def keySuffix (n : Naming) : String := "_" ++ n.keyModifier ++ "id"

/-- The text without that ending. -/
def withoutSuffix? (suffix s : String) : Option String :=
  if suffix.toList.isSuffixOf s.toList then
    some (String.ofList (s.toList.take (s.toList.length - suffix.toList.length)))
  else none

/-- Whether a name is that of a declared key, which a key column stands for. -/
def isKeyName (n : Naming) (name : String) : Bool :=
  "_id".toList.isSuffixOf name.toList || n.keySuffix.toList.isSuffixOf name.toList

/-- The key column of an entity. -/
def keyColumn (n : Naming) (entity : String) : String := entity ++ n.keySuffix

/-- The key column of an entity in a role.  An ending that the role shares with key columns is
not written twice. -/
def roleKeyColumn (n : Naming) (role : String) : String :=
  let role := Text.lower role
  n.keyColumn (((withoutSuffix? n.keySuffix role).orElse fun _ =>
    withoutSuffix? "_id" role).getD role)

/-- The composite type of an attribute. -/
def typeName (n : Naming) (path : String) : String := Path.separatedBy "_" path ++ n.typeSuffix

/-- The table of a grouping. -/
def tableName (n : Naming) (index : Nat) : String := n.tableStem ++ Nat.repr index

/-- The column of an attribute with that place below its owner. -/
def columnName (localPart : String) : String := Path.separatedBy "__" localPart

end Naming

end EntityLayout
