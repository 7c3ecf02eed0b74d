/-
# Attributes

An attribute has a name, a type, three marks and, if it is composite, parts of its own.  The
declarations of a schema and the logical structure of an entity are lists of attributes.
-/
import EntityLayout.Text.Case

namespace EntityLayout

/-- The declared type of an attribute.  A type that is none of the known ones keeps its
spelling. -/
inductive AttributeType where
  | integer
  | varchar
  | composite
  | other (spelling : String)
  deriving DecidableEq, Repr

namespace AttributeType

/-- The type of that spelling; the known ones are recognised in any case. -/
def ofSpelling (spelling : String) : AttributeType :=
  let capital := Text.asciiUpper spelling
  if capital = "INT" ∨ capital = "INTEGER" then .integer
  else if capital = "VARCHAR" then .varchar
  else if capital = "COMPOSITE" then .composite
  else .other spelling

/-- The spelling of a type. -/
def spelling : AttributeType → String
  | .integer => "INT"
  | .varchar => "VARCHAR"
  | .composite => "COMPOSITE"
  | .other s => s

/-- Whether attributes of the type have parts. -/
def isComposite (t : AttributeType) : Bool := decide (t = .composite)

end AttributeType

/-- An attribute with its parts. -/
structure Attribute where
  name : String
  type : AttributeType
  primaryKey : Bool
  discriminator : Bool
  multivalued : Bool
  parts : List Attribute
  deriving Repr

namespace Attribute

instance : Inhabited Attribute := ⟨⟨"", .integer, false, false, false, []⟩⟩

mutual

/-- Equality of attributes is decided part by part. -/
def decideEq : (a b : Attribute) → Decidable (a = b)
  | ⟨n, t, p, d, m, as⟩, ⟨n', t', p', d', m', as'⟩ =>
    match decideEqList as as' with
    | isTrue h =>
      if h' : n = n' ∧ t = t' ∧ p = p' ∧ d = d' ∧ m = m' then
        isTrue (by obtain ⟨rfl, rfl, rfl, rfl, rfl⟩ := h'; rw [h])
      else isFalse (by simpa [h] using fun a b c d e => h' ⟨a, b, c, d, e⟩)
    | isFalse h => isFalse (by simp [h])

/-- Equality of lists of attributes. -/
def decideEqList : (as bs : List Attribute) → Decidable (as = bs)
  | [], [] => isTrue rfl
  | [], _ :: _ => isFalse (by simp)
  | _ :: _, [] => isFalse (by simp)
  | a :: as, b :: bs =>
    match decideEq a b, decideEqList as bs with
    | isTrue h, isTrue hs => isTrue (by rw [h, hs])
    | isFalse h, _ => isFalse (by simp [h])
    | _, isFalse hs => isFalse (by simp [hs])

end

instance : DecidableEq Attribute := decideEq

/-- Whether the attribute is composite by its type. -/
def isComposite (a : Attribute) : Bool := a.type.isComposite

end Attribute

end EntityLayout
