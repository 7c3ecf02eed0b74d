/-
# Attributes and their parts

Measures and properties of attributes that go down to the parts of the parts.

* `Attribute.height`: how deep the parts are nested.
* `Attribute.IsSpelled`: every type is the one that its own spelling names.
-/
import EntityLayout.Attribute
import Mathlib.Data.List.Basic

namespace EntityLayout

/-! ## 1. Types and their spelling -/

namespace AttributeType

/-- The type is the one that its spelling names.  It fails only for an unknown type that is
spelled like a known one. -/
def IsSpelled (t : AttributeType) : Prop := ofSpelling t.spelling = t

theorem isSpelled_ofSpelling (s : String) : (ofSpelling s).IsSpelled := by
  unfold ofSpelling
  simp only
  split
  · show ofSpelling "INT" = .integer
    decide
  split
  · show ofSpelling "VARCHAR" = .varchar
    decide
  split
  · show ofSpelling "COMPOSITE" = .composite
    decide
  · next h₁ h₂ h₃ =>
    show ofSpelling s = .other s
    unfold ofSpelling
    simp only [if_neg h₁, if_neg h₂, if_neg h₃]

end AttributeType

/-! ## 2. Going down to the parts -/

namespace Attribute

mutual

/-- Attributes are dealt with part by part. -/
theorem induction {P : Attribute → Prop} (step : ∀ a : Attribute, (∀ b ∈ a.parts, P b) → P a) :
    ∀ a, P a
  | ⟨name, type, primaryKey, discriminator, multivalued, parts⟩ =>
    step ⟨name, type, primaryKey, discriminator, multivalued, parts⟩ (inductionOnParts step parts)

theorem inductionOnParts {P : Attribute → Prop}
    (step : ∀ a : Attribute, (∀ b ∈ a.parts, P b) → P a) :
    ∀ as : List Attribute, ∀ a ∈ as, P a
  | [], _, h => absurd h List.not_mem_nil
  | a :: as, b, h => by
    rcases List.mem_cons.mp h with hb | h
    · rw [hb]
      exact induction step a
    · exact inductionOnParts step as b h

end

mutual

/-- The number of attributes on the longest way down, the attribute itself counted. -/
def height : Attribute → Nat
  | ⟨_, _, _, _, _, parts⟩ => heightOf parts + 1

/-- The greatest height of several attributes. -/
def heightOf : List Attribute → Nat
  | [] => 0
  | a :: as => max (height a) (heightOf as)

end

theorem heightOf_le {n : Nat} : ∀ {as : List Attribute},
    heightOf as ≤ n ↔ ∀ a ∈ as, a.height ≤ n
  | [] => by simp [heightOf]
  | a :: as => by rw [heightOf, Nat.max_le, heightOf_le, List.forall_mem_cons]

theorem height_eq (a : Attribute) : a.height = heightOf a.parts + 1 := by
  cases a
  rw [height]

mutual

/-- The type of the attribute and those of its parts are the ones that their spelling
names. -/
def IsSpelled : Attribute → Prop
  | ⟨_, type, _, _, _, parts⟩ => type.IsSpelled ∧ AreSpelled parts

/-- The same of several attributes. -/
def AreSpelled : List Attribute → Prop
  | [] => True
  | a :: as => IsSpelled a ∧ AreSpelled as

end

theorem areSpelled_iff : ∀ {as : List Attribute}, AreSpelled as ↔ ∀ a ∈ as, a.IsSpelled
  | [] => by simp [AreSpelled]
  | a :: as => by rw [AreSpelled, areSpelled_iff, List.forall_mem_cons]

theorem isSpelled_iff {a : Attribute} :
    a.IsSpelled ↔ a.type.IsSpelled ∧ ∀ b ∈ a.parts, b.IsSpelled := by
  cases a
  rw [IsSpelled, areSpelled_iff]

end Attribute

end EntityLayout
