/-
# Groupings

A grouping names the nodes of a diagram that are stored together in one table.  Names are
kept in small letters.  A name given twice stands for two instances of the same entity.
-/
import EntityLayout.Text.Case

namespace EntityLayout

/-- The names that share a table. -/
structure Grouping where
  names : List String
  deriving DecidableEq, Repr

namespace Grouping

/-- The grouping of names in any spelling. -/
def ofNames (names : List String) : Grouping := ⟨names.map Text.lower⟩

/-- Whether the grouping holds exactly this name. -/
def contains (g : Grouping) (name : String) : Bool := g.names.contains name

/-- The number of names, repetitions counted. -/
def size (g : Grouping) : Nat := g.names.length

/-- The names that come again, each at its second place; `seen` came before, and `reported`
came twice before. -/
def repeatedAfter (seen reported : List String) : List String → List String
  | [] => []
  | n :: ns =>
    if n ∈ seen ∧ n ∉ reported then n :: repeatedAfter (n :: seen) (n :: reported) ns
    else repeatedAfter (n :: seen) reported ns

/-- The names that occur more than once, in the order of their second occurrences. -/
def repeated (g : Grouping) : List String := repeatedAfter [] [] g.names

example : (ofNames ["x", "y", "Y", "X", "y"]).repeated = ["y", "x"] := by decide +kernel

end Grouping

end EntityLayout
