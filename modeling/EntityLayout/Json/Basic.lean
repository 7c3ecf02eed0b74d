/-
# JSON values

Objects keep their fields in order, and may hold a name twice.  Whole numbers of 64 bits are
exact; every other number is a binary floating-point number.
-/
import EntityLayout.Json.Binary64

namespace EntityLayout

namespace Json

/-- A number of a JSON text. -/
inductive Number where
  /-- a whole number below `2 ^ 64` -/
  | natural (n : Nat)
  /-- the whole number `-n`, for `n` from 1 to `2 ^ 63` -/
  | negative (n : Nat)
  /-- any other number -/
  | real (x : Binary64)
  deriving DecidableEq, Repr

/-- The decimal text of a number. -/
def Number.text : Number → String
  | .natural n => Nat.repr n
  | .negative n => "-" ++ Nat.repr n
  | .real x => x.text

end Json

/-- A JSON value. -/
inductive Json where
  | null
  | bool (b : Bool)
  | number (n : Json.Number)
  | text (s : String)
  | array (items : List Json)
  | object (fields : List (String × Json))
  deriving Repr

namespace Json

/-- A whole number. -/
abbrev nat (n : Nat) : Json := .number (.natural n)

/-- A value that may be missing, written as `null`. -/
def orNull {α : Type} (f : α → Json) : Option α → Json
  | some a => f a
  | none => .null

/-- A list of texts. -/
def texts (items : List String) : Json := .array (items.map .text)

/-- A field that is left out when there is nothing to write. -/
def fieldIfSome {α : Type} (name : String) (f : α → Json) : Option α → List (String × Json)
  | some a => [(name, f a)]
  | none => []

/-- The value of the first field of that name. -/
def get? (name : String) : Json → Option Json
  | .object fields => fields.lookup name
  | _ => none

end Json

end EntityLayout
