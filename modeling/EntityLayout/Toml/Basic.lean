/-
# TOML values

A document of TOML is a table.  Numbers with a fraction and points in time keep their
spelling, which is known to be sound.
-/

namespace EntityLayout

/-- A TOML value. -/
inductive Toml where
  | text (s : String)
  | integer (i : Int)
  /-- a number with a fraction or a power of ten, an infinity, or no number at all -/
  | real (spelling : String)
  | bool (b : Bool)
  /-- a date, a time of day, or both -/
  | moment (spelling : String)
  | array (items : List Toml)
  | table (entries : List (String × Toml))
  deriving Repr

end EntityLayout
