/-
# Why a JSON text cannot be read

A text may stop being JSON, end too early, or be JSON of the wrong shape.  `Mismatch` holds
the ways in which the shape can be wrong, and `Mismatch.message` words them.
-/
import EntityLayout.Json.Draft
import EntityLayout.Text.Quoted

namespace EntityLayout.Json

/-- What a reader found in place of what it wanted. -/
inductive Found where
  | null
  | bool (b : Bool)
  | number (n : Number)
  | text (s : String)
  | array
  | object
  /-- a bare variant name where the variant holds a value -/
  | bareVariant
  deriving DecidableEq, Repr

/-- The wording of what was found. -/
def Found.describe : Found → String
  | .null => "null"
  | .bool true => "boolean `true`"
  | .bool false => "boolean `false`"
  | .number (.real x) => "floating point `" ++ x.text ++ "`"
  | .number n => "integer `" ++ n.text ++ "`"
  | .text s => "string " ++ Text.quoted s
  | .array => "sequence"
  | .object => "map"
  | .bareVariant => "unit variant"

/-- How a JSON value differs from the shape that a reader wants. -/
inductive Mismatch where
  | missingField (name : String)
  | duplicateField (name : String)
  | unknownVariant (name : String) (known : List String)
  | wrongType (found : Found) (wanted : String)
  | wrongValue (found : Found) (wanted : String)
  | wrongLength (length : Nat) (wanted : String)
  deriving DecidableEq, Repr

/-- The known names of a variant. -/
def describeKnown : List String → String
  | [] => "there are no variants"
  | [a] => "expected `" ++ a ++ "`"
  | [a, b] => "expected `" ++ a ++ "` or `" ++ b ++ "`"
  | known => "expected one of " ++ String.intercalate ", " (known.map fun a => "`" ++ a ++ "`")

/-- The wording of a mismatch. -/
def Mismatch.message : Mismatch → String
  | .missingField name => "missing field `" ++ name ++ "`"
  | .duplicateField name => "duplicate field `" ++ name ++ "`"
  | .unknownVariant name known => "unknown variant `" ++ name ++ "`, " ++ describeKnown known
  | .wrongType found wanted => "invalid type: " ++ found.describe ++ ", expected " ++ wanted
  | .wrongValue found wanted => "invalid value: " ++ found.describe ++ ", expected " ++ wanted
  | .wrongLength n wanted => "invalid length " ++ Nat.repr n ++ ", expected " ++ wanted

/-- Why a text cannot be read. -/
inductive ReadError where
  /-- the text is not JSON, or ends too early -/
  | flawed (cause : Cause)
  /-- the text is JSON of another shape -/
  | mismatch (m : Mismatch)
  deriving DecidableEq, Repr

/-- The wording of a failure to read, where the shape is at fault. -/
def ReadError.message : ReadError → String
  | .flawed .malformed => "malformed JSON"
  | .flawed .truncated => "unexpected end of JSON"
  | .mismatch m => m.message

end EntityLayout.Json
