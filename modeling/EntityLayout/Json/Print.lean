/-
# Writing JSON

Two layouts of the same tokens.  `compact` writes no blanks.  `pretty` puts each item and
field on a line of its own, two spaces deeper than the bracket around it, and a space after
the colon; an empty array or object stays on its line.  In a text, the quote, the backslash
and the control characters are escaped, and everything else stands as it is.
-/
import EntityLayout.Json.Basic

namespace EntityLayout.Json

/-! ## 1. Texts -/

/-- The hexadecimal digit of a number below 16, in small letters. -/
def hexDigit (n : Nat) : Char := (Nat.digitChar n)

/-- The form of one character inside a JSON text. -/
def escapedChar (c : Char) : List Char :=
  if c = '"' then ['\\', '"']
  else if c = '\\' then ['\\', '\\']
  else if c = '\x08' then ['\\', 'b']
  else if c = '\t' then ['\\', 't']
  else if c = '\n' then ['\\', 'n']
  else if c = '\x0c' then ['\\', 'f']
  else if c = '\r' then ['\\', 'r']
  else if c.toNat < 32 then
    ['\\', 'u', '0', '0', hexDigit (c.toNat / 16), hexDigit (c.toNat % 16)]
  else [c]

/-- A text between quotes. -/
def escaped (s : String) : List Char := '"' :: s.toList.flatMap escapedChar ++ ['"']

/-! ## 2. Values -/

/-- A line break followed by the blanks of the given depth. -/
def lineBreak (depth : Nat) : List Char := '\n' :: List.replicate (2 * depth) ' '

/-- Where the blanks go: none at all, or one item to a line. -/
inductive Style where
  | compact
  | pretty
  deriving DecidableEq

/-- The blanks before an item at the given depth, or before the bracket that closes it. -/
def Style.gap (style : Style) (depth : Nat) : List Char :=
  match style with
  | .compact => []
  | .pretty => lineBreak depth

/-- What stands between a field's name and its value. -/
def Style.colon (style : Style) : List Char :=
  match style with
  | .compact => [':']
  | .pretty => [':', ' ']

mutual

/-- The characters of a value that stands at the given depth. -/
def print (style : Style) (depth : Nat) : Json → List Char
  | .null => ['n', 'u', 'l', 'l']
  | .bool true => ['t', 'r', 'u', 'e']
  | .bool false => ['f', 'a', 'l', 's', 'e']
  | .number n => n.text.toList
  | .text s => escaped s
  | .array [] => ['[', ']']
  | .array (x :: xs) =>
    '[' :: style.gap (depth + 1) ++ print style (depth + 1) x
      ++ printItems style (depth + 1) xs ++ style.gap depth ++ [']']
  | .object [] => ['\x7b', '\x7d']
  | .object ((k, v) :: fs) =>
    '\x7b' :: style.gap (depth + 1) ++ escaped k ++ style.colon ++ print style (depth + 1) v
      ++ printFields style (depth + 1) fs ++ style.gap depth ++ ['\x7d']

/-- The items after the first, each behind a comma. -/
def printItems (style : Style) (depth : Nat) : List Json → List Char
  | [] => []
  | x :: xs => ',' :: style.gap depth ++ print style depth x ++ printItems style depth xs

/-- The fields after the first, each behind a comma. -/
def printFields (style : Style) (depth : Nat) : List (String × Json) → List Char
  | [] => []
  | (k, v) :: fs =>
    ',' :: style.gap depth ++ escaped k ++ style.colon ++ print style depth v
      ++ printFields style depth fs

end

/-- The value without blanks. -/
def compact (j : Json) : String := String.ofList (print .compact 0 j)

/-- The value with one item to a line. -/
def pretty (j : Json) : String := String.ofList (print .pretty 0 j)

end EntityLayout.Json
