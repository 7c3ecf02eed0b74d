/-
# Quoted texts

The form in which a text stands inside a message: between double quotes, with a backslash
before a quote or a backslash, the usual letters for tab, line feed, return and the null
character, and the code point in hexadecimal for everything else that cannot be shown as it
is.
-/
import EntityLayout.Text.Visible

namespace EntityLayout.Text

/-- The hexadecimal digits of a number, small letters, without leading zeros. -/
def hexDigits (n : Nat) : List Char := Nat.toDigits 16 n

/-- The form of one character inside a quoted text. -/
def quotedChar (c : Char) : List Char :=
  if c = '"' then ['\\', '"']
  else if c = '\\' then ['\\', '\\']
  else if c = '\n' then ['\\', 'n']
  else if c = '\r' then ['\\', 'r']
  else if c = '\t' then ['\\', 't']
  else if c.toNat = 0 then ['\\', '0']
  else if isVisible c then [c]
  else ['\\', 'u', '\x7b'] ++ hexDigits c.toNat ++ ['\x7d']

/-- The text between double quotes, with what cannot be shown escaped. -/
def quoted (s : String) : String :=
  String.ofList ('"' :: s.toList.flatMap quotedChar ++ ['"'])

/-- A list of quoted texts between square brackets. -/
def quotedList (items : List String) : String :=
  "[" ++ String.intercalate ", " (items.map quoted) ++ "]"

example : quoted "a\"b\\\u007f\u200bé\u0301" = "\"a\\\"b\\\\\\u\x7b7f\x7d\\u\x7b200b\x7dé\\u\x7b301\x7d\"" := by
  decide +kernel
example : quotedList ["rel0", "rel1"] = "[\"rel0\", \"rel1\"]" := by decide +kernel

end EntityLayout.Text
