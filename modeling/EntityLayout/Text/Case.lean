/-
# Small and capital letters

Names are compared in small letters.  `lower` and `upper` are the full mappings of Unicode:
a letter may map to several, and a capital sigma becomes the final form `ς` at the end of a
word and `σ` elsewhere.  Whether it ends a word is read off the whole text around it: the
nearest character before it that is not case-ignorable has a case, and the nearest one after
it has none.  `asciiLower` and `asciiUpper` touch the letters of ASCII only.

* `toList_lower`, `toList_upper`: the mappings, character by character.
-/
import EntityLayout.Text.CaseTable
import EntityLayout.Text.CaseContext

namespace EntityLayout.Text

/-! ## 1. One character -/

/-- The image of a character under a list of runs, or the character itself. -/
def mapByRuns (runs : List CaseRun) (c : Char) : Char :=
  match runs.findSome? (·.image? c.toNat) with
  | some d => Char.ofNat d
  | none => c

/-- The small form of a character, away from any context.  The dotted capital `İ` keeps its
dot as a mark of its own. -/
def lowerChar (c : Char) : List Char :=
  if c.toNat < 128 then [c.toLower]
  else if c = 'İ' then ['i', '\u0307']
  else [mapByRuns lowerRuns c]

/-- The capital form of a character, which may be several. -/
def upperChar (c : Char) : List Char :=
  if c.toNat < 128 then [c.toUpper]
  else match upperExpansions.lookup c.toNat with
    | some ds => ds.map Char.ofNat
    | none => [mapByRuns upperRuns c]

/-! ## 2. A text -/

/-- Whether the first character that is not case-ignorable has a case. -/
def startsCased (cs : List Char) : Bool :=
  match cs.dropWhile isCaseIgnorable with
  | c :: _ => isCased c
  | [] => false

/-- Whether a letter between `before` (nearest character first) and `after` ends a word. -/
def endsWord (before after : List Char) : Bool := startsCased before && !startsCased after

/-- The small form of a character in its context. -/
def lowerWithin (before : List Char) (c : Char) (after : List Char) : List Char :=
  if c = 'Σ' then [if endsWord before after then 'ς' else 'σ'] else lowerChar c

/-- The small form of a text that follows `before` (nearest character first). -/
def lowerChars (before : List Char) : List Char → List Char
  | [] => []
  | c :: after => lowerWithin before c after ++ lowerChars (c :: before) after

/-- The text in small letters. -/
def lower (s : String) : String := String.ofList (lowerChars [] s.toList)

/-- The text in capital letters. -/
def upper (s : String) : String := String.ofList (s.toList.flatMap upperChar)

/-- The text with the letters of ASCII made small. -/
def asciiLower (s : String) : String := String.ofList (s.toList.map Char.toLower)

/-- The text with the letters of ASCII made capital. -/
def asciiUpper (s : String) : String := String.ofList (s.toList.map Char.toUpper)

theorem toList_lower (s : String) : (lower s).toList = lowerChars [] s.toList := by
  simp [lower]

theorem toList_upper (s : String) : (upper s).toList = s.toList.flatMap upperChar := by
  simp [upper]

example : lower "ΟΔΟΣ" = "οδος" ∧ lower "ΑΣ.Σ" = "ασ.ς" ∧ lower "Σ" = "σ" := by decide +kernel
example : lower "İ" = "i̇" ∧ lower "ẞ" = "ß" ∧ upper "ß" = "SS" ∧ upper "ǆ" = "Ǆ" := by
  decide +kernel

end EntityLayout.Text
