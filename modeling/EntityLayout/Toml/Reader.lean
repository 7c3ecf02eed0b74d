/-
# Reading TOML

`ofText?` reads a document, line by line: headers, which open tables, and keys with their
values.  A text that is no TOML document, or that defines something twice, has no value.
-/
import EntityLayout.Toml.Outline
import EntityLayout.Toml.Scalar

namespace EntityLayout.Toml

/-! ## 1. Between values -/

/-- What follows the blanks of a line. -/
def dropBlanks (cs : List Char) : List Char := cs.dropWhile isBlank

/-- What follows blanks, line breaks and comments; `comment` tells that a comment was begun. -/
def dropFiller : (comment : Bool) → List Char → Option (List Char)
  | _, [] => some []
  | _, '\n' :: rest => dropFiller false rest
  | _, '\r' :: '\n' :: rest => dropFiller false rest
  | true, c :: rest => if isPlain c then dropFiller true rest else none
  | false, '#' :: rest => dropFiller true rest
  | false, c :: rest => if isBlank c then dropFiller false rest else some (c :: rest)

/-- What follows the end of a line that holds no more than blanks and a comment. -/
def endLine? (cs : List Char) : Option (List Char) :=
  let cs := match dropBlanks cs with
    | '#' :: rest => rest.dropWhile isPlain
    | cs => cs
  match cs with
  | [] => some []
  | cs => lineBreak? cs

/-! ## 2. Keys -/

/-- Whether a character may be part of a key without quotes. -/
def isBareChar (c : Char) : Bool := c.isAlphanum || c = '_' || c = '-'

/-- A name of a key, and what follows it. -/
def scanName (cs : List Char) : Option (String × List Char) :=
  match quote? cs with
  | some q => scanText false q cs
  | none =>
    match cs.takeWhile isBareChar with
    | [] => none
    | name => some (String.ofList name, cs.dropWhile isBareChar)

/-- A key, as the names before its last one and the last one, and what follows it and the
blanks behind it.  Every name takes a character, so the length of the text suffices as
fuel. -/
def scanKey : (fuel : Nat) → List Char → Option ((List String × String) × List Char)
  | 0, _ => none
  | fuel + 1, cs => do
    let (name, rest) ← scanName (dropBlanks cs)
    match dropBlanks rest with
    | '.' :: rest =>
      let ((path, key), rest) ← scanKey fuel rest
      pure ((name :: path, key), rest)
    | rest => pure (([], name), rest)

/-! ## 3. Values -/

/-- How deep arrays and tables between braces may be nested. -/
def nestingLimit : Nat := 80

mutual

/-- A value and what follows it; `levels` more brackets may be opened.  Every call takes a
character or passes on to one that does, so twice the length of the text suffices as fuel. -/
def scanValue : (fuel levels : Nat) → List Char → Option (Toml × List Char)
  | 0, _, _ => none
  | _, 0, '[' :: _ => none
  | _, 0, '\x7b' :: _ => none
  | fuel + 1, levels + 1, '[' :: rest => do
    let (items, rest) ← scanItems fuel levels rest
    pure (.array items, rest)
  | fuel + 1, levels + 1, '\x7b' :: rest =>
    match dropBlanks rest with
    | '\x7d' :: rest => some (.table [], rest)
    | rest => do
      let (es, rest) ← scanFields fuel levels [] rest
      pure (.table (finishEntries es), rest)
  | _, _, cs =>
    match quote? cs with
    | some q => (scanText true q cs).map fun (s, rest) => (.text s, rest)
    | none =>
      let (word, rest) := scanWord cs
      (ofWord? word).map fun v => (v, rest)

/-- The items of an array up to its closing bracket, and what follows. -/
def scanItems : (fuel levels : Nat) → List Char → Option (List Toml × List Char)
  | 0, _, _ => none
  | fuel + 1, levels, cs => do
    match ← dropFiller false cs with
    | ']' :: rest => pure ([], rest)
    | cs =>
      let (v, rest) ← scanValue fuel levels cs
      match ← dropFiller false rest with
      | ']' :: rest => pure ([v], rest)
      | ',' :: rest =>
        let (vs, rest) ← scanItems fuel levels rest
        pure (v :: vs, rest)
      | _ => none

/-- The fields of a table between braces up to the closing one, added to the fields before
them, and what follows. -/
def scanFields : (fuel levels : Nat) → Entries → List Char → Option (Entries × List Char)
  | 0, _, _, _ => none
  | fuel + 1, levels, es, cs => do
    let ((path, key), rest) ← scanKey cs.length cs
    match rest with
    | '=' :: rest =>
      let (v, rest) ← scanValue fuel levels (dropBlanks rest)
      let (_, es) ← Entries.addPath path key v .defined es
      match dropBlanks rest with
      | '\x7d' :: rest => pure (es, rest)
      | ',' :: rest => scanFields fuel levels es rest
      | _ => none
    | _ => none

end

/-! ## 4. Documents -/

/-- A document up to some line: its entries and the path of the table that is open. -/
structure Progress where
  entries : Entries
  opened : List String

/-- The document before its first line. -/
def Progress.start : Progress := ⟨[], []⟩

namespace Progress

/-- Makes a change to the table at a path from the root. -/
def change (p : Progress) (path : List String) (f : TableChange) : Option Entries :=
  (Entries.changeAt false path f .defined p.entries).map Prod.snd

/-- Takes a header, after its first bracket. -/
def header (p : Progress) (cs : List Char) : Option (Progress × List Char) :=
  match cs with
  | '[' :: rest => do
    let ((path, key), rest) ← scanKey rest.length rest
    match rest with
    | ']' :: ']' :: rest =>
      let entries ← p.change path (Entries.appendTable key)
      pure (⟨entries, path ++ [key]⟩, rest)
    | _ => none
  | _ => do
    let ((path, key), rest) ← scanKey cs.length cs
    match rest with
    | ']' :: rest =>
      let entries ← p.change path (Entries.defineTable key)
      pure (⟨entries, path ++ [key]⟩, rest)
    | _ => none

/-- Takes a key with its value. -/
def field (p : Progress) (cs : List Char) : Option (Progress × List Char) := do
  let ((path, key), rest) ← scanKey cs.length cs
  match rest with
  | '=' :: rest =>
    let rest := dropBlanks rest
    let (v, rest) ← scanValue (2 * rest.length + 2) nestingLimit rest
    let entries ← p.change p.opened (Entries.addPath path key v)
    pure (⟨entries, p.opened⟩, rest)
  | _ => none

/-- Takes the lines that are left.  Every line takes a character, so the length of the text
suffices as fuel. -/
def lines : (fuel : Nat) → Progress → List Char → Option Progress
  | 0, _, _ => none
  | fuel + 1, p, cs => do
    match ← dropFiller false cs with
    | [] => pure p
    | cs =>
      let (p, rest) ← match cs with
        | '[' :: rest => p.header rest
        | _ => p.field cs
      let rest ← endLine? rest
      lines fuel p rest

end Progress

/-- The text without a byte order mark. -/
def withoutMark : List Char → List Char
  | '\uFEFF' :: rest => rest
  | cs => cs

/-- The table of a document. -/
def ofText? (text : String) : Option Toml := do
  let cs := withoutMark text.toList
  let p ← Progress.lines (cs.length + 1) .start cs
  pure (.table (finishEntries p.entries))

end EntityLayout.Toml
