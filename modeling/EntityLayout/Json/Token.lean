/-
# The tokens of a JSON text

`tokens` cuts a text into brackets, marks, words, numbers and texts, leaving out the blanks.
The first place that fits no token becomes a `Token.flaw`, and nothing follows it.

A text between quotes may write half of a surrogate pair as an escape.  Such a text has no
content, which matters only to a reader that wants the content; it is a token all the same.
In the same way a number too large for its kind is a token without a value.
-/
import EntityLayout.Json.Numeral

namespace EntityLayout.Json

/-! ## 1. Flaws -/

/-- How a text fails to be JSON: it goes wrong at some character, or it ends too early. -/
inductive Cause where
  | malformed
  | truncated
  deriving DecidableEq, Repr

/-- What is wrong at the place where a text stops being JSON. -/
inductive Flaw where
  /-- the text ends where something has to follow -/
  | missing
  /-- a character that nothing can begin with, or a mark out of place -/
  | stray
  /-- a misspelt `null`, `true` or `false`, or one that the end of the text cuts off -/
  | word (cause : Cause)
  /-- an incomplete number -/
  | numeral (cause : Cause)
  /-- an unfinished text: the first thing wrong with it, and what is wrong with it apart from
  unpaired surrogates -/
  | text (first unpairedAside : Cause)
  deriving DecidableEq, Repr

/-- The failure of a reader that wants what stands at the flaw. -/
def Flaw.cause : Flaw → Cause
  | .missing => .truncated
  | .stray => .malformed
  | .word c => c
  | .numeral c => c
  | .text c _ => c

/-- The failure of a reader that passes over what stands at the flaw.  Such a reader does not
look for the end of an incomplete number. -/
def Flaw.causeWhenSkipped : Flaw → Cause
  | .numeral _ => .malformed
  | .text _ c => c
  | f => f.cause

/-! ## 2. Texts between quotes -/

/-- A piece of a text between quotes: a character, or a UTF-16 unit written as `\uXXXX`. -/
inductive Piece where
  | char (c : Char)
  | unit (n : Nat)
  deriving DecidableEq, Repr

/-- Whether a UTF-16 unit is the first half of a pair. -/
def isHighSurrogate (n : Nat) : Bool := decide (0xD800 ≤ n) && decide (n ≤ 0xDBFF)

/-- Whether a UTF-16 unit is the second half of a pair. -/
def isLowSurrogate (n : Nat) : Bool := decide (0xDC00 ≤ n) && decide (n ≤ 0xDFFF)

/-- The character of a surrogate pair. -/
def ofSurrogates (high low : Nat) : Char :=
  Char.ofNat ((high - 0xD800) * 0x400 + (low - 0xDC00) + 0x10000)

/-- The characters of the pieces, unless a surrogate stands alone. -/
def joinPieces : List Piece → Option (List Char)
  | [] => some []
  | .char c :: ps => (joinPieces ps).map (c :: ·)
  | .unit n :: ps =>
    if isLowSurrogate n then none
    else if isHighSurrogate n then
      match ps with
      | .unit m :: qs =>
        if isLowSurrogate m then (joinPieces qs).map (ofSurrogates n m :: ·) else none
      | _ => none
    else (joinPieces ps).map (Char.ofNat n :: ·)

/-- The value of four hexadecimal digits. -/
def hexUnit? (a b c d : Char) : Option Nat := do
  pure ((((← Text.hexValue? a) * 16 + (← Text.hexValue? b)) * 16 + (← Text.hexValue? c)) * 16 + (← Text.hexValue? d))

/-- The character that a letter after a backslash stands for. -/
def simpleEscape? (c : Char) : Option Char :=
  if c = '"' ∨ c = '\\' ∨ c = '/' then some c
  else if c = 'b' then some '\x08'
  else if c = 'f' then some '\x0c'
  else if c = 'n' then some '\n'
  else if c = 'r' then some '\r'
  else if c = 't' then some '\t'
  else none

/-- Too few characters for the four digits of an escape: they are bad digits if they fill
four bytes, else the text is cut off. -/
def shortEscape (cs : List Char) : Cause :=
  if 4 ≤ cs.foldr (fun c size => c.utf8Size + size) 0 then .malformed else .truncated

/-- The pieces of a text after its opening quote, and what follows the closing quote or the
reason why there is none. -/
def scanPieces : List Char → List Piece × Except Cause (List Char)
  | [] => ([], .error .truncated)
  | '"' :: rest => ([], .ok rest)
  | '\\' :: 'u' :: a :: b :: c :: d :: rest =>
    match hexUnit? a b c d with
    | some n =>
      let (ps, stop) := scanPieces rest
      (.unit n :: ps, stop)
    | none => ([], .error .malformed)
  | '\\' :: 'u' :: rest => ([], .error (shortEscape rest))
  | '\\' :: e :: rest =>
    match simpleEscape? e with
    | some c =>
      let (ps, stop) := scanPieces rest
      (.char c :: ps, stop)
    | none => ([], .error .malformed)
  | '\\' :: [] => ([], .error .truncated)
  | c :: rest =>
    if c.toNat < 32 then ([], .error .malformed)
    else
      let (ps, stop) := scanPieces rest
      (.char c :: ps, stop)

/-- The pieces without a first half of a pair at their end. -/
def dropOpenPair (ps : List Piece) : List Piece :=
  match ps.getLast? with
  | some (.unit n) => if isHighSurrogate n then ps.dropLast else ps
  | _ => ps

/-- What is wrong with a text that has no closing quote. -/
def unfinishedText (ps : List Piece) (cause : Cause) : Flaw :=
  if (joinPieces (dropOpenPair ps)).isSome then .text cause cause else .text .malformed cause

/-! ## 3. The text as a whole -/

/-- A token of a JSON text. -/
inductive Token where
  | beginArray
  | endArray
  | beginObject
  | endObject
  | colon
  | comma
  | null
  | bool (b : Bool)
  | number (value : Option Number)
  | text (content : Option String)
  | flaw (f : Flaw)
  deriving DecidableEq, Repr

/-- The blanks of JSON. -/
def isBlank (c : Char) : Bool := c = ' ' || c = '\t' || c = '\n' || c = '\r'

/-- The mark that a character is. -/
def mark? : Char → Option Token
  | '[' => some .beginArray
  | ']' => some .endArray
  | '\x7b' => some .beginObject
  | '\x7d' => some .endObject
  | ':' => some .colon
  | ',' => some .comma
  | _ => none

/-- The word that begins with a letter. -/
def word? : Char → Option (List Char × Token)
  | 'n' => some (['u', 'l', 'l'], .null)
  | 't' => some (['r', 'u', 'e'], .bool true)
  | 'f' => some (['a', 'l', 's', 'e'], .bool false)
  | _ => none

/-- Takes a word off a text. -/
def expectWord : List Char → List Char → Except Cause (List Char)
  | [], cs => .ok cs
  | _ :: _, [] => .error .truncated
  | w :: ws, c :: cs => if w = c then expectWord ws cs else .error .malformed

/-- The token that begins with a character that is not blank, and what follows it; nothing
follows a flaw. -/
def nextToken (c : Char) (rest : List Char) : Token × List Char :=
  match mark? c with
  | some t => (t, rest)
  | none =>
    if c = '"' then
      match scanPieces rest with
      | (ps, .ok rest) => (.text ((joinPieces ps).map String.ofList), rest)
      | (ps, .error cause) => (.flaw (unfinishedText ps cause), [])
    else if c = '-' ∨ c.isDigit then
      match Numeral.scan (c :: rest) with
      | .ok (n, rest) => (.number n.value, rest)
      | .error ended => (.flaw (.numeral (if ended then .truncated else .malformed)), [])
    else match word? c with
      | some (w, t) =>
        match expectWord w rest with
        | .ok rest => (t, rest)
        | .error cause => (.flaw (.word cause), [])
      | none => (.flaw .stray, [])

/-- The tokens of at most `fuel` characters; every token takes at least one. -/
def tokensWithin : Nat → List Char → List Token
  | 0, _ => []
  | _ + 1, [] => []
  | fuel + 1, c :: cs =>
    if isBlank c then tokensWithin fuel cs
    else
      let (t, rest) := nextToken c cs
      t :: tokensWithin fuel rest

/-- The tokens of a text. -/
def tokens (cs : List Char) : List Token := tokensWithin cs.length cs

end EntityLayout.Json
