/-
# TOML scalars

Texts between quotes, and the words that stand for numbers, truth values, dates and times.

A text between double quotes has escapes, one between single quotes has none.  Three quotes
make a text of several lines; a line break right behind them does not count, and a backslash
at the end of a line swallows the line break and all blanks behind it.
-/
import EntityLayout.Text.Digit
import EntityLayout.Toml.Basic

namespace EntityLayout.Toml

/-! ## 1. Characters -/

/-- Whether a character may stand in a comment or a text: a tab, or no control character. -/
def isPlain (c : Char) : Bool := c = '\t' || (32 ≤ c.toNat && c.toNat != 127)

/-- Whether a character is a blank within a line. -/
def isBlank (c : Char) : Bool := c = ' ' || c = '\t'

/-- What follows a line break, if the text begins with one. -/
def lineBreak? : List Char → Option (List Char)
  | '\n' :: rest => some rest
  | '\r' :: '\n' :: rest => some rest
  | _ => none

/-- The number that hexadecimal digits stand for. -/
def hexNumber? (ds : List Char) : Option Nat :=
  ds.foldlM (fun n c => (Text.hexValue? c).map (16 * n + ·)) 0

/-- The character of a code point. -/
def character? (n : Nat) : Option Char := if n.isValidChar then some (Char.ofNat n) else none

/-- The character that an escape of one letter stands for. -/
def escapedLetter? : Char → Option Char
  | '"' => some '"'
  | '\\' => some '\\'
  | 'b' => some '\x08'
  | 'f' => some '\x0c'
  | 'n' => some '\n'
  | 'r' => some '\r'
  | 't' => some '\t'
  | _ => none

/-- The character of an escape, after its backslash, and what follows. -/
def scanEscape : List Char → Option (Char × List Char)
  | 'u' :: rest => do
    let c ← character? (← hexNumber? (rest.take 4))
    if rest.length < 4 then none else pure (c, rest.drop 4)
  | 'U' :: rest => do
    let c ← character? (← hexNumber? (rest.take 8))
    if rest.length < 8 then none else pure (c, rest.drop 8)
  | c :: rest => (escapedLetter? c).map fun e => (e, rest)
  | [] => none

/-! ## 2. Texts -/

/-- How a text is quoted. -/
inductive Quote where
  /-- double quotes, with escapes -/
  | basic
  /-- single quotes -/
  | literal
  deriving DecidableEq, Repr

/-- The quote character. -/
def Quote.mark : Quote → Char
  | .basic => '"'
  | .literal => '\''

/-- A text of one line after its opening quote, and what follows it.  Every step takes a
character, so the length of the text suffices as fuel. -/
def scanLine (q : Quote) : (fuel : Nat) → List Char → Option (List Char × List Char)
  | 0, _ => none
  | _ + 1, [] => none
  | fuel + 1, c :: cs =>
    if c = q.mark then some ([], cs)
    else if q = .basic ∧ c = '\\' then do
      let (e, rest) ← scanEscape cs
      let (s, rest) ← scanLine q fuel rest
      pure (e :: s, rest)
    else if isPlain c then do
      let (s, rest) ← scanLine q fuel cs
      pure (c :: s, rest)
    else none

/-- Blanks and line breaks off the front of a text. -/
def dropBlankLines : List Char → List Char
  | '\n' :: rest => dropBlankLines rest
  | '\r' :: '\n' :: rest => dropBlankLines rest
  | c :: rest => if isBlank c then dropBlankLines rest else c :: rest
  | [] => []

/-- What follows a backslash at the end of a line, the blanks before and after the line break
left out. -/
def foldedLine? (cs : List Char) : Option (List Char) :=
  (lineBreak? (cs.dropWhile isBlank)).map dropBlankLines

/-- The quotes off the front of a text, at most five: two may stand before the closing
three. -/
def leadingQuotes (q : Quote) (cs : List Char) : Nat :=
  ((cs.take 5).takeWhile (· = q.mark)).length

/-- A text of several lines after its opening quotes, and what follows it. -/
def scanLines (q : Quote) : (fuel : Nat) → List Char → Option (List Char × List Char)
  | 0, _ => none
  | _ + 1, [] => none
  | fuel + 1, c :: cs =>
    let quotes := leadingQuotes q (c :: cs)
    if 3 ≤ quotes then some (List.replicate (quotes - 3) q.mark, (c :: cs).drop quotes)
    else if q = .basic ∧ c = '\\' then
      match foldedLine? cs with
      | some rest => scanLines q fuel rest
      | none => do
        let (e, rest) ← scanEscape cs
        let (s, rest) ← scanLines q fuel rest
        pure (e :: s, rest)
    else
      match lineBreak? (c :: cs) with
      | some next => do
        let lineBreak := (c :: cs).take ((c :: cs).length - next.length)
        let (s, rest) ← scanLines q fuel next
        pure (lineBreak ++ s, rest)
      | none =>
        if isPlain c then do
          let (s, rest) ← scanLines q fuel cs
          pure (c :: s, rest)
        else none

/-- The quote that a text begins with. -/
def quote? : List Char → Option Quote
  | '"' :: _ => some .basic
  | '\'' :: _ => some .literal
  | _ => none

/-- A text with its quotes, and what follows it; `lines` allows several lines. -/
def scanText (lines : Bool) (q : Quote) (cs : List Char) : Option (String × List Char) := do
  let (s, rest) ←
    if lines && decide (3 ≤ leadingQuotes q cs) then
      let body := cs.drop 3
      let body := (lineBreak? body).getD body
      scanLines q (body.length + 1) body
    else scanLine q cs.length (cs.drop 1)
  pure (String.ofList s, rest)

/-! ## 3. Numbers -/

/-- The digits of a number without the underscores, of which each stands between two
digits. -/
def digitsOf? (isDigit : Char → Bool) : List Char → Option (List Char)
  | [] => none
  | [c] => if isDigit c then some [c] else none
  | c :: '_' :: rest =>
    if isDigit c then (digitsOf? isDigit rest).map (c :: ·) else none
  | c :: rest => if isDigit c then (digitsOf? isDigit rest).map (c :: ·) else none

/-- The sign of a number, and the rest of it. -/
def signOf : List Char → Bool × List Char
  | '-' :: rest => (true, rest)
  | '+' :: rest => (false, rest)
  | cs => (false, cs)

/-- The decimal digits of a whole number, which has no leading zero. -/
def wholeDigits? (cs : List Char) : Option (List Char) := do
  let ds ← digitsOf? Char.isDigit cs
  if 1 < ds.length && ds.head? = some '0' then none else pure ds

/-- A whole number: decimal with a sign or not, or in base 16, 8 or 2. -/
def integer? : List Char → Option Int
  | '0' :: 'x' :: rest => (digitsOf? (fun c => (Text.hexValue? c).isSome) rest).map (Text.ofDigits 16 ·)
  | '0' :: 'o' :: rest => (digitsOf? (fun c => '0' ≤ c && c ≤ '7') rest).map (Text.ofDigits 8 ·)
  | '0' :: 'b' :: rest => (digitsOf? (fun c => c = '0' || c = '1') rest).map (Text.ofDigits 2 ·)
  | cs => do
    let (negative, cs) := signOf cs
    let ds ← wholeDigits? cs
    let n := Text.ofDigits 10 ds
    pure (if negative then -(n : Int) else n)

/-- Whether a whole number is in range: it fits 128 bits, with a sign or without. -/
def isStorable (i : Int) : Bool := decide (-Int.pow 2 127 ≤ i) && decide (i < Int.pow 2 128)

/-- The characters before the first one with a property, and those behind it if there is
one. -/
def cutAt (p : Char → Bool) (cs : List Char) : List Char × Option (List Char) :=
  match cs.dropWhile (!p ·) with
  | [] => (cs, none)
  | _ :: rest => (cs.takeWhile (!p ·), some rest)

/-- A power of ten, with a sign or not; it may have leading zeros. -/
def power? (cs : List Char) : Option Int := do
  let (negative, cs) := signOf cs
  let ds ← digitsOf? Char.isDigit cs
  let n := Text.ofDigits 10 ds
  pure (if negative then -(n : Int) else n)

/-- The parts of a number that is written with a point or a power of ten: all its digits, how
many of them stand after the point, and the power. -/
def realParts? (cs : List Char) : Option (List Char × Nat × Int) := do
  let (mantissa, power) := cutAt (fun c => c = 'e' || c = 'E') cs
  let (whole, fraction) := cutAt (· = '.') mantissa
  if power.isNone && fraction.isNone then none
  else
    let whole ← wholeDigits? whole
    let fraction ← match fraction with
      | some ds => digitsOf? Char.isDigit ds
      | none => pure []
    let power ← match power with
      | some p => power? p
      | none => pure 0
    pure (whole ++ fraction, fraction.length, power)

/-- Whether the nearest binary number of 64 bits is finite: the number is below the middle
between the greatest one and the next power of two. -/
def isFinite (digits : List Char) (places : Nat) (power : Int) : Bool :=
  let significant := digits.dropWhile (· = '0')
  let e := power - places
  if significant.isEmpty then true
  else if (significant.length : Int) + e > 310 then false
  else if (significant.length : Int) + e < 300 then true
  else
    let limit := Nat.pow 2 1024 - Nat.pow 2 970
    if 0 ≤ e then Text.ofDigits 10 significant * Nat.pow 10 e.toNat < limit
    else Text.ofDigits 10 significant < limit * Nat.pow 10 (-e).toNat

/-- Whether a word is a number with a fraction, an infinity, or no number at all. -/
def isReal (cs : List Char) : Bool :=
  let (_, cs) := signOf cs
  if cs = ['i', 'n', 'f'] ∨ cs = ['n', 'a', 'n'] then true
  else match realParts? cs with
    | some (digits, places, power) => isFinite digits places power
    | none => false

/-! ## 4. Dates and times -/

/-- A number of two digits. -/
def twoDigits? (a b : Char) : Option Nat :=
  if a.isDigit && b.isDigit then some (10 * Text.digitValue a + Text.digitValue b) else none

/-- Whether a year has a leap day. -/
def isLeap (year : Nat) : Bool := year % 4 = 0 && (year % 100 != 0 || year % 400 = 0)

/-- The days of a month. -/
def daysIn (year month : Nat) : Nat :=
  if month = 2 then (if isLeap year then 29 else 28)
  else if month = 4 ∨ month = 6 ∨ month = 9 ∨ month = 11 then 30
  else 31

/-- What follows a date. -/
def afterDate? : List Char → Option (List Char)
  | a :: b :: c :: d :: '-' :: m :: n :: '-' :: x :: y :: rest => do
    let century ← twoDigits? a b
    let year ← twoDigits? c d
    let month ← twoDigits? m n
    let day ← twoDigits? x y
    if 1 ≤ month && month ≤ 12 && 1 ≤ day && day ≤ daysIn (100 * century + year) month then
      pure rest
    else none
  | _ => none

/-- What follows the fraction of a second, if there is one. -/
def afterFraction? : List Char → Option (List Char)
  | '.' :: rest =>
    let rest' := rest.dropWhile Char.isDigit
    if rest'.length < rest.length then some rest' else none
  | cs => some cs

/-- What follows a time of day; a minute may have a leap second. -/
def afterTime? : List Char → Option (List Char)
  | a :: b :: ':' :: c :: d :: ':' :: e :: f :: rest => do
    let hour ← twoDigits? a b
    let minute ← twoDigits? c d
    let second ← twoDigits? e f
    if hour ≤ 23 && minute ≤ 59 && second ≤ 60 then afterFraction? rest else none
  | _ => none

/-- Whether a text is nothing or the offset of a time zone. -/
def isOffset : List Char → Bool
  | [] => true
  | ['Z'] => true
  | ['z'] => true
  | [s, a, b, ':', c, d] =>
    (s = '+' || s = '-') &&
      match twoDigits? a b, twoDigits? c d with
      | some hours, some minutes => hours ≤ 23 && minutes ≤ 59
      | _, _ => false
  | _ => false

/-- Whether a word is a time of day, or a date with or without one. -/
def isMoment (cs : List Char) : Bool :=
  match afterDate? cs with
  | some [] => true
  | some (t :: rest) =>
    (t = 'T' || t = 't' || t = ' ') &&
      match afterTime? rest with
      | some rest => isOffset rest
      | none => false
  | none => afterTime? cs = some []

/-! ## 5. Words -/

/-- Whether a character may be part of a word. -/
def isWordChar (c : Char) : Bool :=
  c.isAlphanum || c = '_' || c = '+' || c = '-' || c = '.' || c = ':'

/-- The word at the front of a text, and what follows it.  A date goes on behind a single
space if a digit follows. -/
def scanWord (cs : List Char) : List Char × List Char :=
  let word := cs.takeWhile isWordChar
  match cs.dropWhile isWordChar with
  | ' ' :: d :: rest =>
    if afterDate? word = some [] ∧ d.isDigit then
      (word ++ ' ' :: (d :: rest).takeWhile isWordChar, (d :: rest).dropWhile isWordChar)
    else (word, ' ' :: d :: rest)
  | rest => (word, rest)

/-- The value of a word. -/
def ofWord? (word : List Char) : Option Toml :=
  if word = ['t', 'r', 'u', 'e'] then some (.bool true)
  else if word = ['f', 'a', 'l', 's', 'e'] then some (.bool false)
  else match integer? word with
    | some i => if isStorable i then some (.integer i) else none
    | none =>
      if isReal word then some (.real (String.ofList word))
      else if isMoment word then some (.moment (String.ofList word))
      else none

end EntityLayout.Toml
