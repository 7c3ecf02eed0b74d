/-
# Numbers as they are written

`Numeral.scan` cuts a numeral off the front of a text: a sign, digits without a leading zero,
a fraction and a power of ten.  `Numeral.value` is the number it stands for.  A whole number
that fits 64 bits is exact.  Any other number keeps the leading digits that fit 64 bits, the
others counting only as powers of ten; it has no value when it is too large.
-/
import EntityLayout.Json.Basic
import EntityLayout.Text.Digit

namespace EntityLayout.Json

/-- The parts of a numeral: the digits before and after the point, and the power of ten. -/
structure Numeral where
  negative : Bool
  whole : List Char
  fraction : Option (List Char)
  power : Option (Bool × List Char)
  deriving DecidableEq, Repr

namespace Numeral

/-! ## 1. Cutting a numeral off a text -/

/-- Digits off the front of a text; at least one, or else whether the text ends there. -/
def scanDigits (cs : List Char) : Except Bool (List Char × List Char) :=
  match cs.takeWhile Char.isDigit with
  | [] => .error cs.isEmpty
  | ds => .ok (ds, cs.dropWhile Char.isDigit)

/-- The digits before the point: a zero stands alone. -/
def scanWhole : List Char → Except Bool (List Char × List Char)
  | '0' :: rest =>
    match rest with
    | c :: _ => if c.isDigit then .error false else .ok (['0'], rest)
    | [] => .ok (['0'], [])
  | cs => scanDigits cs

/-- The digits after the point, if there is a point. -/
def scanFraction : List Char → Except Bool (Option (List Char) × List Char)
  | '.' :: rest => do
    let (ds, rest) ← scanDigits rest
    pure (some ds, rest)
  | cs => .ok (none, cs)

/-- The sign and digits of the power of ten, after its letter. -/
def scanSigned : List Char → Except Bool ((Bool × List Char) × List Char)
  | '+' :: rest => do
    let (ds, rest) ← scanDigits rest
    pure ((false, ds), rest)
  | '-' :: rest => do
    let (ds, rest) ← scanDigits rest
    pure ((true, ds), rest)
  | cs => do
    let (ds, rest) ← scanDigits cs
    pure ((false, ds), rest)

/-- The power of ten, if there is one. -/
def scanPower : List Char → Except Bool (Option (Bool × List Char) × List Char)
  | [] => .ok (none, [])
  | c :: rest =>
    if c = 'e' ∨ c = 'E' then do
      let (p, rest) ← scanSigned rest
      pure (some p, rest)
    else .ok (none, c :: rest)

/-- A numeral off the front of a text and what follows it.  A failure tells whether the text
ended before the numeral was complete. -/
def scan (cs : List Char) : Except Bool (Numeral × List Char) := do
  let (negative, cs) := match cs with
    | '-' :: rest => (true, rest)
    | _ => (false, cs)
  let (whole, cs) ← scanWhole cs
  let (fraction, cs) ← scanFraction cs
  let (power, cs) ← scanPower cs
  pure (⟨negative, whole, fraction, power⟩, cs)

/-! ## 2. The number it stands for -/

/-- The greatest significand. -/
def greatestSignificand : Nat := 0xffffffffffffffff

/-- Appends digits to a significand while it stays in range; the result tells how many
digits were taken and how many were left. -/
def extend (significand : Nat) : List Char → Nat × Nat × Nat
  | [] => (significand, 0, 0)
  | c :: cs =>
    let next := 10 * significand + Text.digitValue c
    if next ≤ greatestSignificand then
      let (s, taken, left) := extend next cs
      (s, taken + 1, left)
    else (significand, 0, cs.length + 1)

/-- The power of ten that is written out. -/
def writtenPower (n : Numeral) : Int :=
  match n.power with
  | none => 0
  | some (true, ds) => -(Text.ofDigits 10 ds : Int)
  | some (false, ds) => Text.ofDigits 10 ds

/-- The number, or `none` when it is too large. -/
def value (n : Numeral) : Option Number :=
  let (s, _, left) := extend 0 n.whole
  if left = 0 ∧ n.fraction = none ∧ n.power = none then
    if n.negative then
      if 1 ≤ s ∧ s ≤ 0x8000000000000000 then some (.negative s)
      else (Binary64.ofDecimal true s 0).map .real
    else some (.natural s)
  else
    let (s, taken, _) := extend s (n.fraction.getD [])
    (Binary64.ofDecimal n.negative s ((left : Int) - taken + n.writtenPower)).map .real

end Numeral

end EntityLayout.Json
