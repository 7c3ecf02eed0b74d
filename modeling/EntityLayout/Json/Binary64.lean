/-
# Binary floating-point numbers

A number with at most 53 significant bits, in exact integer arithmetic.  `roundRatio` gives
the nearest such number to a fraction, ties to the even mantissa.  `ofDecimal` reads a
decimal significand and a power of ten; it rounds the significand, then the power of ten,
then their product or quotient, so a last bit can differ from that of the nearest number.
`text` writes the fewest digits that read back as the same number.
-/

namespace EntityLayout.Json

/-- The number `mantissa * 2 ^ exponent`, with a sign that zero keeps. -/
structure Binary64 where
  negative : Bool
  mantissa : Nat
  exponent : Int
  deriving DecidableEq, Repr

namespace Binary64

/-! ## 1. Rounding -/

/-- The least exponent of a unit in the last place. -/
def leastExponent : Int := -1074

/-- The greatest exponent of a unit in the last place. -/
def greatestExponent : Int := 971

/-- A fraction scaled by a power of two, as numerator and denominator. -/
def scaleBy (num den : Nat) (e : Int) : Nat × Nat :=
  if e ≤ 0 then (num * Nat.pow 2 (-e).toNat, den) else (num, den * Nat.pow 2 e.toNat)

/-- The quotient rounded to the nearest integer, ties to even. -/
def roundDiv (num den : Nat) : Nat :=
  let q := num / den
  let r := num % den
  if 2 * r < den then q
  else if den < 2 * r then q + 1
  else if q % 2 = 0 then q else q + 1

/-- The exponent at which the fraction has 53 bits before the point, or the least one. -/
def unitExponent (num den : Nat) : Int :=
  let guess : Int := (Nat.log2 num : Int) - (Nat.log2 den : Int) - 52
  let scaled := scaleBy num den guess
  let e := if scaled.1 < scaled.2 * Nat.pow 2 52 then guess - 1 else guess
  max e leastExponent

/-- The nearest number to `num / den` as mantissa and exponent; `none` when it is too
large. -/
def roundRatio (num den : Nat) : Option (Nat × Int) :=
  if num = 0 then some (0, leastExponent)
  else
    let e := unitExponent num den
    let scaled := scaleBy num den e
    let m := roundDiv scaled.1 scaled.2
    let (m, e) := if m = Nat.pow 2 53 then (Nat.pow 2 52, e + 1) else (m, e)
    if greatestExponent < e then none else some (m, e)

/-- A mantissa and exponent as a fraction. -/
def ratio (x : Nat × Int) : Nat × Nat :=
  if 0 ≤ x.2 then (x.1 * Nat.pow 2 x.2.toNat, 1) else (x.1, Nat.pow 2 (-x.2).toNat)

/-- The product, rounded. -/
def multiply (x y : Nat × Int) : Option (Nat × Int) :=
  let (a, b) := ratio x
  let (c, d) := ratio y
  roundRatio (a * c) (b * d)

/-- The quotient, rounded. -/
def divide (x y : Nat × Int) : Option (Nat × Int) :=
  let (a, b) := ratio x
  let (c, d) := ratio y
  roundRatio (a * d) (b * c)

/-! ## 2. From decimal -/

/-- The largest power of ten that has a place in the range of the numbers. -/
def greatestPower : Nat := 308

/-- Divides by `10 ^ n`, at most `10 ^ 308` at a time. -/
def divideByPower (x : Nat × Int) (n : Nat) : Option (Nat × Int) :=
  if n ≤ greatestPower then do divide x (← roundRatio (Nat.pow 10 n) 1)
  else if x.1 = 0 then some x
  else do
    divideByPower (← divide x (← roundRatio (Nat.pow 10 greatestPower) 1)) (n - greatestPower)
termination_by n
decreasing_by simp only [greatestPower] at *; omega

/-- The number `significand * 10 ^ power`, or `none` when it is too large. -/
def ofDecimal (negative : Bool) (significand : Nat) (power : Int) : Option Binary64 := do
  let x ← roundRatio significand 1
  let y ←
    if power < 0 then divideByPower x (-power).toNat
    else if power.toNat ≤ greatestPower then
      multiply x (← roundRatio (Nat.pow 10 power.toNat) 1)
    else if x.1 = 0 then some x
    else none
  some ⟨negative, y.1, y.2⟩

/-! ## 3. To decimal -/

/-- Whether `n / d` lies between the fractions `lo` and `hi`, the ends counted if
`closed`. -/
def between (closed : Bool) (lo hi : Nat × Nat) (n d : Nat) : Bool :=
  if closed then decide (lo.1 * d ≤ n * lo.2) && decide (n * hi.2 ≤ hi.1 * d)
  else decide (lo.1 * d < n * lo.2) && decide (n * hi.2 < hi.1 * d)

/-- The multiple of `10 ^ k` nearest to the number among the two around it, if it reads back
as the number. -/
def onGrid? (m : Nat) (e : Int) (k : Int) : Option Nat :=
  let closed := m % 2 = 0
  let below := if m = Nat.pow 2 52 ∧ leastExponent < e then 4 * m - 1 else 4 * m - 2
  let lo := ratio (below, e - 2)
  let hi := ratio (4 * m + 2, e - 2)
  let v := ratio (m, e)
  let (gn, gd) : Nat × Nat := if 0 ≤ k then (Nat.pow 10 k.toNat, 1) else (1, Nat.pow 10 (-k).toNat)
  let (n, d) := (v.1 * gd, v.2 * gn)
  let q := n / d
  let nearest := roundDiv n d
  let other := if nearest = q then q + 1 else q
  let hit := fun (x : Nat) => decide (0 < x) && between closed lo hi (x * gn) gd
  if hit nearest then some nearest else if hit other then some other else none

/-- The first hit on the grids `10 ^ k`, `10 ^ (k - 1)`, …, with its power of ten. -/
def firstHit (m : Nat) (e : Int) : Nat → Int → Nat × Int
  | 0, k => (m, k)
  | tries + 1, k =>
    match onGrid? m e k with
    | some digits => (digits, k)
    | none => firstHit m e tries (k - 1)

/-- The fewest digits that read back as the number, with their power of ten. -/
def shortest (m : Nat) (e : Int) : Nat × Int :=
  let highest := ((Nat.log2 m : Int) + e) * 30103 / 100000 + 2
  firstHit m e 21 highest

/-- Digits with a point before the last `k` of them, padded with zeros to have one digit
before it. -/
def withPoint (digits : List Char) (k : Nat) : List Char :=
  let padded := List.replicate (k + 1 - digits.length) '0' ++ digits
  padded.take (padded.length - k) ++ '.' :: padded.drop (padded.length - k)

/-- The decimal text: positional from `10 ^ (-5)` up to `10 ^ 16`, with at least one digit
after the point; otherwise one digit before the point and a power of ten. -/
def text (x : Binary64) : String :=
  let sign := if x.negative then ['-'] else []
  let body :=
    if x.mantissa = 0 then ['0', '.', '0']
    else
      let (d, k) := shortest x.mantissa x.exponent
      let digits := Nat.toDigits 10 d
      let point : Int := digits.length + k
      if 0 ≤ k ∧ point ≤ 16 then digits ++ List.replicate k.toNat '0' ++ ['.', '0']
      else if -5 < point ∧ point ≤ 16 then withPoint digits (-k).toNat
      else
        let power := point - 1
        let exponent := 'e' :: (if power < 0 then ['-'] else []) ++ Nat.toDigits 10 power.natAbs
        match digits with
        | [] => exponent
        | [c] => c :: exponent
        | c :: rest => c :: '.' :: rest ++ exponent
  String.ofList (sign ++ body)

end Binary64

end EntityLayout.Json
