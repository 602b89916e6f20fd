/-
# Binary floating-point numbers of 64 bits

A number that is written with a fraction or an exponent is held as the nearest
*binary64*: a sign, a significand below `2 ^ 53` and a power of two from
`2 ^ (-1074)` to `2 ^ 971`. Everything is exact arithmetic on whole numbers.

* `round` takes a fraction to the nearest binary64, ties to the even significand,
  and to nothing past the largest one.
* `scaled` multiplies a significand by a power of ten in at most two roundings,
  the way a number is read from text.
* `render` writes the fewest digits that read back, of those the ones nearest to the
  number. Numbers from `10 ^ (-5)` up to `10 ^ 16` are written in positional notation
  with a digit behind the point, all others with an exponent that has a sign.
-/

namespace JobSpool
namespace Json

/-- The number `significand * 2 ^ exponent`, below zero or `-0` when `negative`. -/
structure Binary64 where
  negative : Bool
  significand : Nat
  exponent : Int
  deriving DecidableEq, Repr

namespace Binary64

/-- The smallest exponent. -/
def minExponent : Int := -1074

/-- The largest exponent. -/
def maxExponent : Int := 971

/-- Zero with a sign. -/
def zero (negative : Bool) : Binary64 := ⟨negative, 0, minExponent⟩

/-- The first significand that is too large. -/
def significandLimit : Nat := 1 <<< 53

/-- A power of ten. -/
def tenTo (power : Nat) : Nat := Nat.pow 10 power

/-- A fraction whose value is `num / den * 2 ^ e`, for a power of two of either sign. -/
def shiftFraction (num den : Nat) (e : Int) : Nat × Nat :=
  if 0 ≤ e then (num <<< e.toNat, den) else (num, den <<< (-e).toNat)

/-- The quotient to the nearest whole number, a tie to the even one. -/
def roundQuotient (num den : Nat) : Nat :=
  let q := num / den
  let r := num % den
  if 2 * r < den then q
  else if 2 * r = den then q + q % 2
  else q + 1

/-- The number nearest to `num / den`, or nothing past the largest one. -/
def round (negative : Bool) (num den : Nat) : Option Binary64 :=
  if num = 0 || den = 0 then some (zero negative)
  else
    let guess : Int := (num.log2 : Int) - den.log2 - 53
    let wide := shiftFraction num den (-guess)
    let e := max minExponent (if wide.1 / wide.2 < significandLimit then guess else guess + 1)
    let unit := shiftFraction num den (-e)
    let m := roundQuotient unit.1 unit.2
    let (m, e) := if m = significandLimit then (m / 2, e + 1) else (m, e)
    if maxExponent < e then none else some ⟨negative, m, e⟩

/-- The size of the number as a fraction. -/
def fraction (x : Binary64) : Nat × Nat :=
  shiftFraction x.significand 1 x.exponent

/-- Has the number no fractional part? -/
def isWhole (x : Binary64) : Bool :=
  x.fraction.1 % x.fraction.2 == 0

/-- Is the number below a natural number? -/
def ltNat (x : Binary64) (n : Nat) : Bool :=
  if x.negative then 0 < x.significand || 0 < n
  else x.fraction.1 < n * x.fraction.2

/-- Is the number above a natural number? -/
def gtNat (x : Binary64) (n : Nat) : Bool :=
  !x.negative && n * x.fraction.2 < x.fraction.1

/-- The number times a power of ten up to the 308th, rounded; nothing past the largest number. -/
def timesTen (x : Binary64) (power : Nat) : Option Binary64 :=
  match round false (tenTo power) 1 with
  | none => none
  | some ten => round x.negative (x.fraction.1 * ten.fraction.1) (x.fraction.2 * ten.fraction.2)

/-- The number divided by a power of ten up to the 308th, rounded. -/
def overTen (x : Binary64) (power : Nat) : Binary64 :=
  match round false (tenTo power) 1 with
  | none => zero x.negative
  | some ten =>
    (round x.negative (x.fraction.1 * ten.fraction.2) (x.fraction.2 * ten.fraction.1)).getD
      (zero x.negative)

/-- Divides by a power of ten of any size, in steps of at most 308, until the power is used up
or nothing is left. -/
def overTenStepwise : Nat → Binary64 → Nat → Binary64
  | 0, x, power => x.overTen (min power 308)
  | steps + 1, x, power =>
    if power ≤ 308 then x.overTen power
    else if x.significand = 0 then x
    else overTenStepwise steps (x.overTen 308) (power - 308)

/-- The number that a significand of at most 64 bits and a power of ten stand for. -/
def scaled (negative : Bool) (significand : Nat) (power : Int) : Option Binary64 :=
  match round negative significand 1 with
  | none => none
  | some x =>
    if power < 0 then some (overTenStepwise 3 x (-power).toNat)
    else if power ≤ 308 then x.timesTen power.toNat
    else if x.significand = 0 then some x
    else none

/-- The place of the first digit: the least `p` with a size below `10 ^ p`. -/
def leadingPlace (x : Binary64) : Int :=
  let (num, den) := x.fraction
  if den ≤ num then ((Nat.toDigits 10 (num / den)).length : Int)
  else
    let up := (den + num - 1) / num
    1 - ((Nat.toDigits 10 (up - 1)).length : Int)

/-- Of the multiples of `10 ^ place` next to the number, the nearest one that reads back, as its
factor. -/
def candidate (x : Binary64) (place : Int) : Option Nat :=
  let (num, den) := x.fraction
  let (n, d) :=
    if 0 ≤ place then (num, den * tenTo place.toNat) else (num * tenTo (-place).toNat, den)
  let readsBack (k : Nat) : Bool :=
    (if 0 ≤ place then round x.negative (k * tenTo place.toNat) 1
     else round x.negative k (tenTo (-place).toNat)) == some x
  let near := roundQuotient n d
  let far := if near = n / d then near + 1 else near - 1
  if readsBack near then some near
  else if readsBack far then some far
  else none

/-- The fewest digits that read back, with the place of the last one. Seventeen digits always
do, so no more are tried. -/
def shortest (x : Binary64) : Nat × Int :=
  let top := x.leadingPlace
  let attempt (count : Nat) : Option (Nat × Int) :=
    let place := top - count
    (x.candidate place).map (·, place)
  ((List.range' 1 17).findSome? attempt).getD (0, 0)

/-- The digits of a significand without the zeros at its end. -/
def stripZeros (digits : List Char) : List Char :=
  (digits.reverse.dropWhile (· == '0')).reverse

/-- The least exponent of ten that is written in positional notation. -/
def minPositional : Int := -5

/-- The greatest exponent of ten that is written in positional notation. -/
def maxPositional : Int := 15

/-- Digits in positional notation, `point` of them in front of the point. -/
def positional (digits : List Char) (point : Int) : List Char :=
  if point ≤ 0 then '0' :: '.' :: List.replicate (-point).toNat '0' ++ digits
  else
    let whole := digits.take point.toNat
    let rest := digits.drop point.toNat
    whole ++ List.replicate (point.toNat - whole.length) '0' ++ '.' ::
      (if rest.isEmpty then ['0'] else rest)

/-- Digits with an exponent. -/
def scientific (digits : List Char) (exponent : Int) : List Char :=
  digits.take 1 ++ (if digits.length ≤ 1 then [] else '.' :: digits.drop 1) ++
    ['e', if exponent < 0 then '-' else '+'] ++ Nat.toDigits 10 exponent.natAbs

/-- The text of a number. -/
def render (x : Binary64) : List Char :=
  let sign := if x.negative then ['-'] else []
  if x.significand = 0 then sign ++ ['0', '.', '0']
  else
    let (n, place) := x.shortest
    let all := Nat.toDigits 10 n
    let exponent := place + all.length - 1
    let digits := stripZeros all
    if minPositional ≤ exponent && exponent ≤ maxPositional then
      sign ++ positional digits (exponent + 1)
    else sign ++ scientific digits exponent

end Binary64
end Json
end JobSpool
