/-!
# Single-precision numbers

A number of a style is a binary floating-point number of 32 bits: a sign, eight bits of exponent
and 23 bits of fraction. The library keeps the bits and does no arithmetic with them. It needs
three things only: to compare two numbers, to take over a number of double precision, and to
write a number in decimal.

Comparison is by value. The two zeros are equal although their bits differ, and a number that is
not a number equals nothing, itself included; so `==` is not equality of the structure.
-/

namespace StyleCascade.Number

/-!
## Rounding a quotient

The one rounding rule of the library: to the nearest natural number, and from the middle
between two of them to the even one. Numbers with a binary exponent are rounded to a coarser
binary unit by the same rule.
-/

/-- The quotient, rounded to nearest; the middle between two numbers goes to the even one. -/
def halfEven (num den : Nat) : Nat :=
  let q := num / den
  let r := num % den
  if 2 * r > den ∨ (2 * r = den ∧ q % 2 = 1) then q + 1 else q

/-- The number `m * 2 ^ shift` rounded to a whole number. -/
def scaleHalfEven (m : Nat) (shift : Int) : Nat :=
  if 0 ≤ shift then m <<< shift.toNat else halfEven m (1 <<< (-shift).toNat)

end StyleCascade.Number

namespace StyleCascade

/-- A binary floating-point number of 32 bits. -/
structure Single where
  /-- Sign, exponent and fraction, from the highest bit to the lowest. -/
  bits : UInt32

namespace Single

def isNegative (x : Single) : Bool := decide (0x80000000 ≤ x.bits.toNat)

/-- The exponent as it is stored, from 0 to 255. -/
def biasedExponent (x : Single) : Nat := x.bits.toNat / 0x800000 % 0x100

def fraction (x : Single) : Nat := x.bits.toNat % 0x800000

def isNaN (x : Single) : Bool := x.biasedExponent == 255 && x.fraction != 0

def isInfinite (x : Single) : Bool := x.biasedExponent == 255 && x.fraction == 0

def isZero (x : Single) : Bool := x.biasedExponent == 0 && x.fraction == 0

/-- The significand as a whole number. The leading bit of most numbers is not stored; the least
exponent belongs to the numbers that have none. -/
def significand (x : Single) : Nat :=
  if x.biasedExponent = 0 then x.fraction else 0x800000 + x.fraction

/-- The exponent of two that goes with `significand`. -/
def exponent (x : Single) : Int :=
  if x.biasedExponent = 0 then -149 else (x.biasedExponent : Int) - 150

/-- The least number of its exponent, with the numbers below it twice as close as those above. -/
def isBinadeStart (x : Single) : Bool := x.fraction == 0 && decide (1 < x.biasedExponent)

/-- Comparison by value. -/
instance : BEq Single where
  beq x y := !x.isNaN && !y.isNaN && (x.bits == y.bits || (x.isZero && y.isZero))

theorem beq_iff {x y : Single} :
    (x == y) = true ↔
      x.isNaN = false ∧ y.isNaN = false ∧ (x.bits = y.bits ∨ (x.isZero ∧ y.isZero)) := by
  change (!x.isNaN && !y.isNaN && (x.bits == y.bits || (x.isZero && y.isZero))) = true ↔ _
  simp [and_assoc]

def infinityBits : Nat := 0x7F800000

/-- The bits, without the sign, of the number nearest to `m * 2 ^ e`. The unit of the last place
is that of the number's binade, or the least one there is; a carry out of the significand raises
the exponent, because the two fields lie side by side. -/
def magnitudeBits (m : Nat) (e : Int) : Nat :=
  let unit := max (-149) (e + (m.log2 : Int) - 23)
  let rounded := Number.scaleHalfEven m (e - unit)
  min infinityBits ((unit + 149).toNat * 0x800000 + rounded)

def ofMagnitude (negative : Bool) (bits : Nat) : Single :=
  ⟨UInt32.ofNat (if negative then 0x80000000 + bits else bits)⟩

/-- The number nearest to a number of double precision, given by its bits. Numbers too large
become infinite, and numbers too small lose digits or vanish. -/
def ofDoubleBits (double : UInt64) : Single :=
  let negative := decide (0x8000000000000000 ≤ double.toNat)
  let biased : Nat := double.toNat / 0x10000000000000 % 0x800
  let fraction : Nat := double.toNat % 0x10000000000000
  if biased = 2047 then
    ofMagnitude negative (if fraction = 0 then infinityBits else infinityBits + 0x400000)
  else if biased = 0 then
    ofMagnitude negative (magnitudeBits fraction (-1074))
  else
    ofMagnitude negative (magnitudeBits (0x10000000000000 + fraction) ((biased : Int) - 1075))

end Single
end StyleCascade

namespace StyleCascade.Number

/-!
## Shortest decimals

A number is written with the fewest decimal digits that lead back to it. The numbers that round
to it fill an interval: half-way to its neighbour on either side, ends included when its
significand is even. The decimals with a given last place form a grid, and on each grid only the
two neighbours of the number can lie in the interval. So the coarsest grid with a hit gives the
fewest digits; when both neighbours lie in the interval the nearer is taken, and the upper one
if they are equally near.

All of it is exact: the number, the ends of its interval and the points of a grid are compared
as natural numbers over one denominator.

`Single.text` writes the decimal in positional notation, whatever its size.
-/

/-- A decimal number, `digits * 10 ^ exponent`. -/
structure Decimal where
  digits : Nat
  exponent : Int

/-- A positive binary number with the interval of reals that round to it, in quarters of its
last place: the neighbour below is half as far where the number starts its binade. -/
structure Interval where
  /-- The significand; the number is `significand * 2 ^ exponent`. -/
  significand : Nat
  exponent : Int
  /-- The number below is half as far as the number above. -/
  narrowBelow : Bool

namespace Interval

/-- The ends of the interval belong to it. -/
def closed (v : Interval) : Bool := v.significand % 2 == 0

/-- The number itself, in quarters of its last place. -/
def middle (v : Interval) : Nat := 4 * v.significand

def lower (v : Interval) : Nat := v.middle - if v.narrowBelow then 1 else 2

def upper (v : Interval) : Nat := v.middle + 2

/-- The size of one step of the grid with last place `g`, once both sides are multiplied by the
common denominator. -/
def step (v : Interval) (g : Int) : Nat := Nat.pow 10 g.toNat <<< (2 - v.exponent).toNat

/-- The size of a quarter of the last place under the same multiplication. -/
def quarter (v : Interval) (g : Int) : Nat := Nat.pow 10 (-g).toNat <<< (v.exponent - 2).toNat

/-- Test whether `n * 10 ^ g` lies in the interval. -/
def holds (v : Interval) (g : Int) (n : Nat) : Bool :=
  let point := n * v.step g
  let low := v.lower * v.quarter g
  let high := v.upper * v.quarter g
  if v.closed then decide (low ≤ point) && decide (point ≤ high)
  else decide (low < point) && decide (point < high)

/-- The point of the grid with last place `g` that stands for the number, if one lies in the
interval. -/
def onGrid? (v : Interval) (g : Int) : Option Decimal :=
  let value := v.middle * v.quarter g
  let n := value / v.step g
  match v.holds g n, v.holds g (n + 1) with
  | false, false => none
  | true, false => some ⟨n, g⟩
  | false, true => some ⟨n + 1, g⟩
  | true, true =>
    if value - n * v.step g < (n + 1) * v.step g - value then some ⟨n, g⟩ else some ⟨n + 1, g⟩

def exact (v : Interval) : Decimal :=
  if 0 ≤ v.exponent then ⟨v.significand <<< v.exponent.toNat, 0⟩
  else ⟨v.significand * Nat.pow 5 (-v.exponent).toNat, v.exponent⟩

/-- The first hit on the grids from `g` downwards, of which `count` are tried. -/
def search (v : Interval) : Nat → Int → Decimal
  | 0, _ => v.exact
  | count + 1, g =>
    match v.onGrid? g with
    | some d => d
    | none => v.search count (g - 1)

/-- The last place of the first grid tried: as many places as the whole number has digits. -/
def topPlace (v : Interval) : Nat :=
  (Nat.toDigits 10 (v.significand <<< v.exponent.toNat)).length

/-- The shortest decimal that rounds to the number. A grid as fine as the number's own last place
has a hit, so the search ends before its count does. -/
def shortest (v : Interval) : Decimal :=
  v.search (v.topPlace + (-v.exponent).toNat + 1) v.topPlace

end Interval

namespace Decimal

/-- A decimal in positional notation: zeros up to the point after the digits, or between the
point and the digits, and no point without a digit after it. -/
def text (d : Decimal) : String :=
  let digits := Nat.toDigits 10 d.digits
  if 0 ≤ d.exponent then
    String.ofList (digits ++ List.replicate d.exponent.toNat '0')
  else
    let places := (-d.exponent).toNat
    if places < digits.length then
      String.ofList
        (digits.take (digits.length - places) ++ '.' :: digits.drop (digits.length - places))
    else
      String.ofList ('0' :: '.' :: List.replicate (places - digits.length) '0' ++ digits)

end Decimal
end StyleCascade.Number

namespace StyleCascade.Single

/-- The interval of a number other than zero, without its sign. -/
def interval (x : Single) : Number.Interval := ⟨x.significand, x.exponent, x.isBinadeStart⟩

/-- The text of a number: its sign, then its shortest decimal, and words for what has none. -/
def text (x : Single) : String :=
  if x.isNaN then "NaN"
  else
    let magnitude :=
      if x.isInfinite then "inf" else if x.isZero then "0" else x.interval.shortest.text
    if x.isNegative then "-" ++ magnitude else magnitude

end StyleCascade.Single
