/-!
# Binary64 values as integers

A finite double is `m · 2^q` with `m < 2^53`. This module takes a `Float` apart into that form
from its bit pattern, builds the double nearest to a non-negative ratio of naturals (a tie goes to
the even mantissa), truncates a double toward zero into the signed 64-bit range, and compares two
doubles the IEEE way. All of it is exact arithmetic on `Nat` and `Int`, so none of it depends on
how the host rounds.
-/

namespace GraphIngest.Binary64

/-- The three fields of a double: sign, biased exponent and fraction. -/
structure Parts where
  negative : Bool
  exponent : Nat
  fraction : Nat
  deriving Repr, DecidableEq

/-- Reads the sign, exponent and fraction fields off the bit pattern. -/
def parts (x : Float) : Parts :=
  let b := x.toBits.toNat
  ⟨b / Nat.pow 2 63 % 2 == 1, b / Nat.pow 2 52 % Nat.pow 2 11, b % Nat.pow 2 52⟩

/-- The significand of a finite double: the fraction, with the hidden bit when normal. -/
def Parts.mantissa (p : Parts) : Nat :=
  if p.exponent = 0 then p.fraction else p.fraction + Nat.pow 2 52

/-- The power of two that scales the significand of a finite double. -/
def Parts.power (p : Parts) : Int :=
  if p.exponent = 0 then -1074 else (p.exponent : Int) - 1075

/-- A double is NaN when its exponent is all ones and its fraction is not zero. -/
def isNaN (x : Float) : Bool :=
  let p := parts x
  p.exponent == 2047 && p.fraction != 0

def isFinite (x : Float) : Bool := (parts x).exponent != 2047

/-- A double is a zero, of either sign, when exponent and fraction are both zero. -/
def isZero (x : Float) : Bool :=
  let p := parts x
  p.exponent == 0 && p.fraction == 0

def isNegative (x : Float) : Bool := (parts x).negative

/-- IEEE equality: a NaN equals nothing, and the two zeros are equal. -/
def eq (x y : Float) : Bool :=
  !isNaN x && !isNaN y && (x.toBits == y.toBits || (isZero x && isZero y))

/-- The largest `t` with `2^t ≤ num / den`, for `num` and `den` both positive. -/
def floorLog2 (num den : Nat) : Int :=
  let e : Int := (Nat.log2 num : Int) - (Nat.log2 den : Int)
  let fits : Bool :=
    if 0 ≤ e then decide (den * Nat.pow 2 e.toNat ≤ num) else decide (den ≤ num * Nat.pow 2 (-e).toNat)
  if fits then e else e - 1

/-- Bit pattern of the magnitude nearest to `num / den`, ties to an even significand; values
beyond the largest double give infinity. -/
def nearestBits (num den : Nat) : Nat :=
  if num = 0 ∨ den = 0 then 0 else
  let q : Int := max (floorLog2 num den - 52) (-1074)
  let (n, d) := if 0 ≤ q then (num, den * Nat.pow 2 q.toNat) else (num * Nat.pow 2 (-q).toNat, den)
  let m := n / d
  let r := n % d
  let m := if 2 * r > d ∨ (2 * r = d ∧ m % 2 = 1) then m + 1 else m
  let (m, q) := if m = Nat.pow 2 53 then (Nat.pow 2 52, q + 1) else (m, q)
  if m < Nat.pow 2 52 then m
  else
    let biased := q + 1075
    if 2047 ≤ biased then 2047 * Nat.pow 2 52 else biased.toNat * Nat.pow 2 52 + (m - Nat.pow 2 52)

/-- The double nearest to `± num / den`. -/
def ofRatio (negative : Bool) (num den : Nat) : Float :=
  Float.ofBits ((if negative then Nat.pow 2 63 else 0) + nearestBits num den).toUInt64

def ofInt (i : Int) : Float := ofRatio (i < 0) i.natAbs 1

/-- The double nearest to `± digits · 10^exp`. -/
def ofDecimal (negative : Bool) (digits : Nat) (exp : Int) : Float :=
  if 0 ≤ exp then ofRatio negative (digits * Nat.pow 10 exp.toNat) 1
  else ofRatio negative digits (Nat.pow 10 (-exp).toNat)

def infinity : Float := Float.ofBits (2047 * Nat.pow 2 52 : Nat).toUInt64

/-- The quiet NaN with a clear sign bit. -/
def nan : Float := Float.ofBits (2047 * Nat.pow 2 52 + Nat.pow 2 51 : Nat).toUInt64

def negate (x : Float) : Float :=
  let b := x.toBits.toNat
  Float.ofBits (if b ≥ Nat.pow 2 63 then b - Nat.pow 2 63 else b + Nat.pow 2 63).toUInt64

/-- The integer part of a finite double, rounded toward zero. -/
def truncate (x : Float) : Int :=
  let p := parts x
  let q := p.power
  let m := p.mantissa
  let mag : Nat := if 0 ≤ q then m * Nat.pow 2 q.toNat else m / Nat.pow 2 (-q).toNat
  if p.negative then -(mag : Int) else mag

/-- Conversion to a signed 64-bit integer that rounds toward zero, sends NaN to zero and holds
values beyond the range at its ends. -/
def toInt64Saturating (x : Float) : Int :=
  if isNaN x then 0
  else if !isFinite x then (if isNegative x then -Int.pow 2 63 else Int.pow 2 63 - 1)
  else max (-Int.pow 2 63) (min (Int.pow 2 63 - 1) (truncate x))

/-- A finite double whose value is a whole number gives that number. -/
def toInt? (x : Float) : Option Int :=
  if !isFinite x then none
  else
    let p := parts x
    if 0 ≤ p.power then some (truncate x)
    else if p.mantissa % Nat.pow 2 (-p.power).toNat = 0 then some (truncate x) else none

/-- The exact value of a finite double as a sign and a ratio of naturals. -/
def toRatio (x : Float) : Bool × Nat × Nat :=
  let p := parts x
  if 0 ≤ p.power then (p.negative, p.mantissa * Nat.pow 2 p.power.toNat, 1)
  else (p.negative, p.mantissa, Nat.pow 2 (-p.power).toNat)

/-- The product of two finite doubles, rounded once. -/
def mul (x y : Float) : Float :=
  let (sx, nx, dx) := toRatio x
  let (sy, ny, dy) := toRatio y
  ofRatio (sx != sy) (nx * ny) (dx * dy)

/-- The quotient of a finite double by a nonzero finite double, rounded once. -/
def div (x y : Float) : Float :=
  let (sx, nx, dx) := toRatio x
  let (sy, ny, dy) := toRatio y
  ofRatio (sx != sy) (nx * dy) (dx * ny)

/-- Order of two finite doubles by value (the two zeros are equal). -/
def le (x y : Float) : Bool :=
  let (sx, nx, dx) := toRatio x
  let (sy, ny, dy) := toRatio y
  let a : Int := if sx then -((nx * dy : Nat) : Int) else ((nx * dy : Nat) : Int)
  let b : Int := if sy then -((ny * dx : Nat) : Int) else ((ny * dx : Nat) : Int)
  decide (a ≤ b)

end GraphIngest.Binary64
