import GraphIngest.Number.Binary64

/-!
# Extended precision

The 80-bit extended format: a 64-bit significand with an explicit leading bit, and an exponent
left unbounded, since the values met here never leave its range. A product, and a decimal
constant, are rounded once to 64 bits, a tie going to the even significand; a value turns into a
double by the same rule at 53 bits. All of it is exact arithmetic on naturals.
-/

namespace GraphIngest.Extended

/-- A non-negative extended value `mant · 2^exp`; the significand is normalized, or zero. -/
structure Ext where
  mant : Nat
  exp : Int
  deriving Inhabited, DecidableEq

/-- Zero. -/
def zero : Ext := ⟨0, 0⟩

/-- `n · 2^e` rounded to 64 significant bits. -/
def round (n : Nat) (e : Int) : Ext :=
  if n = 0 then zero
  else
    let len := Nat.log2 n + 1
    if len ≤ 64 then ⟨n * Nat.pow 2 (64 - len), e - ((64 - len : Nat) : Int)⟩
    else
      let shift := len - 64
      let q := n / Nat.pow 2 shift
      let r := n % Nat.pow 2 shift
      let half := Nat.pow 2 (shift - 1)
      let q := if r > half ∨ (r = half ∧ q % 2 = 1) then q + 1 else q
      if q = Nat.pow 2 64 then ⟨Nat.pow 2 63, e + shift + 1⟩ else ⟨q, e + shift⟩

/-- A natural number below `2^64`, exactly. -/
def ofNat (n : Nat) : Ext := round n 0

/-- A non-negative finite double, exactly. -/
def ofFloat (x : Float) : Ext :=
  let p := Binary64.parts x
  round p.mantissa p.power

/-- The extended value nearest to `digits · 10^k`. -/
def ofDecimal (digits : Nat) (k : Int) : Ext :=
  if digits = 0 then zero
  else if 0 ≤ k then round (digits * Nat.pow 10 k.toNat) 0
  else
    let den := Nat.pow 10 (-k).toNat
    let s : Int := 63 - Binary64.floorLog2 digits den
    let (num, den) := if 0 ≤ s then (digits * Nat.pow 2 s.toNat, den) else (digits, den * Nat.pow 2 (-s).toNat)
    let q := num / den
    let r := num % den
    let q := if 2 * r > den ∨ (2 * r = den ∧ q % 2 = 1) then q + 1 else q
    if q = Nat.pow 2 64 then ⟨Nat.pow 2 63, -s + 1⟩ else ⟨q, -s⟩

/-- The product, rounded once. -/
def mul (a b : Ext) : Ext := round (a.mant * b.mant) (a.exp + b.exp)

/-- Whether `a < b`. -/
def lt (a b : Ext) : Bool :=
  if a.mant = 0 then b.mant != 0
  else if b.mant = 0 then false
  else if a.exp != b.exp then a.exp < b.exp
  else a.mant < b.mant

/-- The double nearest to the value (infinity beyond the largest). -/
def toFloat (a : Ext) : Float :=
  if 0 ≤ a.exp then Binary64.ofRatio false (a.mant * Nat.pow 2 a.exp.toNat) 1
  else Binary64.ofRatio false a.mant (Nat.pow 2 (-a.exp).toNat)

def floor (a : Ext) : Nat :=
  if 0 ≤ a.exp then a.mant * Nat.pow 2 a.exp.toNat else a.mant / Nat.pow 2 (-a.exp).toNat

/-- The largest double, as an extended value. -/
def maxDouble : Ext := round (Nat.pow 2 53 - 1) 971

/-- `10^k` as an extended constant. -/
def tenTo (k : Int) : Ext := ofDecimal 1 k

/-- The value scaled `n` times by one factor. -/
def scaleBy (f : Ext) : Nat → Ext → Ext
  | 0, x => x
  | n + 1, x => scaleBy f n (mul x f)

end GraphIngest.Extended
