import GraphIngest.Number.Binary64

/-!
# Shortest decimal digits of a double

For a finite positive double `v = m · 2^q`, the reals that round back to `v` form an interval
around it, the ends included exactly when `m` is even. The shortest decimal is found by trying
grids of `1, 2, …, 17` significant digits: on each grid only the two grid points next to `v` can
lie in the interval, so the first grid with such a point wins, the nearer of two taken. All
comparisons are between naturals, scaled to a common denominator.
-/

namespace GraphIngest.Shortest

/-- Compares `c · 10^p` with `y · 2^s` exactly. -/
def compareScaled (c : Nat) (p : Int) (y : Nat) (s : Int) : Ordering :=
  let lhs := c * Nat.pow 10 p.toNat * Nat.pow 2 (-s).toNat
  let rhs := y * Nat.pow 2 s.toNat * Nat.pow 10 (-p).toNat
  compare lhs rhs

/-- `⌊y · 2^s / 10^p⌋`. -/
def floorScaled (y : Nat) (s : Int) (p : Int) : Nat :=
  (y * Nat.pow 2 s.toNat * Nat.pow 10 (-p).toNat) / (Nat.pow 10 p.toNat * Nat.pow 2 (-s).toNat)

/-- The decimal exponent `k` with `10^k ≤ v < 10^(k+1)`, for `v = y · 2^s > 0`: an estimate from
the binary length, corrected by exact comparisons. -/
def decimalExponent (y : Nat) (s : Int) : Int :=
  let est : Int := (((Nat.log2 y : Int) + s) * 30103).fdiv 100000
  let rec fix : Nat → Int → Int
    | 0, k => k
    | fuel + 1, k =>
      if compareScaled 1 k y s == .gt then fix fuel (k - 1)
      else if compareScaled 1 (k + 1) y s != .gt then fix fuel (k + 1)
      else k
  fix 8 est

/-- The digits and exponent `(c, p)` of the shortest decimal `c · 10^p` that reads back as the
double with significand `m` and power `q`; `m` must be positive. The result has no trailing
zero digit. -/
def digits (m : Nat) (q : Int) : Nat × Int :=
  -- everything below is in units of 2^(q-2)
  let s := q - 2
  let v := 4 * m
  let lowerTight := m = Nat.pow 2 52 ∧ q > -1074
  let lo := if lowerTight then v - 1 else v - 2
  let hi := v + 2
  let inclusive := m % 2 = 0
  let inside (c : Nat) (p : Int) : Bool :=
    let a := compareScaled c p lo s
    let b := compareScaled c p hi s
    (a == .gt || (inclusive && a == .eq)) && (b == .lt || (inclusive && b == .eq))
  let k := decimalExponent v s
  let rec search : Nat → Nat → Nat × Int
    | 0, _ => (m, q)
    | fuel + 1, n =>
      let p : Int := k - n + 1
      let below := floorScaled v s p
      let above := below + 1
      let exact := compareScaled below p v s == .eq
      let okBelow := inside below p
      let okAbove := !exact && inside above p
      if okBelow && okAbove then
        -- compare the distances: 2v against (below + above) · 10^p
        match compareScaled (below + above) p (2 * v) s with
        | .gt => (below, p)
        | .lt => (above, p)
        | .eq => if below % 2 = 0 then (below, p) else (above, p)
      else if okBelow then (below, p)
      else if okAbove then (above, p)
      else search fuel (n + 1)
  let (c, p) := search 17 1
  let rec strip : Nat → Nat → Int → Nat × Int
    | 0, c, p => (c, p)
    | fuel + 1, c, p => if c ≠ 0 ∧ c % 10 = 0 then strip fuel (c / 10) (p + 1) else (c, p)
  strip 24 c p

end GraphIngest.Shortest
