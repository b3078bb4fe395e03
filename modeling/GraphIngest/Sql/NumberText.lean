import GraphIngest.Number.Extended

/-!
# Numbers in text, the way the database reads and writes them

Reading a real keeps the first nineteen or so digits of the significand in a 64-bit word, then
scales the word by the power of ten in extended precision (`Extended`), each product rounded to
64 bits, and rounds the result to a double: not always the double nearest to the text. Its
outcome is `1` for a pure integer, `2` or `3` for a number with a point or an exponent, `0` for
no number (the value is that of the longest numeric prefix), and `-1` for no number that starts
with one that has a point or an exponent.

Reading an integer clamps the value to the 64-bit range; its outcome is `0` for exactly an
integer, `1` for one with other text after it, `2` on overflow, `-1` without digits, and `3` for
exactly `9223372036854775808` without a minus sign.

Writing a real keeps fifteen significant digits, rounded half up; one digit always follows the
point, and an exponent (`e+NN`) is used below `10^-4` and from `10^15` on.
-/

namespace GraphIngest.Sql

open GraphIngest.Extended

/-- The blanks of the database: space, tab, line feed, vertical tab, form feed, carriage return. -/
def isBlank (c : Char) : Bool :=
  c == ' ' || c == '\t' || c == '\n' || c == '\x0b' || c == '\x0c' || c == '\r'

def isDigit (c : Char) : Bool := '0' ≤ c && c ≤ '9'

def digitOf (c : Char) : Nat := c.toNat - '0'.toNat

def maxWord : Nat := Nat.pow 2 64 - 1

/-- A significand stops taking digits once it reaches this bound. -/
def wordLimit : Nat := (maxWord - 9) / 10

def minInt : Int := -(Int.pow 2 63)
def maxInt : Int := Int.pow 2 63 - 1

/-- The significand of the digits before the point: digits taken while the word is below the
bound, then the count of digits dropped; and the number of digits taken. -/
def wholeDigits : List Char → Nat → Nat → Nat × Int × Nat × List Char
  | [], s, n => (s, 0, n, [])
  | c :: rest, s, n =>
    if isDigit c then
      let s := s * 10 + digitOf c
      if s ≥ wordLimit then
        let more := rest.takeWhile isDigit
        (s, more.length, n + 1, rest.drop more.length)
      else wholeDigits rest s (n + 1)
    else (s, 0, n, c :: rest)

/-- The digits after the point: each taken while the word is below the bound, shifting the point;
the significand, the shift, the digits taken, and the rest. -/
def fractionDigits : List Char → Nat → Int → Nat → Nat × Int × Nat × List Char
  | [], s, d, n => (s, d, n, [])
  | c :: rest, s, d, n =>
    if isDigit c then
      if s < wordLimit then fractionDigits rest (s * 10 + digitOf c) (d - 1) (n + 1)
      else fractionDigits rest s d n
    else (s, d, n, c :: rest)

/-- The exponent's digits, capped at ten thousand; whether any was seen, and the rest. -/
def exponentDigits : List Char → Nat → Bool → Nat × Bool × List Char
  | [], e, seen => (e, seen, [])
  | c :: rest, e, seen =>
    if isDigit c then exponentDigits rest (if e < 10000 then e * 10 + digitOf c else 10000) true
    else (e, seen, c :: rest)

/-- The double of a significand scaled by a power of ten, computed in extended precision. -/
def scaledValue (s : Nat) (e : Int) : Float :=
  -- make the exponent small by moving factors of ten into or out of the significand
  let (s, e) := grow s e (e.toNat + 1)
  let (s, e) := shrink s e ((-e).toNat + 1)
  if e = 0 then intToFloat s
  else
    let r := ofNat s
    let r :=
      if 0 < e then
        let n := e.toNat
        scaleBy (tenTo 1) (n % 10) (scaleBy (tenTo 10) (n % 100 / 10) (scaleBy (tenTo 100) (n / 100) r))
      else
        let n := (-e).toNat
        scaleBy (tenTo (-1)) (n % 10) (scaleBy (tenTo (-10)) (n % 100 / 10) (scaleBy (tenTo (-100)) (n / 100) r))
    if lt maxDouble r then Binary64.infinity else toFloat r
where
  /-- Moves factors of ten into the significand while it stays below a tenth of the word. -/
  grow (s : Nat) (e : Int) : Nat → Nat × Int
    | 0 => (s, e)
    | fuel + 1 => if e > 0 && s < maxWord / 10 then grow (s * 10) (e - 1) fuel else (s, e)
  /-- Moves factors of ten out of the significand while it ends in a zero. -/
  shrink (s : Nat) (e : Int) : Nat → Nat × Int
    | 0 => (s, e)
    | fuel + 1 => if e < 0 && s % 10 == 0 then shrink (s / 10) (e + 1) fuel else (s, e)
  /-- The double nearest to a natural number. -/
  intToFloat (n : Nat) : Float := Binary64.ofRatio false n 1

/-- Reads a real from text: the outcome (see the module note) and the value. -/
def readReal (text : List Char) : Int × Float :=
  let cs := text.dropWhile isBlank
  if cs.isEmpty then (0, 0.0) else
  let (negative, cs) := match cs with
    | '-' :: r => (true, r)
    | '+' :: r => (false, r)
    | r => (false, r)
  let (s, d, nDigit, cs) := wholeDigits cs 0 0
  -- a point, then its digits
  let (s, d, nDigit, eType, cs) := match cs with
    | '.' :: r =>
      let (s, d', n', r) := fractionDigits r s 0 nDigit
      (s, d + d', n', (2 : Int), r)
    | r => (s, d, nDigit, (1 : Int), r)
  -- an exponent, then its sign and digits
  let (e, eValid, eType, cs) := match cs with
    | c :: r =>
      if c == 'e' || c == 'E' then
        match r with
        | [] => ((0 : Int), false, eType + 1, [])
        | _ =>
          let (sign, r) := match r with
            | '-' :: r' => ((-1 : Int), r')
            | '+' :: r' => (1, r')
            | r' => (1, r')
          let (e, seen, r) := exponentDigits r 0 false
          (sign * e, seen, eType + 1, r)
      else (0, true, eType, c :: r)
    | [] => (0, true, eType, [])
  let cs := cs.dropWhile isBlank
  let magnitude := if s == 0 then 0.0 else scaledValue s (e + d)
  let value := if negative then -magnitude else magnitude
  let kind : Int :=
    if cs.isEmpty && nDigit > 0 && eValid then eType
    else if eType ≥ 2 && (eType == 3 || eValid) && nDigit > 0 then -1
    else 0
  (kind, value)

/-- Compares nineteen digits with `9223372036854775808`. -/
def compareTwoPow63 (digits : List Char) : Ordering :=
  compare ((digits.take 19).foldl (fun acc c => acc * 10 + digitOf c) 0) (Nat.pow 2 63)

/-- Reads an integer from text: the outcome (see the module note) and the clamped value. -/
def readInt (text : List Char) : Int × Int :=
  let cs := text.dropWhile isBlank
  let (negative, cs) := match cs with
    | '-' :: r => (true, r)
    | '+' :: r => (false, r)
    | r => (false, r)
  let afterZeros := cs.dropWhile (· == '0')
  let digits := afterZeros.takeWhile isDigit
  let u := digits.foldl (fun acc c => acc * 10 + digitOf c) 0
  let rest := afterZeros.drop digits.length
  let value : Int :=
    if u > maxInt.toNat then (if negative then minInt else maxInt)
    else if negative then -(u : Int) else u
  let rc : Int :=
    if digits.isEmpty && afterZeros.length == cs.length then -1
    else if rest.any (!isBlank ·) then 1
    else 0
  if digits.length < 19 then (rc, value)
  else
    let c := if digits.length > 19 then Ordering.gt else compareTwoPow63 digits
    match c with
    | .lt => (rc, value)
    | .gt => (2, if negative then minInt else maxInt)
    | .eq => (if negative then rc else 3, if negative then minInt else maxInt)

/-- The digits of a positive finite double scaled into `[10^17, 10^19)` in extended precision,
and the power of ten that scaling took away. -/
def decimalDigits (r : Float) : Nat × Int :=
  let x := ofFloat r
  let (x, exp) :=
    if !lt x (ofNat (Nat.pow 10 19)) then
      let (x, exp) := down x 0 (tenTo 119) 100 (tenTo (-100)) 400
      let (x, exp) := down x exp (tenTo 29) 10 (tenTo (-10)) 400
      down x exp (tenTo 19) 1 (tenTo (-1)) 400
    else
      let (x, exp) := up x 0 (tenTo (-97)) 100 (tenTo 100) 400
      let (x, exp) := up x exp (tenTo 7) 10 (tenTo 10) 400
      up x exp (tenTo 17) 1 (tenTo 1) 400
  (floor x, exp)
where
  /-- Scales down by a factor while the value is at least a bound. -/
  down (x : Ext) (exp : Int) (bound : Ext) (step : Int) (f : Ext) : Nat → Ext × Int
    | 0 => (x, exp)
    | fuel + 1 => if !lt x bound then down (mul x f) (exp + step) bound step f fuel else (x, exp)
  /-- Scales up by a factor while the value is below a bound. -/
  up (x : Ext) (exp : Int) (bound : Ext) (step : Int) (f : Ext) : Nat → Ext × Int
    | 0 => (x, exp)
    | fuel + 1 => if lt x bound then up (mul x f) (exp - step) bound step f fuel else (x, exp)

/-- Rounds a digit list half up to `n` digits; a carry out of the first digit adds a digit and
moves the point. -/
def roundDigits (digits : List Nat) (n : Nat) (point : Int) : List Nat × Int :=
  if n ≥ digits.length then (digits, point)
  else
    let kept := digits.take n
    if (digits.getD n 0) ≥ 5 then
      let (carry, bumped) := kept.foldr (fun d (carry, acc) =>
        if carry then (if d == 9 then (true, 0 :: acc) else (false, (d + 1) :: acc)) else (false, d :: acc))
        (true, [])
      if carry then (1 :: bumped, point + 1) else (bumped, point)
    else (kept, point)

/-- The text of a real as the database writes it (see the module note). -/
def realText (x : Float) : String :=
  if x != x then "NaN"
  else if x == 0.0 then "0.0"
  else
    let negative := x < 0.0
    let r := if negative then -x else x
    if !Binary64.isFinite r then (if negative then "-Inf" else "Inf")
    else
      let (v, exp) := decimalDigits r
      let all := (Nat.toDigits 10 v).map digitOf
      let (digits, point) := roundDigits all 15 (all.length + exp)
      let digits := (digits.reverse.dropWhile (· == 0)).reverse
      let digits := if digits.isEmpty then [0] else digits
      let text (ds : List Nat) : String := String.ofList (ds.map fun d => Char.ofNat (d + 48))
      let sign := if negative then "-" else ""
      let e := point - 1
      if e < -4 || e > 14 then
        let mant := text (digits.take 1) ++ "." ++ (if digits.length > 1 then text (digits.drop 1) else "0")
        let ee := if e < 0 then -e else e
        let eText := (if ee < 10 then "0" else "") ++ toString ee
        sign ++ mant ++ "e" ++ (if e < 0 then "-" else "+") ++ eText
      else if e < 0 then
        sign ++ "0." ++ String.ofList (List.replicate (-e - 1).toNat '0') ++ text digits
      else
        let whole := (digits.take (e.toNat + 1)) ++ List.replicate (e.toNat + 1 - min (e.toNat + 1) digits.length) 0
        let frac := digits.drop (e.toNat + 1)
        sign ++ text whole ++ "." ++ (if frac.isEmpty then "0" else text frac)

end GraphIngest.Sql
