import GraphIngest.Number.Shortest

/-!
# Texts of a double

Two ways of writing a double from its shortest digits, and one way of reading one: `plain` writes
every finite value positionally, `json` writes what a JSON document holds (with an exponent
beyond sixteen digits, non-finite values as `null`), and `read?` accepts a decimal or one of
`inf`, `infinity`, `nan` in any case.
-/

namespace GraphIngest.FloatText

open GraphIngest.Binary64

/-- `n` zeros. -/
def zeros (n : Nat) : String := String.ofList (List.replicate n '0')

def digitString (n : Nat) : String := String.ofList (Nat.toDigits 10 n)

/-- Positional text of `c · 10^p`, without exponent and without a zero fraction. -/
def positional (c : Nat) (p : Int) : String :=
  let s := digitString c
  if 0 ≤ p then s ++ zeros p.toNat
  else
    let n := s.length
    let cut : Int := (n : Int) + p
    if 0 < cut then
      String.ofList (s.toList.take cut.toNat) ++ "." ++ String.ofList (s.toList.drop cut.toNat)
    else "0." ++ zeros (-cut).toNat ++ s

/-- The shortest digits of a finite nonzero double's magnitude. -/
def shortestOf (x : Float) : Nat × Int :=
  let p := parts x
  Shortest.digits p.mantissa p.power

/-- Positional text of a double (see the module note). -/
def plain (x : Float) : String :=
  if isNaN x then "NaN"
  else
    let sign := if isNegative x then "-" else ""
    if !isFinite x then sign ++ "inf"
    else if isZero x then sign ++ "0"
    else
      let (c, p) := shortestOf x
      sign ++ positional c p

/-- JSON text of `c · 10^p` (see the module note). -/
def scientific (c : Nat) (p : Int) : String :=
  let s := digitString c
  let n : Int := s.length
  let kk := n + p
  if 0 ≤ p ∧ kk ≤ 16 then s ++ zeros p.toNat ++ ".0"
  else if 0 < kk ∧ kk ≤ 16 then
    String.ofList (s.toList.take kk.toNat) ++ "." ++ String.ofList (s.toList.drop kk.toNat)
  else if -5 < kk ∧ kk ≤ 0 then "0." ++ zeros (-kk).toNat ++ s
  else
    let e := kk - 1
    let expText := (if e < 0 then "-" else "+") ++ digitString e.natAbs
    match s.toList with
    | [d] => String.singleton d ++ "e" ++ expText
    | d :: rest => String.singleton d ++ "." ++ String.ofList rest ++ "e" ++ expText
    | [] => "0e0"

/-- JSON text of a double (see the module note). -/
def json (x : Float) : String :=
  if !isFinite x then "null"
  else
    let sign := if isNegative x then "-" else ""
    if isZero x then sign ++ "0.0"
    else
      let (c, p) := shortestOf x
      sign ++ scientific c p

/-- Digits of a run, with their count. -/
def digitValue (cs : List Char) : Nat :=
  cs.foldl (fun acc c => acc * 10 + (c.toNat - '0'.toNat)) 0

/-- Reads a decimal mantissa with optional exponent; `none` if the text is not one. -/
def readDecimal? (negative : Bool) (cs : List Char) : Option Float :=
  let intPart := cs.takeWhile Char.isDigit
  let rest := cs.dropWhile Char.isDigit
  let (fracPart, rest) :=
    match rest with
    | '.' :: r => (r.takeWhile Char.isDigit, r.dropWhile Char.isDigit)
    | _ => ([], rest)
  if intPart.isEmpty ∧ fracPart.isEmpty then none
  else
    let expo : Option Int :=
      match rest with
      | [] => some 0
      | e :: r =>
        if e = 'e' ∨ e = 'E' then
          let (neg, ds) := match r with
            | '-' :: ds => (true, ds)
            | '+' :: ds => (false, ds)
            | ds => (false, ds)
          if ds.isEmpty ∨ !ds.all Char.isDigit then none
          else
            let v := digitValue ds
            some (if neg then -(v : Int) else v)
        else none
    match expo with
    | none => none
    | some ex =>
      let mant := digitValue (intPart ++ fracPart)
      let e := ex - fracPart.length
      -- far outside the range the value is a zero or an infinity; cap the exponent there
      let e : Int := if mant = 0 then 0 else max (-800 - ((intPart ++ fracPart).length : Int)) (min 800 e)
      some (ofDecimal negative mant e)

/-- Reads the text of a double: an optional sign, then a decimal or a special value. -/
def read? (s : String) : Option Float :=
  let cs := s.toList
  let (negative, body) := match cs with
    | '-' :: r => (true, r)
    | '+' :: r => (false, r)
    | r => (false, r)
  let word := String.ofList (body.map Char.toLower)
  if word = "inf" ∨ word = "infinity" then
    some (if negative then negate infinity else infinity)
  else if word = "nan" then some nan
  else readDecimal? negative body

end GraphIngest.FloatText
