import GraphIngest.Sql.Value

/-!
# Text from a template and values

`format` (also called `printf`) copies a template byte by byte; a `%` starts a conversion
`%[flags][width][.precision]letter` that takes the next value. A width or precision `*` is taken
from the next value, and a letter not known ends the template there. A missing value reads as
zero, or as no text. Reals are written from their decimal digits (`decimal`): at most sixteen
significant digits (twenty-six with `!`), rounded half up.

The result is null when nothing was ever written, and also when the text outgrew the length
limit.
-/

namespace GraphIngest.Sql.Format

/-! ## Decimal digits of a real -/

/-- A double as decimal digits: the sign, the significant digits (the first nonzero unless the
value is zero) and the position of the point (`point = 1` puts it after the first digit). -/
inductive Decimal where
  | finite (negative : Bool) (digits : List Nat) (point : Int)
  | infinite (negative : Bool)
  | nan

/-- The decimal digits of a double rounded half up at the digit `round` (counted from the first
significant digit; a `round` of zero or less counts `-round` digits after the point instead), and
at most `maxDigits` digits. Negative zero is written as zero. -/
def decimal (x : Float) (round : Int) (maxDigits : Nat) : Decimal :=
  if x != x then .nan
  else if x == 0.0 then .finite false [0] 1
  else
    let negative := x < 0.0
    let r := if negative then -x else x
    if !Binary64.isFinite r then .infinite negative
    else
      let (v, exp) := decimalDigits r
      let ds := (Nat.toDigits 10 v).map digitOf
      let point : Int := ds.length + exp
      -- digits after the point count from the point; a first digit of five or more that would
      -- round away entirely makes room for a carry
      let (ds, point, at_) : List Nat × Int × Int :=
        if round ≤ 0 then
          let at_ := point - round
          if at_ == 0 && ds.headD 0 ≥ 5 then (0 :: ds, point + 1, 1) else (ds, point, at_)
        else (ds, point, round)
      let (ds, point) :=
        if at_ > 0 && (at_ < ds.length || ds.length > maxDigits) then
          roundDigits ds (min at_.toNat maxDigits) point
        else (ds, point)
      .finite negative (ds.reverse.dropWhile (· == 0)).reverse point

/-! ## Conversions -/

def maxLength : Nat := 1000000000

/-- A byte of an ASCII character. -/
def byte (c : Char) : UInt8 := c.toNat.toUInt8

def ascii (s : String) : List UInt8 := s.toList.map byte

def isDigitByte (b : UInt8) : Bool := 48 ≤ b && b ≤ 57

def isTail (b : UInt8) : Bool := b &&& 0xC0 == 0x80

/-- What a conversion spec says besides its letter. -/
structure Spec where
  leftJustify : Bool := false
  /-- `+` or a blank before positive numbers. -/
  signMark : Option UInt8 := none
  alternate : Bool := false
  /-- The `!` flag. -/
  alternate2 : Bool := false
  zeroPad : Bool := false
  thousands : Bool := false
  width : Nat := 0
  precision : Option Nat := none

/-- An integer as a 32-bit signed integer, wrapping around. -/
def toInt32 (i : Int) : Int :=
  let m := i % Int.pow 2 32
  if m ≥ Int.pow 2 31 then m - Int.pow 2 32 else m

/-- The values not yet used; a missing one is none. -/
def nextValue : List SqlValue → Option SqlValue × List SqlValue
  | [] => (none, [])
  | v :: rest => (some v, rest)

/-- The next value as an integer; zero when none is left. -/
def nextInt (args : List SqlValue) : Int × List SqlValue :=
  let (v, rest) := nextValue args
  ((v.map SqlValue.toInt).getD 0, rest)

/-- The next value as a double; zero when none is left. -/
def nextReal (args : List SqlValue) : Float × List SqlValue :=
  let (v, rest) := nextValue args
  ((v.map SqlValue.toReal).getD 0.0, rest)

/-- The bytes of a value read as text, up to its first NUL byte; none for null. -/
def textOf : SqlValue → Option (List UInt8)
  | .null => none
  | .blob b => some (b.takeWhile (· != 0))
  | v => some ((textBytes (String.ofList v.textChars)).takeWhile (· != 0))

/-- The next value as text; none when none is left or it is null. -/
def nextText (args : List SqlValue) : Option (List UInt8) × List SqlValue :=
  let (v, rest) := nextValue args
  (v.bind textOf, rest)

/-- A run of digits as a 31-bit count, the way a template's width or precision is read. -/
def countOf (ds : List UInt8) : Nat :=
  (ds.foldl (fun acc d => (acc * 10 + (d.toNat - 48)) % Nat.pow 2 32) 0) % Nat.pow 2 31

/-- Reads the flags, width and precision of a conversion, the current byte first; gives the
spec, the values left, the letter (none when the template ended first) and the rest of the
template. -/
def readSpec : Nat → Spec → List SqlValue → List UInt8 →
    Spec × List SqlValue × Option UInt8 × List UInt8
  | 0, s, args, _ => (s, args, none, [])
  | _ + 1, s, args, [] => (s, args, none, [])
  | fuel + 1, s, args, c :: rest =>
    let letter (s : Spec) (args : List SqlValue) (cs : List UInt8) :
        Spec × List SqlValue × Option UInt8 × List UInt8 :=
      match cs with
      | d :: more => (s, args, some d, more)
      | [] => (s, args, none, [])
    let goesOn (cs : List UInt8) : Bool := cs.head? == some (byte '.') || cs.head? == some (byte 'l')
    if c == byte '-' then readSpec fuel { s with leftJustify := true } args rest
    else if c == byte '+' then readSpec fuel { s with signMark := some (byte '+') } args rest
    else if c == byte ' ' then readSpec fuel { s with signMark := some (byte ' ') } args rest
    else if c == byte '#' then readSpec fuel { s with alternate := true } args rest
    else if c == byte '!' then readSpec fuel { s with alternate2 := true } args rest
    else if c == byte '0' then readSpec fuel { s with zeroPad := true } args rest
    else if c == byte ',' then readSpec fuel { s with thousands := true } args rest
    else if c == byte 'l' then
      match rest with
      | d :: more => if d == byte 'l' then letter s args more else (s, args, some d, more)
      | [] => (s, args, none, [])
    else if isDigitByte c then
      let ds := (c :: rest).takeWhile isDigitByte
      let after := (c :: rest).drop ds.length
      let s := { s with width := countOf ds }
      if goesOn after then readSpec fuel s args after else letter s args after
    else if c == byte '*' then
      let (w, args) := nextInt args
      let w := toInt32 w
      let s := if w < 0 then { s with leftJustify := true, width := if w ≥ -2147483647 then (-w).toNat else 0 }
        else { s with width := w.toNat }
      if goesOn rest then readSpec fuel s args rest else letter s args rest
    else if c == byte '.' then
      match rest with
      | d :: more =>
        if d == byte '*' then
          let (p, args) := nextInt args
          let p := toInt32 p
          let s := { s with precision := if p ≥ 0 then some p.toNat else if p ≥ -2147483647 then some (-p).toNat else none }
          if more.head? == some (byte 'l') then readSpec fuel s args more else letter s args more
        else
          let ds := rest.takeWhile isDigitByte
          let after := rest.drop ds.length
          let s := { s with precision := some (countOf ds) }
          if after.head? == some (byte 'l') then readSpec fuel s args after else letter s args after
      | [] => (s, args, none, [])
    else (s, args, some c, rest)

/-- Digits grouped by threes with commas, counted from the right. -/
def groupThousands (ds : List UInt8) : List UInt8 :=
  let n := ds.length
  (ds.zipIdx.flatMap fun (d, i) =>
    if i + 1 < n && (n - 1 - i) % 3 == 0 then [d, byte ','] else [d])

/-- The text of an integer conversion: `signed` reads the value as signed, `digitsOf` writes
the magnitude, `radixPrefix` is what `#` adds, `ordinal` appends an English ordinal suffix.
None when the digits would not fit in a buffer. -/
def integerText (s : Spec) (signed : Bool) (digitsOf : Nat → List UInt8) (radixPrefix : List UInt8)
    (ordinal : Bool) (thousands : Bool) (v : Int) : Option (List UInt8) :=
  let (mag, mark) : Nat × Option UInt8 :=
    if signed then (if v < 0 then ((-v).toNat, some (byte '-')) else (v.toNat, s.signMark))
    else ((v % Int.pow 2 64).toNat, none)
  let markWidth := if mark.isSome then 1 else 0
  let precision : Int := (s.precision.map (fun p => (p : Int))).getD (-1)
  let precision : Int :=
    if s.zeroPad && precision < (s.width : Int) - markWidth then (s.width : Int) - markWidth else precision
  let bufferNeed : Int := precision + 10 + (if thousands then precision / 3 else 0)
  if precision ≥ 37 && bufferNeed > maxLength then none
  else
    let suffix : List UInt8 :=
      if ordinal then
        let x := if mag % 10 ≥ 4 || (mag / 10) % 10 == 1 then 0 else mag % 10
        ascii (["th", "st", "nd", "rd"].getD x "th")
      else []
    let body := digitsOf mag ++ suffix
    let body := List.replicate (precision.toNat - body.length) (byte '0') ++ body
    let body := if thousands then groupThousands body else body
    let radix := if s.alternate && mag != 0 then radixPrefix else []
    some (radix ++ mark.toList ++ body)

/-- The digits of a number in a base, most significant first; letters in lower or upper case. -/
def digitsIn (base : Nat) (upper : Bool) (n : Nat) : List UInt8 :=
  (Nat.toDigits base n).map fun c => byte (if upper then c.toUpper else c)

/-- How a real is written: with a fixed number of places, in scientific notation, or whichever
of the two is shorter for the precision. -/
inductive RealStyle where
  | fixed
  | scientific
  | general
  deriving DecidableEq

/-- Writes the digits of a real: `whole` digits before the point (powers `e2` down to `0`), then
the point and `precision` places; digits run out into zeros. -/
def placeDigits (thousands : Bool) (e2 : Int) (precision : Nat) (dot : Bool) (ds : List Nat) :
    List UInt8 :=
  let digit (d : Nat) : UInt8 := (48 + d).toUInt8
  let (whole, ds) : List UInt8 × List Nat :=
    if e2 < 0 then ([byte '0'], ds)
    else
      let powers := (List.range (e2.toNat + 1)).reverse
      let taken := powers.zipIdx.map fun (e, i) => (e, ds.getD i 0)
      (taken.flatMap fun (e, d) => if thousands && e % 3 == 0 && e > 1 then [digit d, byte ','] else [digit d],
        ds.drop powers.length)
  let lead : Nat := if e2 < 0 then min (-(e2 + 1)).toNat precision else 0
  let rest := precision - lead
  let places := List.replicate lead (byte '0') ++ (List.range rest).map fun i => digit (ds.getD i 0)
  whole ++ (if dot then [byte '.'] else []) ++ places

/-- The text of a real conversion; none when the digits would not fit in a buffer. -/
def realText (s : Spec) (style : RealStyle) (upper : Bool) (x : Float) : Option (List UInt8) :=
  let precision := s.precision.getD 6
  let precision := if style == .general && precision == 0 then 1 else precision
  let round : Int := match style with
    | .fixed => -(precision : Int)
    | .general => precision
    | .scientific => precision + 1
  let value := decimal x round (if s.alternate2 then 26 else 16)
  let finite : Option (Bool × List Nat × Int) := match value with
    | .finite n ds p => some (n, ds, p)
    | .infinite n => if s.zeroPad then some (n, [9], 1000) else none
    | .nan => none
  match value, finite with
  | .nan, _ => some (ascii (if s.zeroPad then "null" else "NaN"))
  | .infinite negative, none =>
    some (if negative then ascii "-Inf" else (s.signMark.toList ++ ascii "Inf"))
  | _, none => some []
  | _, some (negative, ds, point) =>
    let mark : Option UInt8 := if negative then some (byte '-') else s.signMark
    let exp := point - 1
    let precision := if style == .general && precision > 0 then precision - 1 else precision
    let (style, precision, trim) : RealStyle × Nat × Bool :=
      if style == .general then
        if exp < -4 || exp > precision then (.scientific, precision, !s.alternate)
        else (.fixed, (precision - exp).toNat, !s.alternate)
      else (style, precision, s.alternate2)
    let e2 : Int := if style == .scientific then 0 else point - 1
    let need : Int := max e2 0 + precision + s.width + 15 +
      (if s.thousands && e2 > 0 then (e2 + 2) / 3 else 0)
    if need > 70 && need > maxLength then none
    else
      let dot := precision > 0 || s.alternate || s.alternate2
      let body := placeDigits s.thousands e2 precision dot ds
      let body :=
        if trim && dot then
          let stripped := (body.reverse.dropWhile (· == byte '0')).reverse
          if stripped.getLast? == some (byte '.') then
            if s.alternate2 then stripped ++ [byte '0'] else stripped.dropLast
          else stripped
        else body
      let exponent : List UInt8 :=
        if style == .scientific then
          let e := if ds == [0] then 0 else exp
          let ee := e.natAbs
          [byte (if upper then 'E' else 'e'), byte (if e < 0 then '-' else '+')] ++
            (if ee ≥ 100 then [(48 + ee / 100).toUInt8] else []) ++
            [(48 + ee % 100 / 10).toUInt8, (48 + ee % 10).toUInt8]
        else []
      let text := mark.toList ++ body ++ exponent
      if s.zeroPad && !s.leftJustify && text.length < s.width then
        let zeros := List.replicate (s.width - text.length) (byte '0')
        some (mark.toList ++ zeros ++ body ++ exponent)
      else some text

/-- The first `n` characters of UTF-8 bytes (all of them when `n` is none), as bytes. -/
def takeChars : Option Nat → List UInt8 → List UInt8
  | none, bs => bs
  | some 0, _ => []
  | some _, [] => []
  | some (n + 1), b :: rest =>
    let tail := if b ≥ 0xC0 then rest.takeWhile isTail else []
    b :: tail ++ takeChars (some n) (rest.drop tail.length)

/-- The bytes a quoting conversion escapes: `count` limits them (bytes, or characters when `chars`). -/
def quotedBytes (q : UInt8) (chars : Bool) (count : Option Nat) (bs : List UInt8) : List UInt8 :=
  let taken := if chars then takeChars count bs else match count with
    | some n => bs.take n
    | none => bs
  taken.flatMap fun b => if b == q then [b, b] else [b]

/-- The width a text needs for `n` display columns when `!` counts characters: one more per
continuation byte. -/
def widthFor (s : Spec) (bs : List UInt8) : Nat :=
  if s.alternate2 && s.width > 0 then s.width + (bs.filter isTail).length else s.width

/-! ## The template -/

/-- The text being built: whether anything was written yet, and the bytes. -/
structure Sink where
  written : Bool := false
  bytes : Array UInt8 := #[]
  /-- Set once the text outgrew the limit; it is then dropped and stays empty. -/
  tooBig : Bool := false

/-- Appends bytes; growing beyond the limit drops the text. -/
def Sink.put (k : Sink) (bs : List UInt8) : Sink :=
  if k.tooBig then k
  else if k.bytes.size + bs.length + 1 > maxLength then { written := false, bytes := #[], tooBig := true }
  else { k with written := true, bytes := k.bytes ++ bs.toArray }

/-- Appends a run of blanks, checking the size before building it. -/
def Sink.blanks (k : Sink) (n : Nat) : Sink :=
  if k.tooBig || n == 0 then k
  else if k.bytes.size + n + 1 > maxLength then { written := false, bytes := #[], tooBig := true }
  else k.put (List.replicate n (byte ' '))

/-- Writes a converted text into its field: blanks before it, or after it when left-justified. -/
def Sink.field (k : Sink) (s : Spec) (width : Nat) (bs : List UInt8) : Sink :=
  if width > bs.length then
    if s.leftJustify then (k.put bs).blanks (width - bs.length)
    else (k.blanks (width - bs.length)).put bs
  else k.put bs

/-- `%c`: the first character of the text (a NUL byte for none), repeated `precision` times. -/
def charField (k : Sink) (s : Spec) (text : Option (List UInt8)) : Sink :=
  let one : List UInt8 := match text with
    | some (b :: rest) => if b &&& 0xC0 == 0xC0 then b :: (rest.takeWhile isTail).take 3 else [b]
    | _ => [0]
  match s.precision with
  | some p =>
    if p > 1 then
      let width : Int := (s.width : Int) - (p - 1)
      let (k, width) : Sink × Int :=
        if width > 1 && !s.leftJustify then (k.blanks (width - 1).toNat, 0) else (k, width)
      let k := k.put (List.replicate (p - 1) one).flatten
      k.field { s with alternate2 := true } (widthFor { s with alternate2 := true, width := width.toNat } one) one
    else k.field s (widthFor { s with alternate2 := true } one) one
  | none => k.field s (widthFor { s with alternate2 := true } one) one

/-- Runs a template over values (see the module note). -/
def run : Nat → Sink → List SqlValue → List UInt8 → Sink
  | 0, k, _, _ => k
  | _ + 1, k, _, [] => k
  | fuel + 1, k, args, c :: rest =>
    if c != byte '%' then
      let lit := (c :: rest).takeWhile (· != byte '%')
      run fuel (k.put lit) args ((c :: rest).drop lit.length)
    else
      match rest with
      | [] => k.put [byte '%']
      | _ =>
        match readSpec (rest.length + 1) {} args rest with
        | (_, _, none, _) => k
        | (s, args, some letter, more) =>
          let l := Char.ofNat letter.toNat
          let done (k : Sink) (args : List SqlValue) : Sink := run fuel k args more
          let integer (signed : Bool) (base : Nat) (upper : Bool) (radixPrefix : String) (ordinal : Bool)
              (thousands : Bool) : Sink :=
            let (v, args) := nextInt args
            match integerText s signed (digitsIn base upper) (ascii radixPrefix) ordinal thousands v with
            | some bs => done (k.field s s.width bs) args
            | none => k
          let real (style : RealStyle) (upper : Bool) : Sink :=
            let (x, args) := nextReal args
            match realText s style upper x with
            | some bs => done (k.field s s.width bs) args
            | none => k
          match l with
          | 'd' | 'i' => integer true 10 false "" false s.thousands
          | 'u' => integer false 10 false "" false s.thousands
          | 'x' => integer false 16 false "0x" false false
          | 'X' => integer false 16 true "0X" false false
          | 'o' => integer false 8 false "0" false false
          | 'p' => integer false 16 true "0x" false false
          | 'r' => integer true 10 false "" true false
          | 'f' => real .fixed false
          | 'e' => real .scientific false
          | 'E' => real .scientific true
          | 'g' => real .general false
          | 'G' => real .general true
          | 's' | 'z' =>
            let (t, args) := nextText args
            let bs := t.getD []
            let bs := match s.precision with
              | some p => if s.alternate2 then takeChars (some p) bs else bs.take p
              | none => bs
            done (k.field s (widthFor s bs) bs) args
          | 'q' | 'Q' | 'w' =>
            let (t, args) := nextText args
            let q := if l == 'w' then byte '"' else byte '\''
            let bs := match t with
              | some bs =>
                let inner := quotedBytes q s.alternate2 s.precision bs
                if l == 'Q' then q :: inner ++ [q] else inner
              | none => quotedBytes q s.alternate2 s.precision (ascii (if l == 'Q' then "NULL" else "(NULL)"))
            done (k.field s (widthFor s bs) bs) args
          | 'c' =>
            let (t, args) := nextText args
            done (charField k s t) args
          | '%' => done (k.field s s.width [byte '%']) args
          | 'n' => done (k.put []) args
          | _ => k

/-- `format(template, values…)`: the text the template makes of the values; null for a null
template, or when nothing was written. -/
def format (args : List SqlValue) : SqlValue :=
  match args with
  | [] => .null
  | t :: values =>
    match textOf t with
    | none => .null
    | some template =>
      let k := run (template.length + 1) {} values template
      if k.written then .text (utf8Text k.bytes.toList) else .null

def formatReal (template : String) (x : Float) : String :=
  match format [.text template, .real x] with
  | .text t => t
  | _ => ""

end GraphIngest.Sql.Format
