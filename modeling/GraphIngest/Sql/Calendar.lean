import GraphIngest.Sql.Value
import GraphIngest.Sql.NumberText
import GraphIngest.Sql.Format

/-!
# Dates and times

The date functions (`date`, `time`, `datetime`, `julianday`, `unixepoch`, `strftime` and
`timediff`) read a point in time from their first argument, change it by each further argument
(a modifier) in turn, and write it out.

A point in time (`Moment`) is known in up to three ways at once: as milliseconds on the Julian
day count (`ms`), as a calendar date, and as a time of day. Each way is worked out from the others
only when it is asked for: the date alone is taken to be 2000-01-01, and a time alone to be
midnight. A number is kept as it is (`bare`) until a modifier reads it as seconds since 1970, as
days, or as either by its size.

Modifiers are matched without regard to ASCII case. Months and years change the calendar fields,
so the day of the month may overflow into the next month (`floor` steps back to the end of the
month instead). Local time is UTC here. Any modifier that is not understood, and any point outside
the years -4713 to 9999, makes the result null.
-/

namespace GraphIngest.Sql.Calendar

/-- A point in time as the date functions see it (see the module note). -/
structure Moment where
  /-- Milliseconds on the Julian day count. -/
  ms : Int := 0
  year : Int := 0
  month : Int := 0
  day : Int := 0
  hour : Int := 0
  minute : Int := 0
  /-- The offset from UTC in minutes, still to be taken away. -/
  zone : Int := 0
  second : Float := 0
  hasMs : Bool := false
  hasDate : Bool := false
  hasTime : Bool := false
  /-- The days by which the day of the month overflows its month. -/
  overflow : Int := 0
  /-- Whether `second` holds a number not yet read as a point in time. -/
  bare : Bool := false
  failed : Bool := false
  subsecond : Bool := false
  utc : Bool := false
  localTime : Bool := false

/-- The point an error leaves: nothing known, and the error marked. -/
def broken : Moment := { failed := true }

def dayMs : Int := 86400000

def epochMs : Int := 210866760000000

/-- Whether a day count in milliseconds lies in the years 0 to 9999 (from the start of the count
to the end of 9999). -/
def validMs (ms : Int) : Bool := 0 ≤ ms && ms ≤ 464269060799999

def trunc (x : Float) : Int := Binary64.truncate x

/-- The double of an integer. -/
def real (i : Int) : Float := Binary64.ofInt i

/-- Forgets the date, the time of day and the offset, keeping the day count. -/
def Moment.cleared (p : Moment) : Moment := { p with hasDate := false, hasTime := false, zone := 0 }

/-- Works out the day count from the date (2000-01-01 when there is none) and the time of day;
an offset is then taken away, which leaves the date and time to be worked out again. -/
def Moment.withMs (p : Moment) : Moment :=
  if p.hasMs then p else
  let (y, m, d) := if p.hasDate then (p.year, p.month, p.day) else (2000, 1, 1)
  if y < -4713 || y > 9999 || p.bare then broken else
  let (y, m) := if m ≤ 2 then (y - 1, m + 12) else (y, m)
  let a := y.tdiv 100
  let b := 2 - a + a.tdiv 4
  let x1 := (36525 * (y + 4716)).tdiv 100
  let x2 := (306001 * (m + 1)).tdiv 10000
  let p := { p with ms := (2 * (x1 + x2 + d + b) - 3049) * 43200000, hasMs := true }
  if !p.hasTime then p else
  let ms := p.ms + p.hour * 3600000 + p.minute * 60000 + trunc (p.second * 1000 + 0.5)
  if p.zone == 0 then { p with ms } else
  { p with ms := ms - p.zone * 60000, hasDate := false, hasTime := false, zone := 0, utc := true,
           localTime := false }

/-- Works out the date from the day count (2000-01-01 when there is none). -/
def Moment.withDate (p : Moment) : Moment :=
  if p.hasDate then p
  else if !p.hasMs then { p with year := 2000, month := 1, day := 1, hasDate := true }
  else if !validMs p.ms then broken
  else
    let z := (p.ms + 43200000).tdiv dayMs
    let alpha := trunc ((real z + 32044.75) / 36524.25) - 52
    let a := z + 1 + alpha - (alpha + 100).tdiv 4 + 25
    let b := a + 1524
    let c := trunc ((real b - Binary64.ofRatio false 1221 10) / 365.25)
    let d := (36525 * (c % 32768)).tdiv 100
    let e := trunc (real (b - d) / Binary64.ofRatio false 306001 10000)
    let x1 := trunc (Binary64.ofRatio false 306001 10000 * real e)
    let month := if e < 14 then e - 1 else e - 13
    { p with day := b - d - x1, month, year := if month > 2 then c - 4716 else c - 4715,
             hasDate := true }

def Moment.withTime (p : Moment) : Moment :=
  if p.hasTime then p else
  let p := p.withMs
  let inDay := (p.ms + 43200000).tmod dayMs
  let minutes := inDay.tdiv 60000
  { p with second := real (inDay.tmod 60000) / 1000, minute := minutes.tmod 60,
           hour := minutes.tdiv 60, bare := false, hasTime := true }

def Moment.withFields (p : Moment) : Moment := p.withDate.withTime

def longMonth (m : Int) : Bool :=
  m == 1 || m == 3 || m == 5 || m == 7 || m == 8 || m == 10 || m == 12

/-- Records how far the day of the month runs past the end of its month. -/
def Moment.withOverflow (p : Moment) : Moment :=
  let overflow :=
    if p.day ≤ 28 then 0
    else if longMonth p.month then 0
    else if p.month != 2 then (if p.day == 31 then 1 else 0)
    else if p.year.tmod 4 != 0 || (p.year.tmod 100 == 0 && p.year.tmod 400 != 0) then p.day - 28
    else p.day - 29
  { p with overflow }

/-! ## Reading text -/

def isDigitChar (c : Char) : Bool := '0' ≤ c && c ≤ '9'

def lower (cs : List Char) : List Char :=
  cs.map fun c => if 'A' ≤ c && c ≤ 'Z' then Char.ofNat (c.toNat + 32) else c

/-- One number of a run of fixed-width numbers: its digits, its least and greatest values, and
the character that must follow it (none for the last). -/
structure Field where
  width : Nat
  least : Nat
  most : Nat
  next : Option Char

/-- Reads fixed-width numbers from the start of text, as many as are well formed and in range. -/
def readFields : List Field → List Char → List Nat
  | [], _ => []
  | f :: fs, cs =>
    let ds := cs.take f.width
    if ds.length < f.width || !ds.all isDigitChar then [] else
    let v := ds.foldl (fun acc c => acc * 10 + (c.toNat - 48)) 0
    let rest := cs.drop f.width
    if v < f.least || v > f.most then [] else
    match f.next with
    | none => [v]
    | some c => if rest.head? == some c then v :: readFields fs (rest.drop 1) else []

/-- The fields of `HH:MM`. -/
def hourMinute : List Field := [⟨2, 0, 24, some ':'⟩, ⟨2, 0, 59, none⟩]

/-- Reads the rest of a time: blanks, then an offset `±HH:MM` or `Z`, then blanks to the end. -/
def readZone (cs : List Char) (p : Moment) : Option Moment :=
  let p := { p with zone := 0 }
  match cs.dropWhile isBlank with
  | [] => some p
  | c :: rest =>
    if c == '-' || c == '+' then
      match readFields [⟨2, 0, 14, some ':'⟩, ⟨2, 0, 59, none⟩] rest with
      | [h, m] =>
        let sign : Int := if c == '-' then -1 else 1
        if ((rest.drop 5).dropWhile isBlank).isEmpty then
          some { p with zone := sign * (m + h * 60) }
        else none
      | _ => none
    else if c == 'Z' || c == 'z' then
      if (rest.dropWhile isBlank).isEmpty then some { p with localTime := false, utc := true }
      else none
    else none

/-- The fraction of a second its digits spell, summed and scaled in doubles, at most `.999`. -/
def fraction (ds : List Char) : Float :=
  let (sum, scale) := ds.foldl (fun (sum, scale) c => (sum * 10 + real c.toNat - 48, scale * 10))
    ((0 : Float), (1 : Float))
  let f := sum / scale
  if f > Binary64.ofRatio false 999 1000 then Binary64.ofRatio false 999 1000 else f

/-- Reads `HH:MM[:SS[.fff]]` and what may follow it (`readZone`) into a point. -/
def readTime (cs : List Char) (p : Moment) : Option Moment :=
  match readFields hourMinute cs with
  | [h, m] =>
    let cs := cs.drop 5
    let secs : Option (Nat × Float × List Char) :=
      match cs with
      | ':' :: r =>
        match readFields [⟨2, 0, 59, none⟩] r with
        | [s] =>
          match r.drop 2 with
          | '.' :: d :: more =>
            if isDigitChar d then
              let ds := (d :: more).takeWhile isDigitChar
              some (s, fraction ds, (d :: more).drop ds.length)
            else some (s, 0, '.' :: d :: more)
          | r => some (s, 0, r)
        | _ => none
      | r => some (0, 0, r)
    match secs with
    | none => none
    | some (s, f, rest) =>
      readZone rest { p with hasMs := false, bare := false, hasTime := true, hour := h, minute := m,
                             second := real s + f }
  | _ => none

/-- Reads `[-]YYYY-MM-DD`, then blanks or `T`, then a time or nothing, into a point. -/
def readDate (cs : List Char) (p : Moment) : Option Moment :=
  let (negative, cs) := match cs with
    | '-' :: r => (true, r)
    | r => (false, r)
  match readFields [⟨4, 0, 14712, some '-'⟩, ⟨2, 1, 12, some '-'⟩, ⟨2, 1, 31, none⟩] cs with
  | [y, m, d] =>
    let rest := (cs.drop 10).dropWhile fun c => isBlank c || c == 'T'
    let timed := match readTime rest p with
      | some p => some p
      | none => if rest.isEmpty then some { p with hasTime := false } else none
    match timed with
    | none => none
    | some p =>
      let p := { p with hasMs := false, hasDate := true, year := if negative then -(y : Int) else y,
                        month := m, day := d }.withOverflow
      some (if p.zone != 0 then p.withMs else p)
  | _ => none

/-- A number kept bare; it is also a day count when it is one. -/
def ofNumber (r : Float) : Moment :=
  let p : Moment := { second := r, bare := true }
  if r ≥ 0 && r < 5373484.5 then { p with ms := trunc (r * 86400000 + 0.5), hasMs := true } else p

def readMoment (cs : List Char) : Option Moment :=
  match readDate cs {} with
  | some p => some p
  | none =>
    match readTime cs {} with
    | some p => some p
    | none =>
      let (kind, r) := readReal cs
      if kind > 0 then some (ofNumber r) else none

/-! ## Modifiers -/

/-- Local time, taken to be UTC: the date and time of day of the day count, the seconds written
as whole seconds plus thousandths. A year outside 1970 to 2037 is first moved to one of 2000 to
2003 that shares its place in the four-year cycle, and moved back after. -/
def Moment.toLocal (p : Moment) : Moment :=
  let p := p.withMs
  let (shift, ms) :=
    if p.ms < 210866760000000 || p.ms > 213014145600000 then
      let x := p.withFields
      let shift := (2000 + x.year.tmod 4) - x.year
      ((shift : Int), { x with year := x.year + shift, hasMs := false }.withMs.ms)
    else (0, p.ms)
  let seconds := ms.tdiv 1000 - 210866760000
  let t : Moment := ({ ms := seconds * 1000 + epochMs, hasMs := true } : Moment).withFields
  { p with year := t.year - shift, month := t.month, day := t.day, hour := t.hour,
           minute := t.minute,
           second := real (trunc t.second) + real (p.ms.tmod 1000) * Binary64.ofRatio false 1 1000,
           hasDate := true, hasTime := true, hasMs := false, bare := false, zone := 0,
           failed := false }

/-- The day count whose local time is the given one, found by correcting a guess at most four
times. -/
def Moment.toUtc (p : Moment) : Moment :=
  let p := p.withMs
  let start := p.ms
  let guess := (List.range 4).foldl (fun (guess, err, done) _ =>
      if done then (guess, err, done) else
      let guess := guess - err
      let back := ({ ms := guess, hasMs := true } : Moment).toLocal.withMs
      let err := back.ms - start
      (guess, err, err == 0)) (start, (0 : Int), false)
  { ms := guess.1, hasMs := true, utc := true }

/-- A unit of `±NNN unit`: its name, the largest amount it takes, and its length in seconds. -/
structure Span where
  name : String
  limit : Float
  seconds : Float

/-- The units, in the order they are tried. -/
def units : List Span :=
  [⟨"second", 464269992787968, 1⟩, ⟨"minute", 7737900007424, 60⟩, ⟨"hour", 128969998336, 3600⟩,
   ⟨"day", 5373485, 86400⟩, ⟨"month", 176546, 2592000⟩, ⟨"year", 14713, 31536000⟩]

def Moment.carryMonths (p : Moment) : Moment :=
  let x := if p.month > 0 then (p.month - 1).tdiv 12 else (p.month - 12).tdiv 12
  { p with year := p.year + x, month := p.month - x * 12 }

/-- Adds a time `HH:MM[:SS[.fff]]` (with what may follow it), taken away when `negative`. -/
def Moment.addTime (p : Moment) (negative : Bool) (cs : List Char) : Option Moment :=
  match readTime cs {} with
  | none => none
  | some tx =>
    let t := tx.withMs.ms - 43200000
    let t := t - t.tdiv dayMs * dayMs
    let p := p.withMs.cleared
    some { p with ms := p.ms + (if negative then -t else t) }

/-- Adds `amount` of a unit written `name`. -/
def Moment.addUnits (p : Moment) (amount : Float) (name : List Char) : Option Moment :=
  let name := match name.getLast? with
    | some c => if c == 's' || c == 'S' then name.dropLast else name
    | none => name
  let p := { p.withMs with overflow := 0 }
  let rounder : Float := if amount < 0 then -0.5 else 0.5
  match units.find? fun u =>
      u.name.length == name.length && lower name == u.name.toList &&
        amount > -u.limit && amount < u.limit with
  | none => none
  | some u =>
    let whole := trunc amount
    let (p, amount) :=
      if u.name == "month" then
        let p := p.withFields
        ({ { p with month := p.month + whole }.carryMonths.withOverflow with hasMs := false },
         amount - real whole)
      else if u.name == "year" then
        let p := p.withFields
        ({ { p with year := p.year + whole }.withOverflow with hasMs := false }, amount - real whole)
      else (p, amount)
    let p := p.withMs
    some { p with ms := p.ms + trunc (amount * 1000 * u.seconds + rounder) }.cleared

/-- Where the number at the start of a `±...` modifier ends: at a `:` or blank, or at a `-`
after four or five digits that may be a year. -/
def numberEnd (z : List Char) : Nat :=
  let rec go (n : Nat) : List Char → Nat
    | [] => n
    | c :: rest =>
      if c == ':' || isBlank c then n
      else if c == '-' && n == 5 && (readFields [⟨4, 0, 14712, none⟩] (z.drop 1)).length == 1 then n
      else if c == '-' && n == 6 && (readFields [⟨5, 0, 14712, none⟩] (z.drop 1)).length == 1 then n
      else go (n + 1) rest
  go 1 (z.drop 1)

/-- Adds `±YYYY-MM-DD` years, months and days, then the time that may follow. -/
def Moment.addDate (p : Moment) (z : List Char) (n : Nat) : Option Moment :=
  let negative := z.head? == some '-'
  match readFields [⟨n - 1, 0, 14712, some '-'⟩, ⟨2, 0, 12, some '-'⟩, ⟨2, 0, 31, none⟩]
      (z.drop 1) with
  | [y, m, d] =>
    if m ≥ 12 || d ≥ 31 then none else
    let p := { p.withFields with hasMs := false }
    let (p, days) : Moment × Int :=
      if negative then ({ p with year := p.year - y, month := p.month - m }, -(d : Int))
      else ({ p with year := p.year + y, month := p.month + m }, d)
    let p := p.carryMonths.withOverflow.withMs
    let p := { p with hasTime := false, hasDate := false, ms := p.ms + days * dayMs }
    match z.drop (n + 6) with
    | [] => some p
    | c :: rest =>
      if isBlank c && (readFields hourMinute rest).length == 2 then p.addTime negative rest
      else none
  | _ => none

/-- Applies a modifier, the `index`-th argument; none when it is not understood. -/
def Moment.modify (p : Moment) (index : Nat) (z : List Char) : Option Moment :=
  let lz := lower z
  match lz with
  | [] => none
  | c :: _ =>
    if c == 'a' then
      if lz != "auto".toList then none
      else if index > 1 then none
      else if !p.bare || p.hasMs then some { p with bare := false }
      else if p.second ≥ -210866760000 && p.second ≤ 253402300799 then
        some { p.cleared with ms := trunc (p.second * 1000 + 210866760000000 + 0.5), hasMs := true,
                              bare := false }
      else none
    else if c == 'c' then
      if lz == "ceiling".toList then some { p.withMs.cleared with overflow := 0 } else none
    else if c == 'f' then
      if lz == "floor".toList then
        let p := p.withMs
        some { p with ms := p.ms - p.overflow * dayMs }.cleared
      else none
    else if c == 'j' then
      if lz != "julianday".toList then none
      else if index > 1 then none
      else if p.hasMs && p.bare then some { p with bare := false }
      else none
    else if c == 'l' then
      if lz == "localtime".toList then
        some { (if p.localTime then p else p.toLocal) with utc := false, localTime := true }
      else none
    else if c == 'u' then
      if lz == "unixepoch".toList && p.bare then
        if index > 1 then none else
        let r := p.second * 1000 + 210866760000000
        if r ≥ 0 && r < 464269060800000 then
          some { p.cleared with ms := trunc (r + 0.5), hasMs := true, bare := false }
        else none
      else if lz == "utc".toList then
        some (if p.utc then p else p.toUtc)
      else none
    else if c == 'w' then
      if lz.take 8 != "weekday ".toList then none else
      let (kind, r) := readReal (z.drop 8)
      let n := trunc r
      if kind > 0 && r ≥ 0 && r < 7 && real n == r then
        let p := { p.withFields with zone := 0, hasMs := false }.withMs
        let w := ((p.ms + 129600000).tdiv dayMs).tmod 7
        let w := if w > n then w - 7 else w
        some { p with ms := p.ms + (n - w) * dayMs }.cleared
      else none
    else if c == 's' then
      if lz.take 9 != "start of ".toList then
        if lz == "subsec".toList || lz == "subsecond".toList then some { p with subsecond := true }
        else none
      else if !p.hasMs && !p.hasDate && !p.hasTime then none
      else
        let rest := lz.drop 9
        let p := { p.withDate with hasTime := true, hour := 0, minute := 0, second := 0,
                                   bare := false, zone := 0, hasMs := false }
        if rest == "month".toList then some { p with day := 1 }
        else if rest == "year".toList then some { p with month := 1, day := 1 }
        else if rest == "day".toList then some p
        else none
    else if c == '+' || c == '-' || isDigitChar c then
      let n := numberEnd z
      let (kind, r) := readReal (z.take n)
      if kind ≤ 0 then none else
      match z.drop n with
      | '-' :: _ => if c == '+' || c == '-' then p.addDate z n else none
      | ':' :: _ => p.addTime (c == '-') (if isDigitChar c then z else z.drop 1)
      | after =>
        let name := after.dropWhile isBlank
        if name.length < 3 || name.length > 10 then none else p.addUnits r name
    else none

/-! ## The functions -/

/-- The point the arguments of a date function give, `now` being the connection's clock (in
milliseconds on the Julian day count): the first read, the rest applied as modifiers; none when
one of them fails, or the point lies outside the years -4713 to 9999.
A date alone has its day of the month carried over into the next month when it overflows. -/
def moment (now : Int) (args : List SqlValue) : Option Moment :=
  let current : Moment := { ms := now, hasMs := true, utc := true }
  match args with
  | [] => if validMs now then some current else none
  | first :: modifiers =>
    let start : Option Moment := match first with
      | .int i => some (ofNumber (real i))
      | .real x => some (ofNumber x)
      | .null => none
      | v =>
        let cs := beforeNul v.textChars
        if lower cs == "now".toList then some current
        else match readMoment cs with
          | some p => some p
          | none =>
            if lower cs == "subsec".toList || lower cs == "subsecond".toList then
              some { current with subsecond := true }
            else none
    let step (acc : Option Moment × Nat) (v : SqlValue) : Option Moment × Nat :=
      match acc.1, v with
      | none, _ => (none, acc.2 + 1)
      | some _, .null => (none, acc.2 + 1)
      | some p, v => (p.modify acc.2 (beforeNul v.textChars), acc.2 + 1)
    match (modifiers.foldl step (start, 1)).1 with
    | none => none
    | some p =>
      let p := p.withMs
      if p.failed || !validMs p.ms then none
      else if args.length == 1 && p.hasDate && p.day > 28 then some { p with hasDate := false }
      else some p
where
  /-- Text up to its first NUL. -/
  beforeNul (cs : List Char) : List Char := cs.takeWhile (· != '\x00')

def digit (v : Int) : Char := Char.ofNat (48 + (v.tmod 10).natAbs)

def twoDigits (v : Int) : List Char := [digit (v.tdiv 10), digit v]

/-- `YYYY-MM-DD`, with a `-` before a year below zero. -/
def dateText (p : Moment) : List Char :=
  let y := p.year.natAbs
  (if p.year < 0 then ['-'] else []) ++
    [digit (y / 1000), digit (y / 100), digit (y / 10), digit y, '-'] ++ twoDigits p.month ++
    ['-'] ++ twoDigits p.day

/-- `HH:MM:SS`, or `HH:MM:SS.SSS` with milliseconds. -/
def timeText (p : Moment) : List Char :=
  twoDigits p.hour ++ [':'] ++ twoDigits p.minute ++ [':'] ++
    if p.subsecond then
      let s := trunc (1000 * p.second + 0.5)
      [digit (s.tdiv 10000), digit (s.tdiv 1000), '.', digit (s.tdiv 100), digit (s.tdiv 10), digit s]
    else twoDigits (trunc p.second)

/-- A text result, or null. -/
def textOr : Option (List Char) → SqlValue
  | some cs => .text (String.ofList cs)
  | none => .null

/-- Whether a call of a date function reads the clock: with no point given, or given as `now`,
`subsec` or `subsecond`. -/
def readsClock (name : String) (args : List SqlValue) : Bool :=
  let given := match name with
    | "date" | "time" | "datetime" | "julianday" | "unixepoch" => some args
    | "strftime" => some (args.drop 1)
    | _ => none
  let clockWord (v : SqlValue) : Bool :=
    match v with
    | .text _ | .blob _ =>
      let cs := lower (moment.beforeNul v.textChars)
      cs == "now".toList || cs == "subsec".toList || cs == "subsecond".toList
    | _ => false
  match name, given with
  | "timediff", _ => args.any clockWord
  | _, some [] => true
  | _, some (first :: _) => clockWord first
  | _, none => false

/-- `date(...)`: the date of the point. -/
def date (now : Int) (args : List SqlValue) : SqlValue :=
  textOr ((moment now args).map fun p => dateText p.withDate)

/-- `time(...)`: the time of day of the point. -/
def time (now : Int) (args : List SqlValue) : SqlValue :=
  textOr ((moment now args).map fun p => timeText p.withTime)

/-- `datetime(...)`: the date and the time of day of the point. -/
def datetime (now : Int) (args : List SqlValue) : SqlValue :=
  textOr ((moment now args).map fun p => let p := p.withFields; dateText p ++ [' '] ++ timeText p)

/-- `julianday(...)`: the day count of the point, as a real. -/
def julianday (now : Int) (args : List SqlValue) : SqlValue :=
  match moment now args with
  | some p => .real (real p.withMs.ms / 86400000)
  | none => .null

/-- `unixepoch(...)`: seconds since 1970 (a real with `subsec`, else whole seconds). -/
def unixepoch (now : Int) (args : List SqlValue) : SqlValue :=
  match moment now args with
  | some p =>
    let p := p.withMs
    if p.subsecond then .real (real (p.ms - epochMs) / 1000)
    else .int (p.ms.tdiv 1000 - 210866760000)
  | none => .null

/-- Text from a template of conversions and the values for them. -/
def printed (template : String) (args : List SqlValue) : List Char :=
  match Format.format (.text template :: args) with
  | .text t => t.toList
  | _ => []

/-- Days since the Monday before, 0 to 6. -/
def Moment.afterMonday (p : Moment) : Int := ((p.ms + 43200000).tdiv dayMs).tmod 7

/-- Days since the Sunday before, 0 to 6. -/
def Moment.afterSunday (p : Moment) : Int := ((p.ms + 129600000).tdiv dayMs).tmod 7

def Moment.afterNewYear (p : Moment) : Int :=
  let start := { p with hasMs := false, month := 1, day := 1 }.withMs
  (p.ms - start.ms + 43200000).tdiv dayMs

/-- The Thursday of the week (Monday to Sunday) of a point, with its date. -/
def Moment.thursday (p : Moment) : Moment :=
  { p with ms := p.ms + (3 - p.afterMonday) * dayMs, hasDate := false }.withDate

/-- What one conversion of `strftime` writes; none for an unknown letter. -/
def conversion (x : Moment) (c : Char) : Option (List Char) :=
  let d (template : String) (v : Int) : Option (List Char) := some (printed template [.int v])
  match c with
  | 'd' => d "%02d" x.day
  | 'e' => d "%2d" x.day
  | 'f' =>
    let s := if x.second > Binary64.ofRatio false 59999 1000 then Binary64.ofRatio false 59999 1000
      else x.second
    some (printed "%06.3f" [.real s])
  | 'F' => some (printed "%04d-%02d-%02d" [.int x.year, .int x.month, .int x.day])
  | 'G' => d "%04d" x.thursday.year
  | 'g' => d "%02d" (x.thursday.year.tmod 100)
  | 'H' => d "%02d" x.hour
  | 'k' => d "%2d" x.hour
  | 'I' | 'l' =>
    let h := if x.hour > 12 then x.hour - 12 else x.hour
    d (if c == 'I' then "%02d" else "%2d") (if h == 0 then 12 else h)
  | 'W' => d "%02d" ((x.afterNewYear + 7 - x.afterMonday).tdiv 7)
  | 'j' => d "%03d" (x.afterNewYear + 1)
  | 'J' => some (printed "%.16g" [.real (real x.ms / 86400000)])
  | 'm' => d "%02d" x.month
  | 'M' => d "%02d" x.minute
  | 'p' => some (if x.hour ≥ 12 then ['P', 'M'] else ['A', 'M'])
  | 'P' => some (if x.hour ≥ 12 then ['p', 'm'] else ['a', 'm'])
  | 'R' => some (printed "%02d:%02d" [.int x.hour, .int x.minute])
  | 's' =>
    if x.subsecond then some (printed "%.3f" [.real (real (x.ms - epochMs) / 1000)])
    else some (toString (x.ms.tdiv 1000 - 210866760000)).toList
  | 'S' => d "%02d" (trunc x.second)
  | 'T' => some (printed "%02d:%02d:%02d" [.int x.hour, .int x.minute, .int (trunc x.second)])
  | 'u' => some [if x.afterSunday == 0 then '7' else digit x.afterSunday]
  | 'w' => some [digit x.afterSunday]
  | 'U' => d "%02d" ((x.afterNewYear - x.afterSunday + 7).tdiv 7)
  | 'V' => d "%02d" (x.thursday.afterNewYear.tdiv 7 + 1)
  | 'Y' => d "%04d" x.year
  | '%' => some ['%']
  | _ => none

/-- Writes a `strftime` template: text is copied, each `%` and the letter after it converted. -/
def strftimeText (x : Moment) : List Char → Option (List Char)
  | [] => some []
  | '%' :: rest =>
    match rest with
    | [] => none
    | c :: more => do
      let head ← conversion x c
      let tail ← strftimeText x more
      return head ++ tail
  | c :: rest => (strftimeText x rest).map (c :: ·)

/-- `strftime(template, ...)`: the point written by the template. -/
def strftime (now : Int) (args : List SqlValue) : SqlValue :=
  match args with
  | [] | .null :: _ => .null
  | t :: rest =>
    match moment now rest with
    | none => .null
    | some p => textOr (strftimeText p.withMs.withFields (moment.beforeNul t.textChars))

/-- Moves a point back by whole months, counting them, until it is no later than a bound. -/
def monthsBack (bound : Int) : Nat → Int × Int × Moment → Int × Int × Moment
  | 0, s => s
  | fuel + 1, (y, m, d2) =>
    if bound < d2.ms then
      let (y, m) := if m - 1 < 0 then (y - 1, 11) else (y, m - 1)
      let d2 := if d2.month - 1 < 1 then { d2 with month := 12, year := d2.year - 1 }
        else { d2 with month := d2.month - 1 }
      monthsBack bound fuel (y, m, { d2 with hasMs := false }.withMs)
    else (y, m, d2)

/-- Moves a point forward by whole months, counting them, until it is no earlier than a bound. -/
def monthsForward (bound : Int) : Nat → Int × Int × Moment → Int × Int × Moment
  | 0, s => s
  | fuel + 1, (y, m, d2) =>
    if bound > d2.ms then
      let (y, m) := if m - 1 < 0 then (y - 1, 11) else (y, m - 1)
      let d2 := if d2.month + 1 > 12 then { d2 with month := 1, year := d2.year + 1 }
        else { d2 with month := d2.month + 1 }
      monthsForward bound fuel (y, m, { d2 with hasMs := false }.withMs)
    else (y, m, d2)

/-- `timediff(a, b)`: how far `a` lies after `b`, as `±YYYY-MM-DD HH:MM:SS.SSS` of whole years,
whole months, then days and time. The months are counted from `b` moved into the year and month
of `a`, stepped back a month at a time while it passes `a`. -/
def timediff (now : Int) (a b : SqlValue) : SqlValue :=
  match moment now [a], moment now [b] with
  | some d1, some d2 =>
    let d1 := d1.withFields
    let d2 := d2.withFields
    let later := d1.ms ≥ d2.ms
    let y := if later then d1.year - d2.year else d2.year - d1.year
    let d2 := if y != 0 then { d2 with year := d1.year, hasMs := false }.withMs else d2
    let m := if later then d1.month - d2.month else d2.month - d1.month
    let (y, m) := if m < 0 then (y - 1, m + 12) else (y, m)
    let d2 := if m != 0 then { d2 with month := d1.month, hasMs := false }.withMs else d2
    let (y, m, d2) :=
      if later then monthsBack d1.ms 24 (y, m, d2) else monthsForward d1.ms 24 (y, m, d2)
    let rest := (if later then d1.ms - d2.ms else d2.ms - d1.ms) + 148699540800000
    let r := ({ d1 with ms := rest, hasMs := true } : Moment).cleared.withFields
    .text (String.ofList (printed "%c%04d-%02d-%02d %02d:%02d:%06.3f"
      [.text (if later then "+" else "-"), .int y, .int m, .int (r.day - 1), .int r.hour,
       .int r.minute, .real r.second]))
  | _, _ => .null

end GraphIngest.Sql.Calendar
