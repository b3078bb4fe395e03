import GraphIngest.Graph.Props

/-!
# Node handles

A handle names a node before any store has given it an identity: a 128-bit UUID. Its text is the
hyphenated lower-case form. Reading accepts the plain 32-digit form, the hyphenated form, the
hyphenated form in braces and the `urn:uuid:` form, digits in either case. A text that is none of
these is refused with its first fault, a text longer than 45 bytes for its length alone.
-/

namespace GraphIngest

/-- A node handle: a 128-bit UUID. -/
structure Handle where
  bits : Nat
  deriving DecidableEq, Inhabited, Repr

/-- Why a text is not a UUID. -/
inductive UuidError where
  | badChar (c : Char) (index : Nat)
  | length (len : Nat)
  | groupCount (count : Nat)
  | groupLength (group len : Nat)
  deriving DecidableEq, Repr

namespace UuidError

def groupSizes : List Nat := [8, 4, 4, 4, 12]

def message : UuidError → String
  | .badChar c i => s!"invalid character: found `{c}` at {i}"
  | .length n => s!"invalid length: found {n}"
  | .groupCount n => s!"invalid group count: expected 5, found {n}"
  | .groupLength g n =>
    s!"invalid group length in group {g}: expected {groupSizes.getD g 0}, found {n}"

end UuidError

namespace Handle

def hexValue? (c : Char) : Option Nat :=
  if '0' ≤ c ∧ c ≤ '9' then some (c.toNat - '0'.toNat)
  else if 'a' ≤ c ∧ c ≤ 'f' then some (c.toNat - 'a'.toNat + 10)
  else if 'A' ≤ c ∧ c ≤ 'F' then some (c.toNat - 'A'.toNat + 10)
  else none

/-- The number held by a run of hex digits, if they all are. -/
def hexRun? (cs : List Char) : Option Nat :=
  cs.foldlM (fun acc c => (hexValue? c).map (acc * 16 + ·)) 0

def hexDigit (n : Nat) : Char :=
  if n < 10 then Char.ofNat ('0'.toNat + n) else Char.ofNat ('a'.toNat + n - 10)

/-- `n` written with exactly `width` lower-case hex digits. -/
def hexFixed (width n : Nat) : String :=
  String.ofList ((List.range width).reverse.map (fun i => hexDigit (n / Nat.pow 16 i % 16)))

/-- The hyphenated lower-case text of the handle. -/
def text (h : Handle) : String :=
  let b := h.bits
  hexFixed 8 (b / Nat.pow 2 96) ++ "-" ++ hexFixed 4 (b / Nat.pow 2 80 % Nat.pow 2 16) ++ "-" ++
    hexFixed 4 (b / Nat.pow 2 64 % Nat.pow 2 16) ++ "-" ++ hexFixed 4 (b / Nat.pow 2 48 % Nat.pow 2 16) ++ "-" ++
    hexFixed 12 (b % Nat.pow 2 48)

/-- Reads the hyphenated form: hyphens at 8, 13, 18 and 23, hex digits elsewhere. -/
def hyphenated? (cs : List Char) : Option Nat :=
  if cs.length = 36 ∧ cs[8]? = some '-' ∧ cs[13]? = some '-' ∧ cs[18]? = some '-' ∧
      cs[23]? = some '-' then
    hexRun? (cs.filter (· ≠ '-'))
  else none

/-- The characters of a text, each with its byte index. -/
def byteIndexed (cs : List Char) : List (Char × Nat) :=
  (cs.foldl (fun (acc, pos) c => ((c, pos) :: acc, pos + c.utf8Size)) ([], 0)).1.reverse

/-- The first fault of a text that is not a UUID. `cs` is the text with its braces or prefix taken
off, `size` the byte length of the text examined, `offset` the bytes taken off in front, and `plain`
says that nothing was taken off. -/
def fault (size : Nat) (cs : List Char) (offset : Nat) (plain : Bool) : UuidError :=
  let indexed := byteIndexed cs
  match indexed.find? (fun (c, _) => c ≠ '-' ∧ (hexValue? c).isNone) with
  | some (c, i) => .badChar c (i + offset)
  | none =>
    let hyphens := (indexed.filter (fun (c, _) => c = '-')).map (·.2)
    if hyphens.isEmpty ∧ plain then .length size
    else if hyphens.length ≠ 4 then .groupCount (hyphens.length + 1)
    else
      let starts := [0, 9, 14, 19, 24]
      let bad := (List.range 4).find? (fun i => hyphens.getD i 0 ≠ starts.getD (i + 1) 0 - 1)
      match bad with
      | some i => .groupLength i (hyphens.getD i 0 - starts.getD i 0)
      | none => .groupLength 4 (size - 24)

/-- The rest of a text after `urn:uuid:`, matched without regard to case. -/
def afterUrn? (cs : List Char) : Option (List Char) :=
  if (cs.take 9).map Char.toLower = "urn:uuid:".toList then some (cs.drop 9) else none

def inBraces? : List Char → Option (List Char)
  | '{' :: rest => if rest.getLast? = some '}' then some rest.dropLast else none
  | _ => none

def diagnose (cs : List Char) : UuidError :=
  let n := (String.ofList cs).utf8ByteSize
  if 45 < n then .length n
  else match inBraces? cs with
    | some inner => fault n inner 1 false
    | none =>
      match afterUrn? cs with
      | some inner => fault n inner 9 false
      | none => fault n cs 0 true

def parse (s : String) : Except UuidError Handle :=
  let cs := s.toList
  let read (inner : List Char) (digits : Option Nat) : Except UuidError Handle :=
    match digits with
    | some b => .ok ⟨b⟩
    | none => .error (diagnose inner)
  match s.utf8ByteSize with
  | 32 => read cs (hexRun? cs)
  | 36 => read cs (hyphenated? cs)
  | 38 => match inBraces? cs with
    | some inner => read inner (hyphenated? inner)
    | none => .error (diagnose cs)
  | 45 => match afterUrn? cs with
    | some inner => read inner (hyphenated? inner)
    | none => .error (diagnose cs)
  | _ => .error (diagnose cs)

/-- The handle `00000000-0000-4000-8000-` followed by `n` in twelve decimal digits. -/
def numbered (n : Nat) : Handle :=
  let digits := String.ofList (Nat.toDigits 10 (n % Nat.pow 10 12))
  let padded := String.ofList (List.replicate (12 - digits.length) '0') ++ digits
  let low := (hexRun? padded.toList).getD 0
  ⟨0x4000 * Nat.pow 2 64 + 0x8000 * Nat.pow 2 48 + low⟩

/-- The bits every minted handle has above its 48-bit serial number: a version-4 UUID prefix. -/
def mintedBase : Nat :=
  0x5e1f0a3c * Nat.pow 2 96 + 0x7b21 * Nat.pow 2 80 + 0x4c6d * Nat.pow 2 64 + 0x9e4f * Nat.pow 2 48

/-- The handle with serial number `n` among those this library mints for new nodes. Minted
handles are version-4 UUIDs under a prefix of their own. -/
def minted (n : Nat) : Handle :=
  ⟨mintedBase + n % Nat.pow 2 48⟩

/-- The serial number of a handle that lies among the minted ones. -/
def serial? (h : Handle) : Option Nat :=
  if h.bits / Nat.pow 2 48 = mintedBase / Nat.pow 2 48 then some (h.bits % Nat.pow 2 48) else none

/-- The first serial number past every minted handle among `hs`. Minting from there on gives
none of them, so new nodes never share a handle with a node the input names. -/
def serialPast (hs : List Handle) : Nat :=
  hs.foldl (fun acc h => match h.serial? with
    | some s => max acc (s + 1)
    | none => acc) 0

/-- The handles a text writes out in the hyphenated or the plain form (digits in either case),
wherever they stand in it. -/
def namedIn : List Char → List Handle
  | [] => []
  | c :: rest =>
    let here :=
      if (hexValue? c).isSome then
        let plain := c :: rest.take 31
        (hyphenated? (c :: rest.take 35)).toList ++
          (if plain.length = 32 then (hexRun? plain).toList else [])
      else []
    here.map Handle.mk ++ namedIn rest

/-- The serial number to mint from in a conversion over input written as `text`: past every
minted handle the text names. -/
def firstSerial (text : String) : Nat := serialPast (namedIn text.toList)

end Handle

end GraphIngest
