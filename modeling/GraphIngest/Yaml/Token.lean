import GraphIngest.Yaml.Event

/-!
# YAML tokens and character classes

The tokens a YAML text is cut into before its structure is read, and the character classes of
YAML 1.1. A character a YAML text may not hold is refused before reading starts.
-/

namespace GraphIngest.Yaml

/-- A token of YAML text. -/
inductive Token where
  | streamStart
  | streamEnd
  | versionDirective (major minor : Nat)
  | tagDirective (handle expansion : String)
  | documentStart
  | documentEnd
  | blockSequenceStart
  | blockMappingStart
  | blockEnd
  | flowSequenceStart
  | flowSequenceEnd
  | flowMappingStart
  | flowMappingEnd
  | blockEntry
  | flowEntry
  | key
  | value
  | alias (name : String)
  | anchor (name : String)
  | tag (handle suffix : String)
  | scalar (value : String) (style : ScalarStyle)
  deriving Inhabited, Repr

/-- A token with the marks where it starts and ends. -/
structure Located where
  token : Token
  start : Mark
  stop : Mark
  deriving Inhabited

namespace Chars

def isBreak (c : Char) : Bool :=
  c == '\n' || c == '\r' || c == '\u0085' || c == '\u2028' || c == '\u2029'

def isBlank (c : Char) : Bool := c == ' ' || c == '\t'

def breakZ : Option Char → Bool
  | none => true
  | some c => isBreak c

/-- A blank, a line break or the end of the text. -/
def blankZ : Option Char → Bool
  | none => true
  | some c => isBlank c || isBreak c

/-- A blank (the end of the text is not one). -/
def blank : Option Char → Bool
  | none => false
  | some c => isBlank c

/-- A character of an anchor, a tag handle or a directive name. -/
def isWord (c : Char) : Bool :=
  ('0' ≤ c && c ≤ '9') || ('a' ≤ c && c ≤ 'z') || ('A' ≤ c && c ≤ 'Z') || c == '_' || c == '-'

def hexValue? (c : Char) : Option Nat :=
  if '0' ≤ c ∧ c ≤ '9' then some (c.toNat - '0'.toNat)
  else if 'a' ≤ c ∧ c ≤ 'f' then some (c.toNat - 'a'.toNat + 10)
  else if 'A' ≤ c ∧ c ≤ 'F' then some (c.toNat - 'A'.toNat + 10)
  else none

def allowed (c : Char) : Bool :=
  let v := c.toNat
  v == 0x09 || v == 0x0A || v == 0x0D || (0x20 ≤ v && v ≤ 0x7E) || v == 0x85 ||
    (0xA0 ≤ v && v ≤ 0xD7FF) || (0xE000 ≤ v && v ≤ 0xFFFD) || (0x10000 ≤ v && v ≤ 0x10FFFF)

/-- Whether a plain scalar may start with `c` followed by `next`: anything but a blank or an
indicator, and `-`, `?`, `:` when a non-blank follows (`?` and `:` only outside flow
collections). -/
def plainStart (c : Char) (next : Option Char) (flow : Bool) : Bool :=
  let indicator := "-?:,[]\x7b\x7d#&*!|>'\"%@`".toList.contains c
  !(isBlank c || isBreak c || indicator) ||
    (c == '-' && !blank next) ||
    (!flow && (c == '?' || c == ':') && !blankZ next)

/-- The first character a text may not hold, with its byte offset. -/
def firstRefused (s : String) : Option (Char × Nat) :=
  let rec go : List Char → Nat → Option (Char × Nat)
    | [], _ => none
    | c :: rest, offset => if allowed c then go rest (offset + c.utf8Size) else some (c, offset)
  go s.toList 0

end Chars

end GraphIngest.Yaml
