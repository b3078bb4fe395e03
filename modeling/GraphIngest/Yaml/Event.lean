/-!
# YAML events

A YAML text is read into a flat list of events, each with the mark where it starts; an alias
points at the event where its anchored node starts, and a text with no document gives one `void`
event. A syntax fault keeps the events before it, and is only reported when a reader needs an
event that is not there.
-/

namespace GraphIngest.Yaml

/-- A place in a YAML text, counted from zero. -/
structure Mark where
  index : Nat := 0
  line : Nat := 0
  column : Nat := 0
  deriving Inhabited, DecidableEq, Repr

namespace Mark

def isStart (m : Mark) : Bool := m.line == 0 && m.column == 0

/-- The mark written `line L column C`, counted from one. -/
def text (m : Mark) : String := s!"line {m.line + 1} column {m.column + 1}"

end Mark

/-- How a scalar is written. -/
inductive ScalarStyle where
  | plain
  | singleQuoted
  | doubleQuoted
  | literal
  | folded
  deriving DecidableEq, Inhabited, Repr

/-- One event of a YAML text. -/
inductive Event where
  | void
  | mapStart (tag : Option String)
  | mapEnd
  | seqStart (tag : Option String)
  | seqEnd
  | scalar (value : String) (style : ScalarStyle) (tag : Option String)
  | alias (target : Nat)
  deriving Inhabited, Repr

/-- A syntax fault: what is wrong and where, and what was being read and where that started. A
fault in the characters of the text is placed by its byte offset. -/
structure SyntaxFault where
  problem : String
  mark : Mark
  context : Option (String × Mark) := none
  offset : Nat := 0
  deriving Inhabited

namespace SyntaxFault

/-- The text of a syntax fault: the problem and its place, then what was being read and where it
started, that place left out when it is the start of the text or the problem's own place. -/
def message (f : SyntaxFault) : String :=
  let place :=
    if !f.mark.isStart then " at " ++ f.mark.text
    else if f.offset != 0 then s!" at position {f.offset}"
    else ""
  let base := f.problem ++ place
  match f.context with
  | none => base
  | some (c, m) =>
    let same := m.line == f.mark.line && m.column == f.mark.column
    base ++ ", " ++ c ++ (if m.isStart || same then "" else " at " ++ m.text)

end SyntaxFault

/-- The events of the first document of a text, the fault that ended reading if there was one,
and whether the text goes on with another document. -/
structure Stream where
  events : Array (Event × Mark)
  fault : Option SyntaxFault := none
  moreDocuments : Bool := false
  deriving Inhabited

end GraphIngest.Yaml
