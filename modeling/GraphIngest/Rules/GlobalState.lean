import GraphIngest.Json.Decode

/-!
# Shared state of a conversion

A table of named entries that every rule of a conversion can read and change. Copies of the table
share their entries, so the table is one value and every copy sees every change. Keys are kept
sorted, which makes the listing of keys independent of insertion order.
-/

namespace GraphIngest

/-- A cancellation token held in the shared state. -/
inductive Token where
  | run
  | own (cancelled : Bool)
  deriving DecidableEq, Inhabited, Repr

/-- The value of one entry of the shared state. -/
inductive Slot where
  | text (s : String)
  | int (i : Int)
  | counter (n : Nat)
  | token (t : Token)
  deriving DecidableEq, Inhabited, Repr

/-- The shared state: entries sorted by key, one entry per key. -/
structure GlobalState where
  entries : List (String × Slot) := []
  deriving Inhabited

namespace GlobalState

def empty : GlobalState := {}

/-- Inserts an entry into a list sorted by key, replacing the entry of an equal key. -/
def insertEntry (k : String) (v : Slot) : List (String × Slot) → List (String × Slot)
  | [] => [(k, v)]
  | (k', v') :: rest =>
    if k < k' then (k, v) :: (k', v') :: rest
    else if k = k' then (k, v) :: rest
    else (k', v') :: insertEntry k v rest

/-- Stores a value under a key, replacing what was there. -/
def set (g : GlobalState) (k : String) (v : Slot) : GlobalState :=
  { entries := insertEntry k v g.entries }

/-- The value under a key. -/
def get? (g : GlobalState) (k : String) : Option Slot := g.entries.lookup k

def contains (g : GlobalState) (k : String) : Bool := (g.get? k).isSome

/-- Removes a key; whether it had a value. -/
def remove (g : GlobalState) (k : String) : Bool × GlobalState :=
  (g.contains k, { entries := g.entries.filter (fun e => e.1 != k) })

/-- The keys, sorted. -/
def keys (g : GlobalState) : List String := g.entries.map Prod.fst

/-- The number of entries. -/
def size (g : GlobalState) : Nat := g.entries.length

def isEmpty (g : GlobalState) : Bool := g.entries.isEmpty

/-- The debug text: the sorted keys, each quoted. -/
def debug (g : GlobalState) : String :=
  "GlobalState \x7b keys: [" ++ ", ".intercalate (g.keys.map JsonDecode.debugText) ++ "] \x7d"

/-- The text under a key, if it holds a text. -/
def text? (g : GlobalState) (k : String) : Option String :=
  match g.get? k with
  | some (.text s) => some s
  | _ => none

/-- The integer under a key, if it holds an integer. -/
def int? (g : GlobalState) (k : String) : Option Int :=
  match g.get? k with
  | some (.int i) => some i
  | _ => none

/-- The value of the counter under a key, if it holds a counter. -/
def counter? (g : GlobalState) (k : String) : Option Nat :=
  match g.get? k with
  | some (.counter n) => some n
  | _ => none

/-- The token under a key, if it holds a token. -/
def token? (g : GlobalState) (k : String) : Option Token :=
  match g.get? k with
  | some (.token t) => some t
  | _ => none

/-- Adds to the counter under a key, wrapping at 64 bits; the value before, and the new table.
Nothing happens when the key holds no counter. -/
def add (g : GlobalState) (k : String) (by_ : Nat) : Option (Nat × GlobalState) :=
  match g.counter? k with
  | some n => some (n, g.set k (.counter ((n + by_) % Nat.pow 2 64)))
  | none => none

end GlobalState

end GraphIngest
