import GraphIngest.Graph.Value

/-!
# Property maps

A property map sends keys to values, one value per key. It is kept as a list of entries sorted by
key (byte order of the key text), so two maps with the same entries are the same list and every
listing of a map comes out sorted. Setting a key replaces its value in place.
-/

namespace GraphIngest

/-- A map from property keys to values, entries sorted by key with no key twice. -/
structure Props where
  entries : List (String × Value) := []
  deriving Inhabited

namespace Props

def empty : Props := {}

/-- Inserts an entry into a sorted entry list, replacing the value of an equal key. -/
def insertEntry (k : String) (v : Value) : List (String × Value) → List (String × Value)
  | [] => [(k, v)]
  | (k', v') :: rest =>
    if k < k' then (k, v) :: (k', v') :: rest
    else if k = k' then (k, v) :: rest
    else (k', v') :: insertEntry k v rest

/-- Sets `k` to `v`. -/
def insert (ps : Props) (k : String) (v : Value) : Props := ⟨insertEntry k v ps.entries⟩

/-- The value of `k`, if set. -/
def get? (ps : Props) (k : String) : Option Value := ps.entries.lookup k

/-- Whether `k` is set. -/
def contains (ps : Props) (k : String) : Bool := (ps.get? k).isSome

/-- Removes `k`. -/
def erase (ps : Props) (k : String) : Props := ⟨ps.entries.filter (fun e => e.1 != k)⟩

/-- The keys, sorted. -/
def keys (ps : Props) : List String := ps.entries.map (·.1)

/-- The number of keys. -/
def size (ps : Props) : Nat := ps.entries.length

def isEmpty (ps : Props) : Bool := ps.entries.isEmpty

/-- Builds a map from entries; a later entry of the same key wins. -/
def ofList (es : List (String × Value)) : Props := es.foldl (fun ps e => ps.insert e.1 e.2) {}

/-- Sets every entry of `other` over `ps`: the values of `other` win. -/
def extend (ps other : Props) : Props := other.entries.foldl (fun acc e => acc.insert e.1 e.2) ps

/-- Entry-wise equality, values compared with value equality. -/
def beq (a b : Props) : Bool :=
  a.entries.length == b.entries.length &&
    (a.entries.zip b.entries).all (fun (x, y) => x.1 == y.1 && x.2 == y.2)

instance : BEq Props := ⟨beq⟩

end Props

end GraphIngest
