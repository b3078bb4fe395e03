import GraphIngest.Number.Text

/-!
# Property values

The values a node, a relationship or a record field can hold. Two values are equal when they have
the same kind and equal contents, doubles compared the IEEE way (a NaN equals nothing), so an
integer never equals a double.
-/

namespace GraphIngest

/-- A property value. Integers stay within the signed 64-bit range. -/
inductive Value where
  | null
  | bool (b : Bool)
  | int (i : Int)
  | float (x : Float)
  | str (s : String)
  | array (items : List Value)
  deriving Inhabited

namespace Value

/-- Equality of values: same kind, equal contents, doubles compared the IEEE way. -/
def beq : Value → Value → Bool
  | .null, .null => true
  | .bool a, .bool b => a == b
  | .int a, .int b => a == b
  | .float a, .float b => Binary64.eq a b
  | .str a, .str b => a == b
  | .array xs, .array ys => beqList xs ys
  | _, _ => false
where
  /-- Item-wise equality of two lists of values. -/
  beqList : List Value → List Value → Bool
    | [], [] => true
    | x :: xs, y :: ys => beq x y && beqList xs ys
    | _, _ => false

instance : BEq Value := ⟨beq⟩

def display : Value → String
  | .null => "null"
  | .bool b => if b then "true" else "false"
  | .int i => toString i
  | .float x => FloatText.plain x
  | .str s => s
  | .array items => "[" ++ displayList items ++ "]"
where
  /-- The items' display texts joined by commas. -/
  displayList : List Value → String
    | [] => ""
    | [x] => display x
    | x :: xs => display x ++ "," ++ displayList xs

def isNull : Value → Bool
  | .null => true
  | _ => false

/-- The string held, if the value is a string. -/
def asStr? : Value → Option String
  | .str s => some s
  | _ => none

/-- The integer held, if the value is an integer. -/
def asInt? : Value → Option Int
  | .int i => some i
  | _ => none

def hasNaN : Value → Bool
  | .float x => Binary64.isNaN x
  | .array items => hasNaNList items
  | _ => false
where
  /-- Whether some item is or contains a NaN double. -/
  hasNaNList : List Value → Bool
    | [] => false
    | x :: xs => hasNaN x || hasNaNList xs

end Value

end GraphIngest
