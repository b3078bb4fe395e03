import GraphIngest.Sql.Frame

/-!
# Window functions

A window function gives each result row a value computed from the rows of its partition, sorted
(stably) by the window's order. Ranking functions and `lag`/`lead` look at the row's place in its
partition; the others look at the rows of the row's frame, which the frame clause cuts out of the
partition around the row. Without a frame clause the frame runs from the start of the partition
to the last peer of the row.
-/

namespace GraphIngest.Sql

/-- What one row brings to one window function: its values of the partition terms and of the
order terms, the values of the call's arguments, and whether the call's `FILTER` holds for it. -/
structure WindowRow where
  partition : List SqlValue
  order : List SqlValue
  args : List Json.Tagged
  counted : Bool := true
  deriving Inhabited

/-- A bound of a frame, its offset evaluated. -/
inductive FrameEdge where
  | unboundedPreceding
  | preceding (offset : SqlValue)
  | currentRow
  | following (offset : SqlValue)
  | unboundedFollowing
  deriving Inhabited

/-- A window function call ready to be computed: its name (ASCII letters folded), whether it was
written with `*`, the collations of the partition terms, the sort keys of the order terms, and
its frame. -/
structure WindowCall where
  name : String
  star : Bool := false
  partition : List Collation := []
  order : List SortKey := []
  unit : FrameUnit := .range
  start : FrameEdge := .unboundedPreceding
  finish : FrameEdge := .currentRow
  exclude : FrameExclude := .noOthers
  deriving Inhabited

/-- The argument counts of the functions that only stand over a window. -/
def windowArity (name : String) : Option (Nat × Nat) :=
  match name with
  | "row_number" | "rank" | "dense_rank" | "percent_rank" | "cume_dist" => some (0, 0)
  | "ntile" | "first_value" | "last_value" => some (1, 1)
  | "nth_value" => some (2, 2)
  | "lag" | "lead" => some (1, 3)
  | _ => none

/-- Whether a function computes its value from the row's place in the partition, whatever the
frame clause says. -/
def placeFunction (name : String) : Bool :=
  ["row_number", "rank", "dense_rank", "percent_rank", "cume_dist", "ntile", "lag",
    "lead"].contains name

namespace WindowCall

/-- Order of two rows in the window: by partition, then by the order terms. -/
def compareRows (call : WindowCall) (a b : WindowRow) : Ordering :=
  match compareKeys (call.partition.map fun c => { collation := c }) a.partition b.partition with
  | .eq => compareKeys call.order a.order b.order
  | o => o

def samePartition (call : WindowCall) (a b : WindowRow) : Bool :=
  compareKeys (call.partition.map fun c => { collation := c }) a.partition b.partition == .eq

/-- Whether two rows are peers: equal in every order term. -/
def peers (call : WindowCall) (a b : WindowRow) : Bool :=
  compareKeys call.order a.order b.order == .eq

end WindowCall

/-- An offset of a frame counted in rows or groups: a value that is an integer without loss, not
below zero. -/
def countOffset (v : SqlValue) : Option Nat :=
  match v.withAffinity .numeric with
  | .int i => if i ≥ 0 then some i.toNat else none
  | _ => none

/-- An offset of a frame counted in order values: a number, not below zero. -/
def distanceOffset (v : SqlValue) : Option SqlValue :=
  match v.withAffinity .numeric with
  | .int i => if i ≥ 0 then some (.int i) else none
  | .real x => if x ≥ 0.0 then some (.real x) else none
  | _ => none

/-- The place of each row of a partition among its peer groups: the group of each position, and
the first and last position of each group. -/
structure PeerGroups where
  groupOf : Array Nat
  firsts : Array Nat
  lasts : Array Nat
  deriving Inhabited

/-- The peer groups of a partition, given the sizes of its runs of peers. -/
def PeerGroups.ofSizes (sizes : List Nat) : PeerGroups :=
  let (_, firsts, lasts, groupOf) := sizes.foldl (fun (pos, firsts, lasts, groupOf) size =>
      let g := firsts.size
      (pos + size, firsts.push pos, lasts.push (pos + size - 1),
        groupOf ++ Array.replicate size g)) (0, #[], #[], #[])
  { groupOf, firsts, lasts }

/-- The frame of the row at a position of a partition of `n` rows, as the positions it holds:
`orderOf` gives the order values of a position, for a frame counted by distance. -/
def frameAt (call : WindowCall) (groups : PeerGroups) (n : Nat) (orderOf : Nat → List SqlValue)
    (start finish : FrameEdge) (p : Nat) : List Nat :=
  let g := groups.groupOf.getD p 0
  let count := groups.firsts.size
  let first := groups.firsts.getD g p
  let last := groups.lasts.getD g p
  let s : Int := match call.unit, start with
    | _, .unboundedPreceding => 0
    | _, .unboundedFollowing => n
    | .rows, .currentRow => p
    | _, .currentRow => first
    | .rows, .preceding k => max 0 ((p : Int) - ((countOffset k).getD 0 : Int))
    | .rows, .following k => p + (countOffset k).getD 0
    | .groups, .preceding k => groups.firsts.getD (g - (countOffset k).getD 0) 0
    | .groups, .following k =>
      let h := g + (countOffset k).getD 0
      if h < count then groups.firsts.getD h n else n
    | .range, .preceding k => distanceStart true k p first
    | .range, .following k => distanceStart false k p first
  let e : Int := match call.unit, finish with
    | _, .unboundedFollowing => (n : Int) - 1
    | _, .unboundedPreceding => -1
    | .rows, .currentRow => p
    | _, .currentRow => last
    | .rows, .preceding k => (p : Int) - ((countOffset k).getD 0 : Int)
    | .rows, .following k => min ((n : Int) - 1) (p + (countOffset k).getD 0)
    | .groups, .preceding k =>
      let back := (countOffset k).getD 0
      if back ≤ g then groups.lasts.getD (g - back) 0 else -1
    | .groups, .following k =>
      let h := g + (countOffset k).getD 0
      if h < count then groups.lasts.getD h last else (n : Int) - 1
    | .range, .preceding k => distanceFinish true k p last
    | .range, .following k => distanceFinish false k p last
  let held := (List.range n).filter fun (q : Nat) => s ≤ (q : Int) && (q : Int) ≤ e
  match call.exclude with
  | .noOthers => held
  | .currentRow => held.filter (· != p)
  | .group => held.filter fun q => q < first || q > last
  | .ties => held.filter fun q => q == p || q < first || q > last
where
  /-- The order value a bound at distance `k` before (or after) the row's own reaches; none when
  the row's value is not a number (its peers then bound the frame). -/
  target (back : Bool) (k : SqlValue) (p : Nat) : Option (SqlValue × SortKey) :=
    let key := call.order.headD {}
    match (orderOf p).headD .null, distanceOffset k with
    | .int x, some d => some (arith (if back != key.descending then .sub else .add) (.int x) d, key)
    | .real x, some d => some (arith (if back != key.descending then .sub else .add) (.real x) d, key)
    | _, _ => none
  /-- The first position whose order value is not before the target. -/
  distanceStart (back : Bool) (k : SqlValue) (p first : Nat) : Int :=
    match target back k p with
    | none => first
    | some (t, key) =>
      (((List.range n).find? fun q => key.compare ((orderOf q).headD .null) t != .lt).getD n : Nat)
  /-- The last position whose order value is not after the target. -/
  distanceFinish (back : Bool) (k : SqlValue) (p last : Nat) : Int :=
    match target back k p with
    | none => last
    | some (t, key) =>
      match ((List.range n).filter fun q => key.compare ((orderOf q).headD .null) t != .gt).getLast? with
      | some q => q
      | none => -1

/-- The fault of a frame offset that is not of the kind its frame counts in. -/
def offsetFault (call : WindowCall) (starting : Bool) : SqlFault :=
  .otherMessage ("frame " ++ (if starting then "starting" else "ending") ++
    " offset must be a non-negative " ++ (if call.unit == .range then "number" else "integer"))

/-- Checks the offsets of a frame, the starting one first. -/
def checkOffsets (call : WindowCall) : Except SqlFault Unit := do
  let ok (v : SqlValue) : Bool :=
    if call.unit == .range then (distanceOffset v).isSome else (countOffset v).isSome
  match call.start with
  | .preceding k | .following k => if !ok k then throw (offsetFault call true)
  | _ => pure ()
  match call.finish with
  | .preceding k | .following k => if !ok k then throw (offsetFault call false)
  | _ => pure ()

/-- The value `nth_value` takes as its place: a positive integer, a real without a fraction
counting as one. -/
def nthPlace (v : SqlValue) : Except SqlFault Nat :=
  let bad := SqlFault.otherMessage "second argument to nth_value must be a positive integer"
  match v.asNumber with
  | .int i => if i > 0 then .ok i.toNat else .error bad
  | .real x =>
    let i := realToInt x
    if intToReal i == x && i > 0 then .ok i.toNat else .error bad
  | _ => .error bad

/-- The bucket `ntile` puts the row at a position into, of `buckets` buckets over `n` rows: the
first `n % buckets` buckets take one row more than the others. -/
def ntileBucket (buckets n p : Nat) : Nat :=
  let size := n / buckets
  if size == 0 then p + 1
  else
    let large := n - buckets * size
    let small := large * (size + 1)
    if p < small then 1 + p / (size + 1) else 1 + large + (p - small) / size

/-- The value of a window function at the row at position `p` of a partition (`part` holds the
rows of the partition in order). -/
def WindowCall.valueAt (call : WindowCall) (part : Array WindowRow) (groups : PeerGroups)
    (p : Nat) : Except SqlFault SqlValue := do
  let n := part.size
  let row := part.getD p default
  let arg (r : WindowRow) (i : Nat) : SqlValue := (r.args.getD i {}).value
  let g := groups.groupOf.getD p 0
  let first := groups.firsts.getD g p
  let last := groups.lasts.getD g p
  match call.name with
  | "row_number" => pure (.int (p + 1))
  | "rank" => pure (.int (first + 1))
  | "dense_rank" => pure (.int (g + 1))
  | "percent_rank" =>
    pure (.real (if n ≤ 1 then 0.0 else intToReal first / intToReal (n - 1)))
  | "cume_dist" => pure (.real (intToReal (last + 1) / intToReal n))
  | "ntile" =>
    let buckets := (arg (part.getD 0 default) 0).toInt
    if buckets ≤ 0 then throw (.otherMessage "argument of ntile must be a positive integer")
    pure (.int (ntileBucket buckets.toNat n p))
  | "lag" | "lead" =>
    let offset := if row.args.length ≥ 2 then arg row 1 else .int 1
    let place := arith (if call.name == "lag" then .sub else .add) (.int (p + 1)) offset
    let fallback := arg row 2
    match place.withAffinity .numeric with
    | .int i => if 1 ≤ i && i ≤ n then pure (arg (part.getD (i.toNat - 1) default) 0) else pure fallback
    | _ => pure fallback
  | _ =>
    let frame := frameAt call groups n (fun q => (part.getD q default).order) call.start call.finish p
    let rows := frame.map fun q => part.getD q default
    match call.name with
    | "first_value" => pure ((rows.head?.map (arg · 0)).getD .null)
    | "last_value" => pure ((rows.getLast?.map (arg · 0)).getD .null)
    | "nth_value" =>
      if rows.isEmpty then pure .null
      else do
        let k ← nthPlace (arg row 1)
        pure ((rows[k - 1]?.map (arg · 0)).getD .null)
    | name =>
      let counted := (rows.filter (·.counted)).map (·.args)
      if Json.givesJson name then do
        let v ← Json.aggregate name counted
        pure v.value
      else applyAggregate name call.star false (counted.map (·.map (·.value)))

/-! ## Window calls in expressions -/

/-- The window function calls of an expression, outside subqueries and outside the arguments of
other window calls, in the order they are written. -/
def windowCalls : Nat → Expr → List Expr
  | 0, _ => []
  | fuel + 1, e =>
    match e with
    | .windowed _ _ (some _) => [e]
    | .windowed c _ none | .sortedCall c _ => windowCalls fuel c
    | .call _ args _ _ _ => args.flatMap (windowCalls fuel)
    | .unary _ a | .isNull _ a | .cast a _ | .collate a _ | .inQuery _ a _ => windowCalls fuel a
    | .binary _ a b | .is _ a b => windowCalls fuel a ++ windowCalls fuel b
    | .between _ a b c => windowCalls fuel a ++ windowCalls fuel b ++ windowCalls fuel c
    | .inList _ a items => windowCalls fuel a ++ items.flatMap (windowCalls fuel)
    | .like _ _ a b esc =>
      windowCalls fuel a ++ windowCalls fuel b ++ (esc.map (windowCalls fuel)).getD []
    | .case base arms other =>
      (base.map (windowCalls fuel)).getD [] ++ arms.flatMap (fun (w, t) => windowCalls fuel w ++
        windowCalls fuel t) ++ (other.map (windowCalls fuel)).getD []
    | .vector items => items.flatMap (windowCalls fuel)
    | _ => []

/-- Whether a frame offset is constant: it reads no column and runs no subquery. An offset that
is not constant counts as null. -/
def constantOffset : Nat → Expr → Bool
  | 0, _ => false
  | fuel + 1, e =>
    match e with
    | .column none name false _ => sameName name "true" || sameName name "false"
    | .column _ _ _ _ | .exists _ | .scalar _ | .inQuery _ _ _ | .windowed _ _ _
    | .sortedCall _ _ => false
    | .unary _ a | .isNull _ a | .cast a _ | .collate a _ => constantOffset fuel a
    | .binary _ a b | .is _ a b => constantOffset fuel a && constantOffset fuel b
    | .between _ a b c => constantOffset fuel a && constantOffset fuel b && constantOffset fuel c
    | .inList _ a items => constantOffset fuel a && items.all (constantOffset fuel)
    | .like _ _ a b esc =>
      constantOffset fuel a && constantOffset fuel b && (esc.map (constantOffset fuel)).getD true
    | .call _ args _ _ _ => args.all (constantOffset fuel)
    | .case base arms other =>
      (base.map (constantOffset fuel)).getD true &&
        arms.all (fun (w, t) => constantOffset fuel w && constantOffset fuel t) &&
        (other.map (constantOffset fuel)).getD true
    | .vector items => items.all (constantOffset fuel)
    | _ => true

/-- Checks a call written with a window or a `FILTER` clause against the functions there are:
a scalar function takes neither, a function that only stands over a window needs one, and the
name and the number of arguments must be known. -/
def checkCall (name : String) (args : Nat) (star : Bool) (windowed filter : Bool) (offset : Nat) :
    Except SqlFault Unit :=
  let lname := name.map foldAscii
  let n := if star then 0 else args
  let aggregate := isAggregateCall lname args star
  let window := match windowArity lname with
    | some (lo, hi) => lo ≤ n && n ≤ hi
    | none => false
  let scalar := match scalarArity lname with
    | some (lo, hi) => lo ≤ n && (hi.map fun h => decide (n ≤ h)).getD true && !star
    | none => false
  let known := (aggregateArity lname).isSome || (windowArity lname).isSome ||
    (scalarArity lname).isSome
  if windowed && scalar && !aggregate && !window then .error (.notWindowFunction name offset)
  else if window && !windowed then .error (.misuseOfWindow name offset)
  else if !known then .error (.noSuchFunction name offset)
  else if !aggregate && !window && !scalar then .error (.wrongArgumentCount name offset)
  else if filter && !aggregate && !window then .error (.filterOnScalar name offset)
  else .ok ()

/-! ## Named windows -/

def findWindow (defs : List (String × Window)) (name : String) : Except SqlFault Window :=
  match (defs.reverse.find? fun (n, _) => sameName n name) with
  | some (_, w) => .ok w
  | none => .error (.otherMessage ("no such window: " ++ name))

/-- A window with the named window it builds on filled in: `OVER name` is that window; a window
that names one takes its partition and order, and may add an order of its own, but may not give
a partition, an order where it has one, nor build on a window with a frame clause. -/
def resolveWindow (defs : List (String × Window)) : Window → Except SqlFault Window
  | .mk none _ partition orderBy frame text => .ok (.mk none false partition orderBy frame text)
  | .mk (some b) true _ _ _ _ => findWindow defs b
  | .mk (some b) false partition orderBy frame text => do
    let .mk _ _ bPartition bOrder bFrame bText ← findWindow defs b
    let overridden :=
      if !partition.isEmpty then some "PARTITION clause"
      else if !bOrder.isEmpty && !orderBy.isEmpty then some "ORDER BY clause"
      else if bFrame.isSome then some "frame specification"
      else none
    match overridden with
    | some what => throw (.otherMessage ("cannot override " ++ what ++ " of window: " ++ b))
    | none => pure (.mk none false bPartition (if orderBy.isEmpty then bOrder else orderBy) frame
        (bText ++ " " ++ text))

/-- The windows of a `WINDOW` clause, each resolved against the ones defined before it. -/
def resolveDefinitions (defs : List (String × Window)) : Except SqlFault (List (String × Window)) :=
  defs.foldlM (fun done (n, w) => do
    let w ← resolveWindow done w
    pure (done ++ [(n, w)])) []

/-- What sets a call's window apart from another's: its text, and the frame it computes over
(functions of the row's place have frames of their own). Calls whose windows are alike are
sorted together. -/
def windowIdentity (name : String) (w : Window) : String :=
  let .mk _ _ _ _ _ text := w
  let frame := match name with
    | "row_number" | "lag" => "rows to current"
    | "rank" | "dense_rank" => "range to current"
    | "percent_rank" => "groups from current"
    | "cume_dist" => "groups from next"
    | "ntile" => "rows from current"
    | "lead" => "rows all"
    | _ => "as written"
  text ++ "|" ++ frame

/-! ## Values -/

/-- The values of a window function at every row (by index into `rows`), and the rows in the
order the window sorts them: by partition, then by its order, equal rows keeping the order of
`sequence`. -/
def WindowCall.values (call : WindowCall) (rows : Array WindowRow) (sequence : List Nat) :
    Except SqlFault (List (Nat × SqlValue) × List Nat) := do
  let sorted := sequence.mergeSort fun a b =>
    call.compareRows (rows.getD a default) (rows.getD b default) != .gt
  let partitions := sorted.splitBy fun a b => call.samePartition (rows.getD a default) (rows.getD b default)
  let values ← partitions.mapM fun members => do
    let part := (members.map fun i => rows.getD i default).toArray
    let runs := members.splitBy fun a b => call.peers (rows.getD a default) (rows.getD b default)
    let groups := PeerGroups.ofSizes (runs.map (·.length))
    if !placeFunction call.name then checkOffsets call
    (members.zipIdx).mapM fun (i, p) => do
      let v ← call.valueAt part groups p
      pure (i, v)
  pure (values.flatten, sorted)

end GraphIngest.Sql
