import GraphIngest.Sql.Schema

/-!
# Which order a table's rows are read in

A query reading a single table, with no order of its own, may walk one of the table's indexes
instead of the table itself: when every column it uses is in the index, and the index is
estimated narrower than the table. The rows then come in the index's order, then by row id.

Widths are estimated from the declared types, since no statistics are kept, and compared on a
logarithmic scale (ten steps for each doubling), so that nearby widths count as equal. Among the
narrower indexes that hold what the query uses, the cheapest is walked, the first in check order
on a tie.
-/

namespace GraphIngest.Sql

/-! ## Estimated widths -/

/-- A size on the planner's logarithmic scale: about ten times its base-two logarithm, the
fraction of a doubling rounded down to the table of eighths `0, 2, 3, 5, 6, 7, 8, 9`. Sizes
below two count zero. -/
def logEstimate (x : Nat) : Nat :=
  let eighths : List Nat := [0, 2, 3, 5, 6, 7, 8, 9]
  if x < 2 then 0
  else if x < 4 then eighths.getD (x * 4 % 8) 0 + 10
  else if x < 8 then eighths.getD (x * 2 % 8) 0 + 20
  else
    let i := Nat.log2 x - 3
    eighths.getD (x / Nat.pow 2 i % 8) 0 + 30 + 10 * i

/-- The kind of value a declared type makes a column hold, as far as its width goes. -/
inductive TypeKind where
  | numeric
  | integer
  | real
  | text
  | blob
  deriving DecidableEq, Inhabited

/-- Reads a declared type (its bytes, lower-cased) as the affinity rules do (`Affinity.ofType`).
Gives the kind and, after `char` or `blob(`, the bytes where a size may be written. -/
def typeScan : List UInt8 → List UInt8 → TypeKind → Option (List UInt8) → TypeKind × Option (List UInt8)
  | [], _, kind, size => (kind, size)
  | b :: rest, recent, kind, size =>
    let recent := (recent ++ [b]).drop (recent.length + 1 - 4)
    let word (w : String) : Bool := recent == w.toUTF8.toList
    let lastThree := recent.drop (recent.length - 3)
    if word "char" then typeScan rest recent .text (some rest)
    else if word "clob" || word "text" then typeScan rest recent .text size
    else if word "blob" && (kind == .numeric || kind == .real) then
      typeScan rest recent .blob (if rest.head? == some 40 then some rest else size)
    else if (word "real" || word "floa" || word "doub") && kind == .numeric then
      typeScan rest recent .real size
    else if lastThree == "int".toUTF8.toList then (.integer, size)
    else typeScan rest recent kind size

/-- The number written at the first digit of some bytes, as a 32-bit signed integer; zero when
there is no digit or the number does not fit. -/
def firstNumber (bytes : List UInt8) : Nat :=
  let digits := (bytes.dropWhile fun b => b < 48 || b > 57).takeWhile fun b => 48 ≤ b && b ≤ 57
  let n := digits.foldl (fun n d => n * 10 + (d.toNat - 48)) 0
  if n > 2147483647 then 0 else n

/-- The width of a value of a column of a declared type, in units of about four bytes: one
without a type, and otherwise a quarter of the size the type gives plus one (at most 255); only
text and blob types give a size, the one written after `CHAR` or `BLOB(`, or sixteen. -/
def typeWidth (type : String) : Nat :=
  if type.isEmpty then 1
  else
    let bytes := type.toUTF8.toList.map fun b => if 65 ≤ b && b ≤ 90 then b + 32 else b
    let size := match typeScan bytes [] .numeric none with
      | (.text, some rest) | (.blob, some rest) => firstNumber rest
      | (.text, none) | (.blob, none) => 16
      | _ => 0
    min 255 (size / 4 + 1)

/-- The estimated width of a row of a table: its columns, and its row id when no column is it. -/
def Table.width (t : Table) : Nat :=
  (t.columns.map fun c => typeWidth c.type).foldr (· + ·) 0 + (if t.rowidColumn.isNone then 1 else 0)

/-- The estimated width of an entry of an index of a table: its columns and the row id. -/
def Table.indexWidth (t : Table) (idx : Index) : Nat :=
  (idx.columns.map fun i => typeWidth (t.column i).type).foldr (· + ·) 0 + 1

/-! ## The walk -/

/-- What a FROM clause binds, for telling a subquery's own names from those of the query around
it: each source's label, with the names of its columns when they are known. -/
def Relation.bindings (columnsOf : String → Option (List String)) :
    Relation → List (String × Option (List String))
  | .table _ name label _ => [(label.getD name, columnsOf name)]
  | .query _ label => [(label.getD "", none)]
  | .call name _ label _ => [(label.getD name, none)]
  | .join _ _ left right _ _ => left.bindings columnsOf ++ right.bindings columnsOf

/-- Whether a name read inside a select is one its own FROM clause binds: a qualified name when
a source has that label, a plain one when a source is known to have that column. -/
def boundBy (scopes : List (String × Option (List String))) : Option String × String → Bool
  | (some q, _) => scopes.any (sameName ·.1 q)
  | (none, n) => scopes.any fun s => (s.2.getD []).any (sameName · n)

def Core.bindings (columnsOf : String → Option (List String)) :
    Core → List (String × Option (List String))
  | .values _ => []
  | .select _ _ source _ _ _ _ => (source.map (Relation.bindings columnsOf)).getD []

/-- What the FROM clauses of selects combined by set operators bind. -/
def Compound.bindings (columnsOf : String → Option (List String)) :
    Nat → Compound → List (String × Option (List String))
  | 0, _ => []
  | _ + 1, .single core => Core.bindings columnsOf core
  | fuel + 1, .op _ left right => Compound.bindings columnsOf fuel left ++ Core.bindings columnsOf right

mutual

/-- The column names an expression reads from outside it, its subqueries included, each with the
table it is qualified by; a name a subquery binds itself is left out (`columnsOf` gives the
columns of a table by its name). -/
def Expr.deepRefs (columnsOf : String → Option (List String)) :
    Nat → Expr → List (Option String × String)
  | 0, _ => []
  | fuel + 1, e =>
    let go := Expr.deepRefs columnsOf fuel
    let terms (order : List OrderTerm) : List (Option String × String) :=
      order.flatMap fun | .mk e _ _ => go e
    match e with
    | .column t n _ _ => [(t, n)]
    | .unary _ a | .isNull _ a | .cast a _ | .collate a _ => go a
    | .inQuery _ a q => go a ++ Query.deepRefs columnsOf fuel q
    | .exists q | .scalar q => Query.deepRefs columnsOf fuel q
    | .binary _ a b | .is _ a b => go a ++ go b
    | .between _ a b c => go a ++ go b ++ go c
    | .inList _ a items => go a ++ items.flatMap go
    | .like _ _ a b esc => go a ++ go b ++ (esc.map go).getD []
    | .call _ args _ _ _ | .vector args => args.flatMap go
    | .case base arms other =>
      (base.map go).getD [] ++ arms.flatMap (fun (w, t) => go w ++ go t) ++ (other.map go).getD []
    | .windowed c filter w =>
      go c ++ (filter.map go).getD [] ++
        match w with
        | some (.mk _ _ partition order _ _) => partition.flatMap go ++ terms order
        | none => []
    | .sortedCall c order => go c ++ terms order
    | _ => []

def Query.deepRefs (columnsOf : String → Option (List String)) :
    Nat → Query → List (Option String × String)
  | 0, _ => []
  | fuel + 1, .mk ctes body order limit offset =>
    let own := (Compound.bindings columnsOf fuel body)
    ctes.flatMap (fun | .mk _ _ _ q => Query.deepRefs columnsOf fuel q) ++
      Compound.deepRefs columnsOf fuel body ++
      (order.flatMap (fun | .mk e _ _ => Expr.deepRefs columnsOf fuel e)).filter (!boundBy own ·) ++
      (limit.toList ++ offset.toList).flatMap (Expr.deepRefs columnsOf fuel)

/-- The column names selects combined by set operators read from outside them. -/
def Compound.deepRefs (columnsOf : String → Option (List String)) :
    Nat → Compound → List (Option String × String)
  | 0, _ => []
  | fuel + 1, .single core => Core.deepRefs columnsOf fuel core
  | fuel + 1, .op _ left right => Compound.deepRefs columnsOf fuel left ++ Core.deepRefs columnsOf fuel right

/-- The column names a select reads from outside it: those its own FROM clause does not bind. -/
def Core.deepRefs (columnsOf : String → Option (List String)) :
    Nat → Core → List (Option String × String)
  | 0, _ => []
  | fuel + 1, .values rows => rows.flatten.flatMap (Expr.deepRefs columnsOf fuel)
  | fuel + 1, core@(.select _ cols source filter groupBy having windows) =>
    let go := Expr.deepRefs columnsOf fuel
    let own := Core.bindings columnsOf core
    let refs := cols.flatMap (fun | .expr e _ => go e | _ => []) ++
      (source.map (Relation.deepRefs columnsOf fuel)).getD [] ++
      (filter.toList ++ groupBy ++ having.toList).flatMap go ++
      windows.flatMap fun (w : String × Window) =>
        match w.2 with
        | .mk _ _ partition order _ _ =>
          (partition ++ order.map (fun (t : OrderTerm) => match t with | .mk e _ _ => e)).flatMap go
    refs.filter (!boundBy own ·)

def Relation.deepRefs (columnsOf : String → Option (List String)) :
    Nat → Relation → List (Option String × String)
  | 0, _ => []
  | _ + 1, .table _ _ _ _ => []
  | fuel + 1, .query q _ => Query.deepRefs columnsOf fuel q
  | fuel + 1, .call _ args _ _ => args.flatMap (Expr.deepRefs columnsOf fuel)
  | fuel + 1, .join _ _ left right on _ =>
    Relation.deepRefs columnsOf fuel left ++ Relation.deepRefs columnsOf fuel right ++
      (on.map (Expr.deepRefs columnsOf fuel)).getD []

end

/-- The collation the `k`-th term of an index compares by. -/
def Index.collationAt (idx : Index) (t : Table) (k : Nat) : Collation :=
  match idx.collations[k]? with
  | some c => c
  | none => (t.column (idx.columns.getD k 0)).collation

/-- The index a query reading only the columns at `used` of a table (and its row id) walks
instead of the table: among the plain, complete indexes holding those columns and estimated
narrower than the table, the cheapest, the first on a tie. The cost of walking an index grows
with fifteen times its width over the table's, rounded down. -/
def Table.coveringIndex? (t : Table) (indexes : List Index) (used : List Nat) : Option Index :=
  let table := logEstimate (4 * t.width)
  let width (idx : Index) : Nat := logEstimate (4 * t.indexWidth idx)
  let holds (idx : Index) : Bool :=
    idx.expressions.isNone && idx.filter.isNone && width idx < table &&
      used.all fun i => idx.columns.contains i || t.rowidColumn == some i
  let cost (idx : Index) : Nat := 15 * width idx / table
  (indexes.filter holds).foldl (fun best idx =>
    match best with
    | some b => if cost idx < cost b then some idx else some b
    | none => some idx) none

/-- Whether a row of a table comes no later than another in the order of an index: by its terms
under their collations, a descending term reversed, then by row id. -/
def Table.indexLe (t : Table) (idx : Index) (a b : Int × List SqlValue) : Bool :=
  let terms := (idx.columns.zip (List.range idx.columns.length)).map fun (i, k) =>
    let o := (a.2.getD i .null).compareWith (idx.collationAt t k) (b.2.getD i .null)
    if idx.descending.getD k false then o.swap else o
  match terms.foldl (fun acc o => if acc == .eq then o else acc) .eq with
  | .lt => true
  | .gt => false
  | .eq => a.1 ≤ b.1

end GraphIngest.Sql
