/-!
# Faults of the database

What can go wrong in a statement, each with its message. Faults found while reading and checking
a statement may point at a token: their offset is the byte position of that token in the text of
the statement, and the script runner reports such faults together with that text. Faults raised
while running a statement (constraints, conversions) point at nothing.
-/

namespace GraphIngest.Sql

/-- What `RAISE` does: skip the row a trigger fires for, or stop the statement with a message
(ending the transaction, undoing the statement, or keeping what it did so far). -/
inductive RaiseAction where
  | ignore
  | rollback
  | abort
  | fail
  deriving DecidableEq, Inhabited

/-- A fault of a statement. -/
inductive SqlFault where
  | misplaced (near : String) (offset : Nat)
  | incomplete
  | unrecognized (token : String) (offset : Option Nat)
  | noSuchTable (name : String)
  | noSuchIndex (name : String)
  | noSuchView (name : String)
  | noSuchColumn (name : String) (offset : Option Nat)
  | ambiguousColumn (name : String) (offset : Option Nat)
  | noSuchFunction (name : String) (offset : Nat)
  | wrongArgumentCount (name : String) (offset : Nat)
  | misuseOfAggregate (name : String) (offset : Nat)
  /-- A window function where windows may not stand, or without a window. -/
  | misuseOfWindow (name : String) (offset : Nat)
  /-- A scalar function with a window. -/
  | notWindowFunction (name : String) (offset : Nat)
  /-- A scalar function with a `FILTER` clause. -/
  | filterOnScalar (name : String) (offset : Nat)
  /-- A scalar or window function with an `ORDER BY` among its arguments. -/
  | orderOnScalar (name : String) (offset : Nat)
  /-- `likelihood` whose second argument is not a decimal literal from 0.0 to 1.0. -/
  | badLikelihood (name : String) (offset : Nat)
  /-- Something a definition (a `CHECK` constraint, a generated column, an index) may not hold. -/
  | prohibited (what : String) (place : String) (offset : Option Nat)
  | alreadyExists (kind : String) (name : String) (offset : Option Nat)
  | tableNamedLikeIndex (name : String)
  | indexNamedLikeTable (name : String)
  | reservedName (name : String)
  | duplicateColumn (name : String)
  | morePrimaryKeys (table : String)
  | autoincrementWithoutIntegerKey
  | missingPrimaryKey (table : String)
  | unknownTableOption (option : String)
  | noColumnNamed (table : String) (column : String)
  | columnCount (table : String) (columns : Nat) (values : Nat)
  | valueCount (values : Nat) (columns : Nat)
  | rowSizes
  | selectColumnCount (op : String)
  | subqueryColumns (expected : Nat) (found : Nat)
  | rowValueMisused
  | defaultNotConstant (column : String)
  | hexTooBig (text : String) (offset : Nat)
  | notNull (table : String) (column : String)
  | unique (columns : List String)
  | check (name : String)
  | foreignKey
  | foreignKeyMismatch (child : String) (parent : String)
  | datatypeMismatch
  | integerOverflow
  | full
  | noTransaction (action : String)
  | nestedTransaction
  | cannotDropColumn (column : String) (reason : String)
  | tooBig
  | otherMessage (message : String)
  | unknownDatabase (name : String) (offset : Nat)
  | raised (action : RaiseAction) (message : String)
  | unknownJoinType (words : String) (offset : Nat)
  | tooDeep
  /-- A fault found in text kept apart from the statement (the body of a trigger), pointing at
  nothing in the statement. -/
  | detached (fault : SqlFault)
  deriving Inhabited

/-- The message of a fault, as the database words it. -/
def SqlFault.message : SqlFault → String
  | .misplaced near _ => "near \"" ++ near ++ "\": syntax error"
  | .incomplete => "incomplete input"
  | .unrecognized t _ => "unrecognized token: \"" ++ t ++ "\""
  | .noSuchTable n => "no such table: " ++ n
  | .noSuchIndex n => "no such index: " ++ n
  | .noSuchView n => "no such view: " ++ n
  | .noSuchColumn n _ => "no such column: " ++ n
  | .ambiguousColumn n _ => "ambiguous column name: " ++ n
  | .noSuchFunction n _ => "no such function: " ++ n
  | .wrongArgumentCount n _ => "wrong number of arguments to function " ++ n ++ "()"
  | .misuseOfAggregate n _ => "misuse of aggregate function " ++ n ++ "()"
  | .misuseOfWindow n _ => "misuse of window function " ++ n ++ "()"
  | .notWindowFunction n _ => n ++ "() may not be used as a window function"
  | .filterOnScalar n _ => "FILTER may not be used with non-aggregate " ++ n ++ "()"
  | .orderOnScalar n _ => "ORDER BY may not be used with non-aggregate " ++ n ++ "()"
  | .badLikelihood n _ => "second argument to " ++ n ++ "() must be a constant between 0.0 and 1.0"
  | .prohibited what place _ => what ++ " prohibited in " ++ place
  | .alreadyExists kind n _ => kind ++ " " ++ n ++ " already exists"
  | .tableNamedLikeIndex n => "there is already an index named " ++ n
  | .indexNamedLikeTable n => "there is already a table named " ++ n
  | .reservedName n => "object name reserved for internal use: " ++ n
  | .duplicateColumn n => "duplicate column name: " ++ n
  | .morePrimaryKeys t => "table \"" ++ t ++ "\" has more than one primary key"
  | .autoincrementWithoutIntegerKey => "AUTOINCREMENT is only allowed on an INTEGER PRIMARY KEY"
  | .missingPrimaryKey t => "PRIMARY KEY missing on table " ++ t
  | .unknownTableOption o => "unknown table option: " ++ o
  | .noColumnNamed t c => "table " ++ t ++ " has no column named " ++ c
  | .columnCount t c v => "table " ++ t ++ " has " ++ toString c ++ " columns but " ++ toString v ++ " values were supplied"
  | .valueCount v c => toString v ++ " values for " ++ toString c ++ " columns"
  | .rowSizes => "all VALUES must have the same number of terms"
  | .selectColumnCount op => "SELECTs to the left and right of " ++ op ++ " do not have the same number of result columns"
  | .subqueryColumns e f => "sub-select returns " ++ toString f ++ " columns - expected " ++ toString e
  | .rowValueMisused => "row value misused"
  | .defaultNotConstant c => "default value of column [" ++ c ++ "] is not constant"
  | .hexTooBig t _ => "hex literal too big: " ++ t
  | .notNull t c => "NOT NULL constraint failed: " ++ t ++ "." ++ c
  | .unique cs => "UNIQUE constraint failed: " ++ ", ".intercalate cs
  | .check n => "CHECK constraint failed: " ++ n
  | .foreignKey => "FOREIGN KEY constraint failed"
  | .foreignKeyMismatch c p => "foreign key mismatch - \"" ++ c ++ "\" referencing \"" ++ p ++ "\""
  | .datatypeMismatch => "datatype mismatch"
  | .integerOverflow => "integer overflow"
  | .full => "database or disk is full"
  | .noTransaction action => "cannot " ++ action ++ " - no transaction is active"
  | .nestedTransaction => "cannot start a transaction within a transaction"
  | .cannotDropColumn c reason => "cannot drop column \"" ++ c ++ "\": " ++ reason
  | .tooBig => "string or blob too big"
  | .otherMessage m => m
  | .unknownDatabase n _ => "unknown database " ++ n
  | .raised _ m => m
  | .unknownJoinType w _ => "unknown join type: " ++ w
  | .tooDeep => "parser stack overflow"
  | .detached f => f.message

/-- The byte offset, within its statement, of the token a fault points at. -/
def SqlFault.offset? : SqlFault → Option Nat
  | .misplaced _ o => some o
  | .unrecognized _ o => o
  | .noSuchColumn _ o => o
  | .ambiguousColumn _ o => o
  | .noSuchFunction _ o => some o
  | .wrongArgumentCount _ o => some o
  | .misuseOfAggregate _ o => some o
  | .misuseOfWindow _ o => some o
  | .notWindowFunction _ o => some o
  | .filterOnScalar _ o => some o
  | .orderOnScalar _ o => some o
  | .badLikelihood _ o => some o
  | .prohibited _ _ o => o
  | .alreadyExists _ _ o => o
  | .hexTooBig _ o => some o
  | .unknownDatabase _ o => some o
  | .unknownJoinType _ o => some o
  | _ => none

/-- The fault with the offset it points at, if any, moved by a function. -/
def SqlFault.moveOffset (g : Nat → Nat) : SqlFault → SqlFault
  | .misplaced n o => .misplaced n (g o)
  | .unrecognized t o => .unrecognized t (o.map g)
  | .noSuchColumn n o => .noSuchColumn n (o.map g)
  | .ambiguousColumn n o => .ambiguousColumn n (o.map g)
  | .noSuchFunction n o => .noSuchFunction n (g o)
  | .wrongArgumentCount n o => .wrongArgumentCount n (g o)
  | .misuseOfAggregate n o => .misuseOfAggregate n (g o)
  | .misuseOfWindow n o => .misuseOfWindow n (g o)
  | .notWindowFunction n o => .notWindowFunction n (g o)
  | .filterOnScalar n o => .filterOnScalar n (g o)
  | .orderOnScalar n o => .orderOnScalar n (g o)
  | .badLikelihood n o => .badLikelihood n (g o)
  | .prohibited w p o => .prohibited w p (o.map g)
  | .alreadyExists k n o => .alreadyExists k n (o.map g)
  | .hexTooBig t o => .hexTooBig t (g o)
  | .unknownDatabase n o => .unknownDatabase n (g o)
  | .unknownJoinType w o => .unknownJoinType w (g o)
  | f => f

end GraphIngest.Sql
