import GraphIngest.Store.Tables

/-!
# Files

The files a command line works on: texts, databases and directories, by path. Paths are read from
the working directory, which arguments and messages write as `{dir}`; a path outside it holds
nothing until written. Opening a file reports what the system would. An empty text is an empty
database, and a database without tables reads as an empty text.
-/

namespace GraphIngest

/-- What a path holds. -/
inductive Entry where
  | text (content : String)
  | database (tables : Sql.Database)
  | directory
  deriving Inhabited

/-- A file system: what each path holds, and how many handles conversions on it have minted, so
that every run mints new ones. -/
structure FileSystem where
  entries : List (List String × Entry) := []
  minted : Nat := 0
  deriving Inhabited

namespace FileSystem

/-- The working directory as arguments and messages write it. -/
def home : String := "\x7bdir\x7d"

/-- Adds the parts of a path to a path, reading `.` as staying and `..` as climbing. -/
def walk (base : List String) (parts : List String) : List String :=
  (parts.foldl (fun acc part =>
    if part.isEmpty || part == "." then acc
    else if part == ".." then
      match acc with
      | [] | ["/"] => acc ++ [".."]
      | _ => if acc.getLast? == some ".." then acc ++ [".."] else acc.dropLast
    else acc ++ [part]) base)

/-- The names of a path: from the working directory, or behind `/` for a path outside it. -/
def resolve (raw : String) : List String :=
  if raw.startsWith home then walk [] ((raw.drop home.length).toString.splitOn "/")
  else if raw.startsWith "/" then walk ["/"] (raw.splitOn "/")
  else walk [] (raw.splitOn "/")

/-- What a path holds; the working directory, and a directory holding something, are
directories. -/
def lookup (fs : FileSystem) (path : List String) : Option Entry :=
  if path.isEmpty then some .directory
  else match fs.entries.lookup path with
    | some e => some e
    | none =>
      if fs.entries.any fun (p, _) => path.isPrefixOf p && p.length > path.length then some .directory
      else none

/-- Whether the path is a file, not a directory. -/
def isFile (fs : FileSystem) (path : List String) : Bool :=
  match fs.lookup path with
  | some (.text _) | some (.database _) => true
  | _ => false

def blocked (fs : FileSystem) (path : List String) : Bool :=
  (List.range path.length).any fun n => n > 0 && fs.isFile (path.take n)

/-- Whether something is at the path. -/
def has (fs : FileSystem) (path : List String) : Bool := !fs.blocked path && (fs.lookup path).isSome

/-- Puts an entry at a path. -/
def put (fs : FileSystem) (path : List String) (e : Entry) : FileSystem :=
  { fs with entries := setAssoc path e fs.entries }

/-- The text of a file, or the fault of reading it. -/
def readText (fs : FileSystem) (path : List String) : Except String String :=
  if fs.blocked path then .error "Not a directory (os error 20)"
  else match fs.lookup path with
    | none => .error "No such file or directory (os error 2)"
    | some .directory => .error "Is a directory (os error 21)"
    | some (.text s) => .ok s
    | some (.database db) =>
      if db.contents.tables.isEmpty then .ok "" else .error "stream did not contain valid UTF-8"

/-- The tables of a database opened for reading; `raw` is the path as given. A directory can be
opened for reading, so it fails only when its first bytes are read, as an I/O fault. -/
def openTables (fs : FileSystem) (path : List String) (raw : String) : Except String Sql.Database :=
  if fs.blocked path then .error ("unable to open database file: " ++ raw)
  else match fs.lookup path with
    | none => .error ("unable to open database file: " ++ raw)
    | some .directory => .error "disk I/O error"
    | some (.text s) => if s.isEmpty then .ok {} else .error "file is not a database"
    | some (.database db) => .ok db

/-- Creates the directories on the way to a path, as far as they are missing. -/
def makeParents (fs : FileSystem) (path : List String) : Except String FileSystem :=
  let parent := path.dropLast
  if parent.isEmpty then .ok fs
  else if fs.isFile parent then .error "File exists (os error 17)"
  else if fs.blocked parent then .error "Not a directory (os error 20)"
  else .ok ((List.range parent.length).foldl (fun fs n =>
    let p := parent.take (n + 1)
    if (fs.lookup p).isSome then fs else fs.put p .directory) fs)

/-- Opens the graph store kept in the database at a path, creating the file and its directories
when missing: the store, or the fault that prevents it, and the file system with what the opening
created (the tables the schema script made before a fault stay). -/
def openGraph (fs : FileSystem) (path : List String) (raw : String) :
    Except StorageError TableGraph × FileSystem :=
  match fs.makeParents path with
  | .error e => (.error (.io e), fs)
  | .ok fs =>
    let db : Except StorageError Sql.Database := match fs.lookup path with
      | some .directory => .error (.database ("unable to open database file: " ++ raw))
      | some (.text s) => if s.isEmpty then .ok {} else .error (.database "file is not a database")
      | some (.database db) => .ok db
      | none => .ok {}
    match db with
    | .error e => (.error e, fs)
    | .ok db =>
      let (db', store) := TableGraph.ofDatabase db
      (store, fs.put path (.database db'.close))

def saveGraph (fs : FileSystem) (path : List String) (t : TableGraph) : FileSystem :=
  fs.put path (.database t.db.close)

end FileSystem

end GraphIngest
