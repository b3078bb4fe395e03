import GraphIngest.Cli.Grammar
import GraphIngest.Cli.Files
import GraphIngest.Convert.Run
import GraphIngest.Rules.Compile

/-!
# Running the command line

What one run of the program does on a file system, and what it prints.

`convert` reads the settings, the rules, the source and the graph store, checks the settings and
runs, stopping at the first step that fails. A fault in the settings or the rules exits with 2,
one of the source, the store or the run with 1. A failed run reports what was committed before it
stopped, and what was committed stays in the store. Opening the graph store runs its schema
script, whose work stays even when a later step fails.

`stats` counts the nodes (of a label) and relationships (of a type) of a graph store that must
exist. A run takes no measurable time: the elapsed seconds are printed as `0.0`.
-/

namespace GraphIngest

namespace Cli

/-- What a run of the program prints and its exit code; texts as lines. -/
structure Reply where
  code : Nat
  out : List String := []
  err : List String := []
  deriving Inhabited

def failing (code : Nat) (lines : List String) : Reply := { code, err := lines }

def Reply.ofStop : Stop → Reply
  | .show t => { code := 0, out := t.splitOn "\n" }
  | .refuse t => { code := 2, err := t.splitOn "\n" }

def defaultGraph : String := FileSystem.home ++ "/.local/share/rowgraph/graph.db"

/-- Reads a `--primary-key` override. -/
def primaryKey (spec : String) : Except String (String × List String) :=
  let refuse := s!"invalid primary key '{spec}', expected TABLE:COL[,COL]"
  match spec.splitOn ":" with
  | [] | [_] => .error refuse
  | table :: rest =>
    let columns := ((":".intercalate rest).splitOn ",").map trimWhite |>.filter (!·.isEmpty)
    if table.isEmpty || columns.isEmpty then .error refuse else .ok (table, columns)

/-- The settings: from the file given, or the defaults, overridden by the flags. -/
def settings (fs : FileSystem) (m : Matched) : Except String Config := do
  let base ← match valueOf m "config" with
    | some raw =>
      match fs.readText (FileSystem.resolve raw) with
      | .error e => .error s!"Invalid configuration: {raw}: {e}"
      | .ok text => (Config.ofYaml text).mapError (·.message)
    | none => pure Config.new
  let size (id : String) : Option Nat := (valueOf m id).bind fun v => (readSize v).toOption
  let c := base
  let c := match size "workers" with | some n => { c with workers := some n } | none => c
  let c := if flagOf m "serialize" then { c with serialize := true } else c
  let c := match size "batch_size" with | some n => { c with batchSize := n } | none => c
  let c := match size "flush_size" with | some n => { c with flushSize := n } | none => c
  let c := if flagOf m "adaptive" then { c with adaptiveFlush := true } else c
  let c := if flagOf m "isolated" then { c with workerMode := .isolated } else c
  return c

/-- The source of a conversion: the database at the path, with the tables and key overrides. -/
def source (fs : FileSystem) (raw : String) (tables : List String) (keys : List (String × List String)) :
    Except SourceError Source := do
  let db ← (fs.openTables (FileSystem.resolve raw) raw).mapError SourceError.database
  let keys := keys.foldl (fun acc (t, cs) => (t, cs) :: acc.filter (·.1 != t)) []
  Source.ofDatabase db { tables := if tables.isEmpty then none else some tables, primaryKeys := keys }

def phaseList (ps : List Phase) : String :=
  "[" ++ ", ".intercalate (ps.map fun p => match p with
    | .node => "Node"
    | .relationship => "Relationship") ++ "]"

/-- Runs `convert`. -/
def convertRun (fs : FileSystem) (m : Matched) : FileSystem × Reply :=
  match settings fs m with
  | .error e => (fs, failing 2 ["Error: " ++ e])
  | .ok config =>
    let rulesRaw := (valueOf m "rules").getD ""
    let rules : Except String RuleSet := match fs.readText (FileSystem.resolve rulesRaw) with
      | .error e => .error ("IO error: " ++ e)
      | .ok text => (RuleSet.ofYaml text).mapError (·.message)
    match rules with
    | .error e => (fs, failing 2 ["Error: failed to load rules: " ++ e])
    | .ok rules =>
      match (valuesOf m "primary_keys").mapM primaryKey with
      | .error e => (fs, failing 2 ["Error: " ++ e])
      | .ok keys =>
        match source fs ((valueOf m "source").getD "") (valuesOf m "tables") keys with
        | .error e => (fs, failing 1 ["Error: failed to open source: " ++ e.message])
        | .ok src =>
          let graphRaw := (valueOf m "graph").getD defaultGraph
          let graphPath := FileSystem.resolve graphRaw
          match fs.openGraph graphPath graphRaw with
          | (.error e, fs) => (fs, failing 1 ["Error: failed to open graph database: " ++ e.message])
          | (.ok store, fs) =>
            match config.validate with
            | .error e => (fs, failing 2 ["Error: " ++ e.message])
            | .ok _ =>
              let shared := FileSystem.resolve ((valueOf m "source").getD "") == graphPath
              let world : World TableGraph := { store, source := src, minted := fs.minted, sharesStore := shared }
              let r : Run TableGraph := { conv := { config, rules }, world }
              let options : RunOptions :=
                { skipNodes := flagOf m "skip_nodes", skipRelationships := flagOf m "skip_relationships" }
              let (r, res) := r.run options
              let fs := { fs.saveGraph graphPath r.world.store with minted := r.world.minted }
              let c := r.conv.counters
              match res with
              | .ok s =>
                (fs, { code := 0, out := [s!"Converted {s.counters.resourcesSeen} resources into " ++
                  s!"{s.counters.nodesCommitted} nodes and {s.counters.relsCommitted} relationships in 0.0s"] })
              | .error e =>
                (fs, failing 1 (["Error: " ++ e.message,
                  s!"Committed before abort: {c.resourcesSeen} resources, {c.nodesCommitted} nodes, " ++
                    s!"{c.relsCommitted} relationships"] ++
                  (if r.conv.completed.isEmpty then [] else ["Completed phases: " ++ phaseList r.conv.completed])))

/-- Runs `stats`. -/
def statsRun (fs : FileSystem) (m : Matched) : FileSystem × Reply :=
  let raw := (valueOf m "graph").getD defaultGraph
  let path := FileSystem.resolve raw
  if !fs.has path then (fs, failing 1 ["Error: no graph database at " ++ raw])
  else match fs.openGraph path raw with
    | (.error e, fs) => (fs, failing 1 ["Error: failed to open graph database: " ++ e.message])
    | (.ok store, fs) =>
      let counts : Except StorageError (Nat × Nat) := do
        return (← store.nodeCount (valueOf m "label"), ← store.relCount (valueOf m "rel_type"))
      match counts with
      | .ok (nodes, rels) => (fs, { code := 0, out := [s!"nodes: {nodes}", s!"relationships: {rels}"] })
      | .error e => (fs, failing 1 ["Error: " ++ e.message])

/-- Runs the program with the given arguments on a file system. -/
def run (fs : FileSystem) (args : List String) : FileSystem × Reply :=
  match parse args with
  | .error stop => (fs, Reply.ofStop stop)
  | .ok (.convert m) => convertRun fs m
  | .ok (.stats m) => statsRun fs m

end Cli

end GraphIngest
