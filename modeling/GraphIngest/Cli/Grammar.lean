import GraphIngest.Record

/-!
# The command-line grammar

The program's command line: a root command with the subcommands `convert`, `stats` and `help`,
its options, help and version texts, and the faults of a command line that does not fit, each
with the text and exit code the program gives.

The value of an option is taken when the next option or the end of the line is reached, so a
value is only checked then, and an unknown option found before that is reported first. Fault
texts name the candidate whose Jaro similarity to the unknown name is highest, above 0.7.

A fault's usage line is the full one when nothing was read; otherwise it lists, after the command,
the required options and those already read.
-/

namespace GraphIngest

namespace Cli

/-- What an option takes. -/
inductive Takes where
  | flag
  | counted
  | help
  | version
  | path
  | text
  | size
  | list (split : Bool)
  deriving DecidableEq, Inhabited

/-- An option: the field it sets, its names, the name of its value, what it takes, its help
text, and whether it is required. -/
structure Opt where
  id : String
  long : String
  short : Option Char := none
  value : String := ""
  takes : Takes
  help : String := ""
  required : Bool := false
  deriving Inhabited

namespace Opt

def takesValue (o : Opt) : Bool :=
  match o.takes with
  | .path | .text | .size | .list _ => true
  | _ => false

/-- The option as fault texts and usage lines write it: `--source <SOURCE>`, `--serialize`,
`--verbose...`. -/
def spec (o : Opt) : String :=
  "--" ++ o.long ++
    (if o.takesValue then " <" ++ o.value ++ ">" else if o.takes == .counted then "..." else "")

/-- The option as its help line writes it, with its short name. -/
def helpSpec (o : Opt) : String :=
  (match o.short with
    | some c => "-" ++ String.singleton c ++ ", "
    | none => "    ") ++ o.spec

end Opt

/-- The counted verbosity flag, shared by every command. -/
def verbose : Opt :=
  { id := "verbose", long := "verbose", short := some 'v', takes := .counted,
    help := "More output (-v debug, -vv trace)" }

def helpFlag : Opt := { id := "help", long := "help", short := some 'h', takes := .help, help := "Print help" }

def versionFlag : Opt :=
  { id := "version", long := "version", short := some 'V', takes := .version, help := "Print version" }

/-- The options read: for each, in the order they were taken, its values. -/
abbrev Matched := List (String × List String)

/-- A subcommand: its name, what it does, and its own options in the order it declares them. -/
structure Command where
  name : String
  about : String
  own : List Opt
  deriving Inhabited

namespace Command

/-- The options of a subcommand in the order its help lists them: the first own option, the
verbosity flag, the other own options, and the help flag. -/
def options (c : Command) : List Opt := c.own.take 1 ++ [verbose] ++ c.own.drop 1 ++ [helpFlag]

/-- The options a fault may suggest, in the order they are searched. -/
def candidates (c : Command) : List Opt := c.own ++ [verbose, helpFlag]

/-- The full usage line: the command, `[OPTIONS]` when some option is not required, and the
required options. -/
def usage (c : Command) : String :=
  let required := c.own.filter (·.required)
  " ".intercalate (["rowgraph", c.name] ++
    (if c.options.any (!·.required) then ["[OPTIONS]"] else []) ++ required.map (·.spec))

/-- The usage line after some options were read: the required options, then the options read,
each once; the full usage line when none was read. -/
def usageAfter (c : Command) (used : List String) : String :=
  if used.isEmpty then c.usage
  else
    let ids := (c.own.filter (·.required)).map (·.id) ++ used
    let ids := ids.foldl (fun acc i => if acc.contains i then acc else acc ++ [i]) []
    let specs := ids.filterMap fun i => (c.options.find? (·.id == i)).map (·.spec)
    " ".intercalate (["rowgraph", c.name] ++ specs)

/-- The group of the subcommand's own options, as usage lines write it:
`<--source <SOURCE>|--tables <TABLES>|...>`. -/
def groupSpec (c : Command) : String := "<" ++ "|".intercalate (c.own.map (·.spec)) ++ ">"

/-- The usage line of a fault about a value given to a flag `o`: the required options, the
options taken so far, and `o`; once any own option was taken, the group of all own options
stands after them in place of its members. -/
def usageWithValue (c : Command) (m : Matched) (o : Opt) : String :=
  let own := c.own.map (·.id)
  let grouped := m.any fun (i, _) => own.contains i
  let ids := (c.own.filter (·.required)).map (·.id) ++ m.map (·.1) ++ [o.id]
  let ids := ids.foldl (fun acc i => if acc.contains i then acc else acc ++ [i]) []
  let ids := if grouped then ids.filter (!own.contains ·) else ids
  let specs := ids.filterMap fun i => (c.options.find? (·.id == i)).map (·.spec)
  " ".intercalate (["rowgraph", c.name] ++ specs ++ (if grouped then [c.groupSpec] else []))

def helpText (c : Command) : String :=
  let lefts := c.options.map (·.helpSpec)
  let width := lefts.foldl (fun m s => max m s.length) 0
  let lines := c.options.map fun o =>
    "  " ++ o.helpSpec ++ String.ofList (List.replicate (width - o.helpSpec.length + 2) ' ') ++ o.help
  c.about ++ "\n\nUsage: " ++ c.usage ++ "\n\nOptions:\n" ++ "\n".intercalate lines

end Command

/-- The `convert` subcommand. -/
def convert : Command :=
  { name := "convert", about := "Run a conversion",
    own := [
      { id := "source", long := "source", value := "SOURCE", takes := .path,
        help := "SQLite database holding the input tables", required := true },
      { id := "tables", long := "tables", value := "TABLES", takes := .list true,
        help := "Comma separated tables to read (default: all)" },
      { id := "primary_keys", long := "primary-key", value := "PRIMARY_KEYS", takes := .list false,
        help := "Primary key override, as TABLE:COL[,COL...]; repeatable" },
      { id := "rules", long := "rules", value := "RULES", takes := .path, help := "YAML rule document",
        required := true },
      { id := "config", long := "config", value := "CONFIG", takes := .path,
        help := "YAML converter settings; flags below override it" },
      { id := "graph", long := "graph", value := "GRAPH", takes := .path,
        help := "Path to the graph database file" },
      { id := "workers", long := "workers", value := "WORKERS", takes := .size },
      { id := "serialize", long := "serialize", takes := .flag, help := "One worker, one record per commit" },
      { id := "batch_size", long := "batch-size", value := "BATCH_SIZE", takes := .size },
      { id := "flush_size", long := "flush-size", value := "FLUSH_SIZE", takes := .size },
      { id := "adaptive", long := "adaptive", takes := .flag, help := "Tune the flush size while running" },
      { id := "isolated", long := "isolated", takes := .flag, help := "Hand batches to workers as sealed parcels" },
      { id := "skip_nodes", long := "skip-nodes", takes := .flag },
      { id := "skip_relationships", long := "skip-relationships", takes := .flag }] }

/-- The `stats` subcommand. -/
def stats : Command :=
  { name := "stats", about := "Count nodes and relationships of a graph database",
    own := [
      { id := "graph", long := "graph", value := "GRAPH", takes := .path,
        help := "Path to the graph database file" },
      { id := "label", long := "label", value := "LABEL", takes := .text,
        help := "Only count nodes with this label" },
      { id := "rel_type", long := "type", value := "REL_TYPE", takes := .text,
        help := "Only count relationships of this type" }] }

/-- The subcommands, as the root help lists them. -/
def commandNames : List String := ["convert", "stats", "help"]

/-- What the `help` subcommand does. -/
def helpAbout : String := "Print this message or the help of the given subcommand(s)"

def rootUsage : String := "rowgraph [OPTIONS] <COMMAND>"

def rootOptions : List Opt := [verbose, helpFlag, versionFlag]

def rootHelp : String :=
  "Convert relational records into a property graph\n\nUsage: " ++ rootUsage ++ "\n\nCommands:\n" ++
  "  convert  " ++ convert.about ++ "\n  stats    " ++ stats.about ++ "\n  help     " ++ helpAbout ++
  "\n\nOptions:\n  -v, --verbose...  " ++ verbose.help ++ "\n  -h, --help        Print help" ++
  "\n  -V, --version     Print version"

/-- The help text of the `help` subcommand. -/
def helpHelp : String :=
  helpAbout ++ "\n\nUsage: rowgraph help [COMMAND]...\n\nArguments:\n  [COMMAND]...  Print help for the subcommand(s)"

def versionText : String := "rowgraph 0.1.0"

/-! ## Similar names -/

/-- Marks the first unmarked position of `b` within `lo ≤ j < hi` holding `c`; the marks after,
if one was found. -/
def markFirst (c : Char) (b : List Char) (lo hi : Nat) (marks : List Bool) : Option (List Bool) :=
  let idx := (List.range b.length).find? fun j =>
    lo ≤ j && j < hi && b[j]? == some c && marks[j]? == some false
  idx.map fun j => marks.set j true

/-- The Jaro similarity of two names, computed in double precision: the matches `m` (equal
characters at most half the longer length less one apart) and the transpositions `t` give
`(m/|a| + m/|b| + (m - t)/m) / 3`, summed left to right. Rounding matters: names of equal exact
similarity may rank apart, and one of similarity exactly 0.7 may pass the bar. -/
def jaro (a b : String) : Float :=
  let a := a.toList
  let b := b.toList
  if a.isEmpty && b.isEmpty then 1
  else if a.isEmpty || b.isEmpty then 0
  else
    let range := (max a.length b.length / 2) - 1
    let (aMarks, bMarks) := (List.range a.length).foldl (fun (am, bm) i =>
      let lo := i - range
      let hi := min b.length (i + range + 1)
      match a[i]? with
      | some c =>
        match markFirst c b lo hi bm with
        | some bm' => (am.set i true, bm')
        | none => (am, bm)
      | none => (am, bm)) (List.replicate a.length false, List.replicate b.length false)
    let aMatched := (a.zip aMarks).filterMap fun (c, m) => if m then some c else none
    let bMatched := (b.zip bMarks).filterMap fun (c, m) => if m then some c else none
    let m := aMatched.length
    if m == 0 then 0
    else
      let t := ((aMatched.zip bMatched).filter fun (x, y) => x != y).length / 2
      let mf := m.toFloat
      (mf / a.length.toFloat + mf / b.length.toFloat + (m - t).toFloat / mf) / 3

/-- The names similar to a name, least similar first, equally similar ones in the given order. -/
def similar (name : String) (candidates : List String) : List String :=
  let scored := candidates.filterMap fun c =>
    let score := jaro name c
    if score > 0.7 then some (c, score) else none
  (scored.mergeSort fun (_, x) (_, y) => x ≤ y).map (·.1)

/-- The most similar name, if any is similar enough. -/
def mostSimilar (name : String) (candidates : List String) : Option String := (similar name candidates).getLast?

/-! ## Faults -/

/-- A fault text: the message, tips, and the usage line if any. -/
def faultBody (message : String) (tips : List String) (usage : Option String) : String :=
  "error: " ++ message ++ (if tips.isEmpty then "" else "\n" ++ String.join (tips.map ("\n  tip: " ++ ·))) ++
    (match usage with
      | some u => "\n\nUsage: " ++ u
      | none => "")

/-- A fault text of a command that has a help flag: the message, tips, the usage line if any, and
the pointer to the help. -/
def faultText (message : String) (tips : List String) (usage : Option String) : String :=
  faultBody message tips usage ++ "\n\nFor more information, try '--help'."

/-- How reading a command line ends early: a text on standard output with exit code 0 (help,
version), or a text on standard error with exit code 2. -/
inductive Stop where
  | show (text : String)
  | refuse (text : String)
  deriving Inhabited

/-- The value of an option that was read, if it has one. -/
def valueOf (m : Matched) (id : String) : Option String := (m.lookup id).bind (·.head?)

def valuesOf (m : Matched) (id : String) : List String := (m.lookup id).getD []

def flagOf (m : Matched) (id : String) : Bool := (m.lookup id).isSome

/-- Reads a natural number as the program does: digits with an optional `+`. -/
def readSize (s : String) : Except String Nat :=
  let digits := if s.startsWith "+" then (s.drop 1).toString else s
  if s.isEmpty then .error "cannot parse integer from empty string"
  else if digits.isEmpty || !digits.all Char.isDigit then .error "invalid digit found in string"
  else
    let n := digits.foldl (fun n c => 10 * n + (c.toNat - '0'.toNat)) 0
    if n ≥ Nat.pow 2 64 then .error "number too large to fit in target type" else .ok n

/-- Takes the values given to an option: checks them, and adds them to what was read. -/
def take (c : Command) (m : Matched) (o : Opt) (vals : List String) : Except Stop Matched := do
  let collects := match o.takes with
    | .list _ => true
    | .counted => true
    | _ => false
  if !collects && (m.lookup o.id).isSome then
    throw (.refuse (faultText s!"the argument '{o.spec}' cannot be used multiple times" [] (some c.usage)))
  let mut out : List String := []
  for v in vals do
    match o.takes with
    | .path =>
      if v.isEmpty then throw (.refuse (faultText s!"a value is required for '{o.spec}' but none was supplied" [] none))
      out := out ++ [v]
    | .size =>
      match readSize v with
      | .ok _ => out := out ++ [v]
      | .error e => throw (.refuse (faultText s!"invalid value '{v}' for '{o.spec}': {e}" [] none))
    | .list true => out := out ++ v.splitOn ","
    | _ => out := out ++ [v]
  match m.lookup o.id with
  | some _ => return m.map fun (k, vs) => if k == o.id then (k, vs ++ out) else (k, vs)
  | none => return m ++ [(o.id, out)]

/-- Takes the values an option waiting for them has got by the time the next option or the end of
the line is reached; none at all is a fault, reported before any other of that option. -/
def settle (c : Command) (m : Matched) : Option (Opt × List String) → Except Stop Matched
  | none => pure m
  | some (o, []) => throw (.refuse (faultText s!"a value is required for '{o.spec}' but none was supplied" [] none))
  | some (o, vals) => take c m o vals

/-- The options read once an unknown option stops the line: the one waiting for its values counts
as read if it got any, and an option given a second time no longer counts. -/
def withWaiting (m : Matched) : Option (Opt × List String) → Matched
  | some (o, _ :: _) =>
    match o.takes, m.lookup o.id with
    | .list _, some _ => m
    | _, some _ => m.filter (·.1 != o.id)
    | _, none => m ++ [(o.id, [])]
  | _ => m

/-- The fault of an unknown long option, with the most similar option as a tip. -/
def unknownLong (c : Command) (m : Matched) (name : String) : Stop :=
  let suggestion := mostSimilar name (c.candidates.map (·.long))
  let used := m.map (·.1) ++ (match suggestion with
    | some s => ((c.candidates.find? (·.long == s)).map (·.id)).toList
    | none => [])
  .refuse (faultText s!"unexpected argument '--{name}' found"
    ((suggestion.map fun s => s!"a similar argument exists: '--{s}'").toList) (some (c.usageAfter used)))

/-- Reads a group of single-letter flags of a subcommand: what was read after it, and no option
left waiting. -/
def shortGroup (c : Command) : List Char → Matched → Option (Opt × List String) → Except Stop Matched
  | [], m, pending => settle c m pending
  | ch :: more, m, pending =>
    match c.options.find? (·.short == some ch) with
    | none => .error (.refuse (faultText s!"unexpected argument '-{ch}' found" [] (some c.usage)))
    | some o => do
      let m ← settle c m pending
      match o.takes with
      | .help => throw (.show c.helpText)
      | _ => shortGroup c more (← take c m o [""]) none

/-- Checks that every required option of a subcommand was read. -/
def finish (c : Command) (m : Matched) : Except Stop Matched :=
  let missing := c.own.filter fun o => o.required && (m.lookup o.id).isNone
  if missing.isEmpty then .ok m
  else .error (.refuse (faultText ("the following required arguments were not provided:" ++
    String.join (missing.map ("\n  " ++ ·.spec))) [] (some (c.usageAfter (m.map (·.1))))))

/-- Splits `--name=value` into the name and the value given with it. -/
def splitLong (tok : String) : String × Option String :=
  let body := (tok.drop 2).toString
  match body.splitOn "=" with
  | n :: v :: vs => (n, some ("=".intercalate (v :: vs)))
  | _ => (body, none)

/-- Reads the options of a subcommand. `pending` is an option waiting for its value and the value
given so far; `escaped` tells whether `--` was seen. -/
def scan (c : Command) : List String → Matched → Option (Opt × List String) → Bool → Except Stop Matched
  | [], m, pending, _ => do finish c (← settle c m pending)
  | tok :: rest, m, pending, escaped =>
    if escaped || tok == "-" || !tok.startsWith "-" then
      match pending with
      | some (o, []) => scan c rest m (some (o, [tok])) escaped
      | _ => .error (.refuse (faultText s!"unexpected argument '{tok}' found" [] (some c.usage)))
    else if tok == "--" then scan c rest m pending true
    else if tok.startsWith "--" then
      let (name, attached) := splitLong tok
      match c.options.find? (·.long == name) with
      | none => .error (unknownLong c (withWaiting m pending) name)
      | some o =>
        match o.takes, attached with
        | .counted, some v | .flag, some v | .version, some v | .help, some v =>
          .error (.refuse (faultText s!"unexpected value '{v}' for '{o.spec}' found; no more were expected" []
            (some (c.usageWithValue m o))))
        | _, _ => do
          let m ← settle c m pending
          match o.takes, attached with
          | .help, _ => throw (.show c.helpText)
          | .counted, _ => scan c rest (← take c m o [""]) none escaped
          | .flag, _ => scan c rest (← take c m o ["true"]) none escaped
          | _, some v => scan c rest (← take c m o [v]) none escaped
          | _, none => scan c rest m (some (o, [])) escaped
    else do
      let m ← shortGroup c (tok.drop 1).toString.toList m pending
      scan c rest m none escaped

/-- A parsed command line. -/
inductive Invocation where
  | convert (m : Matched)
  | stats (m : Matched)
  deriving Inhabited

/-- The fault of a name that is no subcommand, with similar names as tips. -/
def unknownCommand (name : String) : Stop :=
  match similar name commandNames with
  | [] => .refuse (faultText s!"unrecognized subcommand '{name}'" [] (some rootUsage))
  | found =>
    let named := ", ".intercalate (found.map fun s => s!"'{s}'")
    let first := if found.length == 1 then s!"a similar subcommand exists: {named}"
      else s!"some similar subcommands exist: {named}"
    .refuse (faultText s!"unrecognized subcommand '{name}'" [first] (some rootUsage))

/-- What the `help` subcommand prints for the names after it. -/
def helpFor (names : List String) : Stop :=
  match names with
  | [] => .show rootHelp
  | n :: rest =>
    let sub := if n == "convert" then some convert else if n == "stats" then some stats else none
    match sub, rest with
    | some c, [] => .show c.helpText
    | some c, x :: _ => .refuse (faultText s!"unrecognized subcommand '{x}'" [] (some c.usage))
    | none, _ =>
      if n == "help" then
        match rest with
        | [] => .show helpHelp
        | x :: _ => .refuse (faultBody s!"unrecognized subcommand '{x}'" [] (some "rowgraph help [COMMAND]..."))
      else .refuse (faultText s!"unrecognized subcommand '{n}'" [] (some rootUsage))

def rootShorts : List Char → Except Stop Unit
  | [] => .ok ()
  | ch :: more =>
    match rootOptions.find? (·.short == some ch) with
    | none => .error (.refuse (faultText s!"unexpected argument '-{ch}' found" [] (some rootUsage)))
    | some o =>
      match o.takes with
      | .help => .error (.show rootHelp)
      | .version => .error (.show versionText)
      | _ => rootShorts more

/-- A subcommand named later on the line that has an option similar to an unknown option of the
root command: the one named first, with its most similar option. -/
def laterSubcommandOption (name : String) (rest : List String) : Option (String × String) :=
  let found := [convert, stats].filterMap fun c => do
    let s ← mostSimilar name (c.candidates.map (·.long))
    let i ← rest.findIdx? (· == c.name)
    return (i, c.name, s)
  ((found.mergeSort fun a b => a.1 ≤ b.1).head?).map fun (_, n, s) => (n, s)

/-- The fault of an unknown long option of the root command; `seen` tells whether the verbosity
flag was read, and `rest` is the line after the option. The tip names a similar option of the
root command, or else one of a subcommand named later. -/
def unknownRootLong (name : String) (seen : Bool) (rest : List String) : Stop :=
  let suggestion := mostSimilar name (rootOptions.map (·.long))
  let used := (if seen then ["verbose"] else []) ++ suggestion.toList
  let used := used.foldl (fun acc u => if acc.contains u then acc else acc ++ [u]) []
  let specs := used.filterMap fun u => (rootOptions.find? (·.long == u)).map (·.spec)
  let tips := match suggestion with
    | some s => [s!"a similar argument exists: '--{s}'"]
    | none => ((laterSubcommandOption name rest).map fun (c, s) => s!"'{c} --{s}' exists").toList
  .refuse (faultText s!"unexpected argument '--{name}' found" tips
    (some (if specs.isEmpty then rootUsage else "rowgraph " ++ " ".intercalate specs ++ " <COMMAND>")))

/-- The usage line of a fault about a value given to a flag `o` of the root command; `seen`
tells whether the verbosity flag was read, which makes the group of the root command's own
option stand after the flags. -/
def rootUsageWithValue (seen : Bool) (o : Opt) : String :=
  let specs := if seen && o.id == verbose.id then [] else [o.spec]
  " ".intercalate (["rowgraph"] ++ specs ++ (if seen then ["<" ++ verbose.spec ++ ">"] else []) ++ ["<COMMAND>"])

/-- Reads the options of the root command up to the subcommand. `seen` tells whether any
option was read. -/
def root : List String → Bool → Bool → Except Stop Invocation
  | [], seen, _ =>
    if seen then
      .error (.refuse (faultText ("'rowgraph' requires a subcommand but one was not provided\n  [subcommands: " ++
        ", ".intercalate commandNames ++ "]") [] (some rootUsage)))
    else .error (.refuse rootHelp)
  | tok :: rest, seen, escaped =>
    if escaped || tok == "-" || !tok.startsWith "-" then
      if escaped then
        let tips := if commandNames.contains tok then
          [s!"subcommand '{tok}' exists; to use it, remove the '--' before it"] else []
        .error (.refuse (faultText s!"unexpected argument '{tok}' found" tips (some rootUsage)))
      else if tok == "convert" then (scan convert rest [] none false).map .convert
      else if tok == "stats" then (scan stats rest [] none false).map .stats
      else if tok == "help" then .error (helpFor rest)
      else .error (unknownCommand tok)
    else if tok == "--" then root rest seen true
    else if tok.startsWith "--" then
      let (name, attached) := splitLong tok
      match rootOptions.find? (·.long == name) with
      | some o =>
        match attached with
        | some v =>
          .error (.refuse (faultText s!"unexpected value '{v}' for '{o.spec}' found; no more were expected" []
            (some (rootUsageWithValue seen o))))
        | none =>
          match o.takes with
          | .help => .error (.show rootHelp)
          | .version => .error (.show versionText)
          | _ => root rest true escaped
      | none => .error (unknownRootLong name seen rest)
    else do
      rootShorts (tok.drop 1).toString.toList
      root rest true escaped

def parse (args : List String) : Except Stop Invocation := root args false false

end Cli

end GraphIngest
