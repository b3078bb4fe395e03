import GraphIngest.Cli.Run

/-!
# The program

Runs the command line on the files it names. Each path given to `--source`, `--rules`,
`--config` or `--graph` that holds text is read as a text file; any other is left out, so the
program sees it as missing. Nothing is written back.
-/

namespace GraphIngest

/-- The paths a command line names, as given. -/
def namedPaths : List String → List String
  | [] => []
  | tok :: rest =>
    let options := ["--source", "--rules", "--config", "--graph"]
    match options.find? fun o => tok.startsWith (o ++ "=") with
    | some o => (tok.drop (o.length + 1)).toString :: namedPaths rest
    | none =>
      if options.contains tok then
        match rest with
        | p :: more => p :: namedPaths more
        | [] => []
      else namedPaths rest

end GraphIngest

open GraphIngest in
/-- Runs the program: reads the named text files, runs the command line, and prints what it
prints. -/
def main (args : List String) : IO UInt32 := do
  let mut fs : FileSystem := {}
  for raw in namedPaths args do
    try
      let text ← IO.FS.readFile raw
      fs := fs.put (FileSystem.resolve raw) (.text text)
    catch _ => pure ()
  let (_, reply) := Cli.run fs args
  for line in reply.out do IO.println line
  for line in reply.err do IO.eprintln line
  return reply.code.toUInt32
