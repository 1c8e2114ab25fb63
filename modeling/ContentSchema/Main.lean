import ContentSchema.Command.Run

/-!
# The program

Takes a snapshot of the files and variables that a command looks at, runs the command on it, and
puts what changed back into place.  No hooks and no databases are at hand here.
-/

namespace ContentSchema

namespace Program

/-- The path of a location. -/
def textOf (place : Location) : String := "/" ++ String.intercalate "/" place

/-- What stands at a location. -/
def nodeAt (place : Location) : IO (Option Node) := do
  let path := (← IO.currentDir) / textOf place
  if ← path.isDir then return some .directory
  else if ← path.pathExists then return some (.file (← IO.FS.readBinFile path).data.toList)
  else return none

/-- The files and directories on the way to paths. -/
def snapshot (here : Location) (paths : List Path) : IO FileSystem := do
  let places := (paths.map (·.location here)).flatMap fun place =>
    (List.range place.length).map fun n => place.take (n + 1)
  let nodes ← places.eraseDups.filterMapM fun place => do
    return (← nodeAt place).map fun node => (place, node)
  return { FileSystem.empty here with nodes := nodes ++ (FileSystem.empty here).nodes }

/-- Puts the nodes that changed into place. -/
def store (before after : FileSystem) : IO Unit := do
  for (place, node) in after.nodes.reverse do
    if before.node? place != some node then
      match node with
      | .directory => IO.FS.createDirAll (textOf place)
      | .file bytes => IO.FS.writeBinFile (textOf place) ⟨bytes.toArray⟩

/-- Runs a command with more and more lines of input, as long as it wants them, and shows what it
shows. -/
partial def converse (run : List Char → Trace) (input : List Char) (shown : Nat) : IO Trace := do
  let trace := run input
  IO.print (trace.shown.drop shown)
  (← IO.getStdout).flush
  match trace.ending with
  | .inputEnded =>
    let line ← (← IO.getStdin).getLine
    if line.isEmpty then return trace
    else converse run (input ++ line.toList) trace.shown.length
  | _ => return trace

/-- Tells how a command ended, and gives its exit code. -/
def tell : Ending → IO UInt32
  | .finished code complaint => do
    IO.eprint complaint
    return code.toUInt32
  | .stopped reason => return reason.exitCode.toUInt32
  | .broken failure => do
    IO.eprintln failure.message
    return 1
  | .inputEnded => do
    IO.eprintln "EOF when reading a line"
    return 1

/-- Runs a command in the current directory. -/
def runHere (command : Command) : IO UInt32 := do
  let here := (Path.ofText (← IO.currentDir).toString).names
  let first ← snapshot here (command.paths [] (FileSystem.empty here))
  let files ← snapshot here (command.paths [] first)
  let environment ← (command.variableNames [] files).filterMapM fun name => do
    return (← IO.getEnv name).map fun value => (name, value)
  let surroundings : Surroundings := ⟨files, environment, [], none⟩
  let trace ← converse (fun input => command.run [] surroundings input) [] 0
  store files trace.files
  tell trace.ending

end Program

end ContentSchema

open ContentSchema in
/-- Runs the command that the arguments spell. -/
def main (arguments : List String) : IO UInt32 := do
  match Command.ofArguments arguments with
  | .ok command => Program.runHere command
  | .error stop =>
    IO.print stop.shown
    return stop.exitCode.toUInt32
