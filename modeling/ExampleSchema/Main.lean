import ExampleSchema.Command.Run

/-!
# The program

The outer layer: it reads the files that a command names, lets the command reply, prints the reply and
writes the file that the reply asks for.  Patterns are looked up among the files below the current
folder.
-/

namespace ExampleSchema

/-- How the program is called. -/
def usage : String :=
  "Usage: check    -i <INPUT>... [--type @Name=<PATH>]... [--rule @Name=<PATH>]...\n"
    ++ "       ast      <SCHEMA> [--type @Name=<PATH>]... [--rule @Name=<PATH>]... [-o <OUT>]\n"
    ++ "       length   -i <INPUT>...\n"
    ++ "       validate -s <SCHEMA> [--type @Name=<PATH>]... [--rule @Name=<PATH>]...\n"
    ++ "                [--property <NAME>] -i <INPUT>...\n"

/-- The version of the program. -/
def version : String := "0.1.0\n"

/-- What the system says about a file. -/
def fileError : IO.Error → FileError
  | .noFileOrDirectory .. => .notFound
  | .alreadyExists .. => .alreadyExists
  | .inappropriateType _ code _ => if code == 20 then .notFolder else .isFolder
  | e => .other (toString e)

/-- The inputs of a command. -/
def Command.inputs : Command → List String
  | check inputs _ | length inputs | validate _ _ _ inputs => inputs
  | outline .. => []

/-- The files that a command names besides its inputs. -/
def Command.otherFiles : Command → List String
  | check _ r => (r.types ++ r.rules).map Prod.snd
  | length _ => []
  | validate schema r _ _ | outline schema r _ => schema :: (r.types ++ r.rules).map Prod.snd

/-- How deep folders are searched for files. -/
def depthLimit : Nat := 64

/-- What a folder holds at any depth, given its own items.  The contents of the files are left out. -/
def listItems (way : List String) (items : Array IO.FS.DirEntry) : Nat → IO (List (List String × FileEntry))
  | 0 => return []
  | depth + 1 => do
    let mut found : List (List String × FileEntry) := []
    for item in items do
      let inner := way ++ [item.fileName]
      if ← item.path.isDir then
        found := found ++ (inner, FileEntry.folder) :: (← listItems inner (← item.path.readDir) depth)
      else
        found := found ++ [(inner, FileEntry.file [])]
    return found

/-- The content of a file, or why it cannot be read. -/
def readFile (path : String) : IO (Except FileError Bytes) := do
  try
    return .ok (← IO.FS.readBinFile path).toList
  catch e => return .error (fileError e)

/-- The files that a command needs. -/
def loadFiles (command : Command) : IO Files := do
  let entries ← if command.inputs.any Glob.isPattern then
      listItems [] (← (← IO.currentDir).readDir) depthLimit
    else pure []
  let disk : Disk := ⟨entries⟩
  let names : Files := { read := fun _ => .error .notFound, expand := fun g => g.expand disk }
  let inputs := command.inputs.flatMap fun input => ((names.pathsOf input).toOption).getD []
  let paths := (inputs ++ command.otherFiles).eraseDups
  let contents ← paths.mapM fun path => do return (path, ← readFile path)
  return { names with read := fun path => (contents.lookup path).getD (.error .notFound) }

/-- Writes a file and makes the folders on the way to it. -/
def saveFile (path : String) (content : Bytes) : IO (Except FileError Unit) := do
  try
    match (Path.ofString path).parent? with
    | some folder => if folder.isEmpty then pure () else IO.FS.createDirAll folder.text
    | none => pure ()
    IO.FS.writeBinFile path ⟨content.toArray⟩
    return .ok ()
  catch e => return .error (fileError e)

/-- Does what a reply asks for and tells the rest. -/
def tell (reply : Reply) : IO UInt32 := do
  let reply ← match reply.file? with
    | none => pure reply
    | some (path, content) => do
      match ← saveFile path content with
      | .ok () => pure reply
      | .error e => pure { reply with failure? := some (.unwritable e) }
  IO.print reply.output
  IO.eprint reply.complaint
  return reply.exitCode.toUInt32

end ExampleSchema

open ExampleSchema in
/-- Runs the command that the arguments ask for. -/
def main (arguments : List String) : IO UInt32 := do
  match Invocation.ofArguments arguments with
  | .refused =>
    IO.eprint usage
    return 2
  | .help =>
    IO.print usage
    return 0
  | .version =>
    IO.print version
    return 0
  | .run command => tell (command.reply (← loadFiles command))
