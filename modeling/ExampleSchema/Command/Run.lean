import ExampleSchema.Command.Arguments
import ExampleSchema.Command.Reply
import ExampleSchema.Session

/-!
# Running commands

A command reads files and tells what it finds.  The files come as functions, so that the reply depends
on nothing else.

* `Inputs.resolve`: the paths that the inputs of a command stand for, in their order.
* `Registrations.session`: a schema with all that is registered for it.
* `Command.reply`: the reply of a command.
-/

namespace ExampleSchema

/-- What a command can find out about files. -/
structure Files where
  read : String → Except FileError Bytes
  expand : Glob → List String

/-- The files of a disk. -/
def Disk.files (d : Disk) : Files where
  read := d.read
  expand g := g.expand d

namespace Files

/-- The content of a file. -/
def content (files : Files) (path : String) : Except Failure Bytes :=
  (files.read path).mapError (Failure.unreadable path)

/-- The file as a document. -/
def source (files : Files) (path : String) : Except Failure Source := do
  return ⟨path, ← files.content path⟩

/-- The paths that an input stands for: itself, or the files that a pattern finds. -/
def pathsOf (files : Files) (input : String) : Except Failure (List String) :=
  if Glob.isPattern input then do
    let glob ← (Glob.parse input).mapError Failure.badPattern
    match files.expand glob with
    | [] => .error (.noFiles input)
    | paths => .ok paths
  else .ok [input]

/-- The paths that inputs stand for, sorted. -/
def resolve (files : Files) (inputs : List String) : Except Failure (List String) := do
  return Path.sort (← inputs.mapM files.pathsOf).flatten

end Files

namespace Registrations

/-- The session with the types. -/
def addTypes (files : Files) (session : Session) (types : List (String × String)) :
    Except Failure Session :=
  types.foldlM (fun session (name, path) => do
    (session.addType name (← files.source path)).mapError (Failure.type name)) session

/-- The session with the rules. -/
def addRules (files : Files) (session : Session) (rules : List (String × String)) :
    Except Failure Session :=
  rules.foldlM (fun session (name, path) => do
    let rule ← (Enumeration.load (← files.source path)).mapError (Failure.rule name)
    (session.addRule name rule).mapError Failure.problem) session

/-- A schema with all that is registered for it. -/
def session (r : Registrations) (files : Files) (path : String) : Except Failure Session := do
  let session ← addTypes files { source := ← files.source path } r.types
  addRules files session r.rules

end Registrations

/-- The session of a schema that compiles. -/
def Session.compiledOrFail (session : Session) : Except Failure Session :=
  match session.compiled with
  | .ok schema => .ok { session with compiled? := some (.ok schema) }
  | .error p => .error (.problem p)

/-- The notice about an input that is in order or not. -/
def Notice.ofOutcome {α : Type} (path : String) : Except Failure α → Notice
  | .ok _ => passed path
  | .error failure => failed path failure

namespace Command

/-- The notice about a schema that is checked. -/
def checkNotice (files : Files) (registrations : Registrations) (path : String) : Notice :=
  .ofOutcome path do (← registrations.session files path).compiledOrFail

/-- The notice about a schema that is measured.  A file that cannot be read has none. -/
def lengthNotice (files : Files) (path : String) : Except Failure Notice := do
  let session : Session := { source := ← files.source path }
  return match session.length with
    | .ok size => .measured path size
    | .error p => .failed path (.problem p)

/-- The notices about schemas up to the first that cannot be read, and why it cannot. -/
def lengthReply (files : Files) : List String → Reply
  | [] => {}
  | path :: rest =>
    match lengthNotice files path with
    | .ok notice =>
      let reply := lengthReply files rest
      { reply with notices := notice :: reply.notices }
    | .error failure => .ofFailure failure

/-- The notice about a value. -/
def valueNotice (files : Files) (session : Session) (property? : Option String) (path : String) :
    Notice :=
  .ofOutcome path do
    let text ← files.content path
    let outcome := match property? with
      | some name => session.validateMember name text
      | none => session.validate text
    outcome.mapError Failure.problem

/-- The outline of a schema as a text. -/
def outlineText (files : Files) (registrations : Registrations) (schema : String) :
    Except Failure String := do
  let session ← registrations.session files schema
  let outline ← session.outline.mapError Failure.problem
  return outline.toTree.pretty

/-- The reply of a command, or what ends it before it tells anything. -/
def run (files : Files) : Command → Except Failure Reply
  | check inputs registrations => do
    let paths ← files.resolve inputs
    return { notices := paths.map (checkNotice files registrations) }
  | length inputs => do
    let paths ← files.resolve inputs
    return lengthReply files paths
  | validate schema registrations property? inputs => do
    let session ← (← registrations.session files schema).compiledOrFail
    let paths ← files.resolve inputs
    return { notices := paths.map (valueNotice files session property?) }
  | outline schema registrations none => do
    return { notices := [.document (← outlineText files registrations schema)] }
  | outline schema registrations (some out) => do
    return { file? := some (out, Bytes.ofString (← outlineText files registrations schema)) }

/-- The reply of a command. -/
def reply (files : Files) (command : Command) : Reply :=
  match run files command with
  | .ok reply => reply
  | .error failure => .ofFailure failure

end Command
end ExampleSchema
