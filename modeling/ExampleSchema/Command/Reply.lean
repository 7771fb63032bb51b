import ExampleSchema.Error.Problem
import ExampleSchema.File.Glob

/-!
# Replies

What a command has to tell.  A notice is a report on one input or a document; a failure is what ended
the command or belongs to one input.

* `Failure.text`, `Notice.text`: the texts a reader sees.
* `Reply`: all that a command tells, and the file it asks to be written.
* `Reply.settle`: writing that file.
-/

namespace ExampleSchema

/-- Why something that a command was asked for cannot be done. -/
inductive Failure where
  /-- A file cannot be read. -/
  | unreadable (path : String) (error : FileError)
  /-- A file cannot be written. -/
  | unwritable (error : FileError)
  /-- A pattern is in disorder. -/
  | badPattern (error : GlobError)
  /-- A pattern stands for no file. -/
  | noFiles (pattern : String)
  /-- A type is not accepted. -/
  | type (name : String) (problem : Problem)
  /-- A rule is not accepted. -/
  | rule (name : String) (problem : Problem)
  /-- A schema or a value is not accepted. -/
  | problem (problem : Problem)

/-- The text of a failure. -/
def Failure.text : Failure → String
  | unreadable path error => s!"failed to read {path}: " ++ error.text
  | unwritable error => error.text
  | badPattern error => "failed to resolve input file paths: " ++ error.text
  | noFiles pattern => s!"failed to resolve input file paths: glob pattern matched no files: {pattern}"
  | type name p => s!"type {name}: " ++ p.text
  | rule name p => s!"rule {name}: " ++ p.text
  | problem p => p.text

/-- One thing that a command tells. -/
inductive Notice where
  /-- An input is in order. -/
  | passed (path : String)
  /-- An input is not in order. -/
  | failed (path : String) (failure : Failure)
  /-- How many bytes of an input are its schema. -/
  | measured (path : String) (length : Nat)
  /-- A text that was asked for. -/
  | document (text : String)

namespace Notice

/-- The lines of a notice. -/
def text : Notice → String
  | passed path => s!"✓ {path}\n"
  | failed path failure => s!"✗ {path}\n" ++ failure.text ++ "\n"
  | measured path length => s!"{length}\t{path}\n"
  | document content => content ++ "\n"

/-- Whether a notice reports a failure. -/
def isFailed : Notice → Bool
  | failed _ _ => true
  | _ => false

end Notice

/-- All that a command tells. -/
structure Reply where
  notices : List Notice := []
  failure? : Option Failure := none
  /-- A file to be written, and its content. -/
  file? : Option (String × Bytes) := none

namespace Reply

/-- The reply of a command that ends before it tells anything. -/
def ofFailure (failure : Failure) : Reply := { failure? := some failure }

/-- What is printed. -/
def output (r : Reply) : String := String.join (r.notices.map Notice.text)

/-- What is printed as an error. -/
def complaint (r : Reply) : String :=
  match r.failure? with
  | some failure => failure.text ++ "\n"
  | none => ""

/-- The exit code: zero if nothing has failed. -/
def exitCode (r : Reply) : Nat :=
  if r.failure?.isSome || r.notices.any Notice.isFailed then 1 else 0

/-- The reply and the disk after the file has been written, if there is one. -/
def settle (r : Reply) (d : Disk) : Reply × Disk :=
  match r.file? with
  | none => (r, d)
  | some (path, content) =>
    match d.save path content with
    | .ok d => ({ r with file? := none }, d)
    | .error e => ({ r with failure? := some (.unwritable e), file? := none }, d)

end Reply
end ExampleSchema
