import ExampleSchema.Scan.Run
import ExampleSchema.Text.Quoted
import ExampleSchema.Value.Basic

/-!
# Reading values

`Value.parse` reads a plain JSON text.  The events of the text are folded into a tree: a container
that opens becomes a `Frame` to be filled, and one that closes becomes a value of the frame around
it.  A name that is no valid string is a problem of the text even if a later byte is one too.
-/

namespace ExampleSchema
namespace Value

/-- A container that is being filled. -/
inductive Frame where
  /-- The members so far, and the name of the next one. -/
  | object (members : List (String × Mark × Value)) (name? : Option (String × Mark))
  /-- The items so far, the last one first. -/
  | array (items : List Value)
  deriving Inhabited

/-- The containers that are being filled, innermost first, and the value if it is complete. -/
structure Builder where
  frames : List Frame := []
  root? : Option Value := none
  deriving Inhabited

namespace Builder

/-- Puts a complete value where it belongs. -/
def place (b : Builder) (value : Value) : Outcome Builder :=
  match b.frames with
  | [] => .ok { b with root? := some value }
  | .array items :: rest => .ok { b with frames := .array (value :: items) :: rest }
  | .object members (some (name, mark)) :: rest =>
    .ok { b with frames := .object (Catalog.insert members name (mark, value)) none :: rest }
  | .object _ none :: _ => .error ((Cause.fault .valueWithoutKey).on value.mark)

/-- Opens a container. -/
def enter (b : Builder) (frame : Frame) : Builder := { b with frames := frame :: b.frames }

/-- Takes the name of the next member. -/
def takeName (b : Builder) (mark : Mark) : Outcome Builder :=
  match Quoted.decode? mark.bytes, b.frames with
  | none, _ => .error ((Cause.notAString mark.text).on mark)
  | some name, .object members _ :: rest =>
    .ok { b with frames := .object members (some (name, mark)) :: rest }
  | some _, _ => .ok b

/-- Closes the innermost container. -/
def leave (b : Builder) (mark : Mark) : Outcome Builder :=
  match b.frames with
  | .object members _ :: rest => place { b with frames := rest } (.object mark members)
  | .array items :: rest => place { b with frames := rest } (.array mark items.reverse)
  | [] => .error ((Cause.fault .unbalancedValue).on mark)

/-- Takes one event. -/
def add (b : Builder) (mark : Mark) : Outcome Builder :=
  match mark.kind with
  | .opening .object => .ok (b.enter (.object [] none))
  | .opening .array => .ok (b.enter (.array []))
  | .closing .objectKey => b.takeName mark
  | .closing .literal => b.place (.literal mark)
  | .closing .object | .closing .array => b.leave mark
  | _ => .ok b

end Builder

/-- Reads a plain JSON text. -/
def parse (source : Source) : Outcome Value := do
  let builder ← Scan.foldMarks { plain := true } source Builder.add {}
  match builder.root? with
  | some value => return value
  | none => throw Cause.noValue.anywhere

end Value
end ExampleSchema
