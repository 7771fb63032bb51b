import ExampleSchema.Catalog
import ExampleSchema.Note.Basic
import ExampleSchema.Text.Quoted

/-!
# Reading notes

The events of a note are folded into a `Note`.  Lists and objects of rule values nest, so the builder
keeps a stack of those that are open.
-/

namespace ExampleSchema
namespace Note

/-- A list or an object of rule values that is being filled. -/
inductive Frame where
  /-- The rules so far, and the name of the next one. -/
  | object (rules : List (String × Mark × RuleValue)) (name? : Option (String × Mark))
  /-- The values so far, the last one first. -/
  | array (items : List RuleValue)
  deriving Inhabited

/-- What is read of a note. -/
structure Builder where
  /-- Where the note begins. -/
  mark : Mark
  frames : List Frame := []
  rules? : Option (List (String × Mark × RuleValue)) := none
  text? : Option String := none
  deriving Inhabited

namespace Builder

/-- Puts a complete value where it belongs.  A note itself has an object of rules only. -/
def place (b : Builder) (value : RuleValue) : Outcome Builder :=
  match b.frames, value with
  | [], .object _ rules => .ok { b with rules? := some rules }
  | [], value => .error (Cause.rulesNotAnObject.on value.mark)
  | .array items :: rest, value => .ok { b with frames := .array (value :: items) :: rest }
  | .object rules (some (name, mark)) :: rest, value =>
    if Catalog.contains rules name then .error ((Cause.duplicateRule name).on mark)
    else .ok { b with frames := .object (rules ++ [(name, mark, value)]) none :: rest }
  | .object _ none :: _, value => .error ((Cause.fault .ruleWithoutName).on value.mark)

/-- The name of a rule, which may be quoted. -/
def nameOf (mark : Mark) : Outcome String :=
  if mark.bytes.head?.map Bytes.char = some '"' then
    match Quoted.decode? mark.bytes with
    | some name => .ok name
    | none => .error ((Cause.notAString mark.text).on mark)
  else .ok mark.text

/-- Takes the name of the next rule. -/
def takeName (b : Builder) (mark : Mark) : Outcome Builder := do
  let name ← nameOf mark
  match b.frames with
  | .object rules _ :: rest => return { b with frames := .object rules (some (name, mark)) :: rest }
  | _ => return b

/-- Opens a list or an object. -/
def enter (b : Builder) (frame : Frame) : Builder := { b with frames := frame :: b.frames }

/-- Closes the innermost list or object, whichever of the two ends. -/
def leave (b : Builder) (mark : Mark) : Outcome Builder :=
  match b.frames, mark.kind with
  | .object rules _ :: rest, .closing .object =>
    place { b with frames := rest } (.object mark rules)
  | .array items :: rest, .closing .array =>
    place { b with frames := rest } (.array mark items.reverse)
  | _, _ => .error ((Cause.fault .unbalancedRules).on mark)

/-- Takes the text of the note; a text of blanks is none. -/
def takeText (b : Builder) (mark : Mark) : Builder :=
  let text := mark.bytes.trim.toText
  if text.isEmpty then b else { b with text? := some text }

/-- The note, once it is complete. -/
def note (b : Builder) : Note := { mark := b.mark, rules? := b.rules?, text? := b.text? }

/-- Takes an event of the note other than its last one. -/
def add (b : Builder) (mark : Mark) : Outcome Builder :=
  match mark.kind with
  | .opening .object => .ok (b.enter (.object [] none))
  | .opening .array => .ok (b.enter (.array []))
  | .closing .objectKey => b.takeName mark
  | .closing .literal => b.place (.literal mark)
  | .closing .typesShortcut => b.place (.shortcut mark)
  | .closing .object | .closing .array => b.leave mark
  | .closing .inlineNoteText | .closing .blockNoteText => .ok (b.takeText mark)
  | _ => .ok b

end Builder
end Note
end ExampleSchema
