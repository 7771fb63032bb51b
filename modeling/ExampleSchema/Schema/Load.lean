import ExampleSchema.Note.Builder
import ExampleSchema.Note.Rules
import ExampleSchema.Scan.Run

/-!
# Loading schemas

The events of a document are folded into a tree.  Objects and arrays nest, so the loader keeps a stack
of those that are open.  A note describes the value before it on its line: the one that was completed
last, or the object or array that was opened last.  A new line ends that.

* `Loader.add`: what one event does.
* `Schema.load`: the schema of a document.
-/

namespace ExampleSchema

/-- What the next note describes. -/
inductive NoteTarget where
  /-- Nothing: no value stands before it on its line. -/
  | nothing
  /-- The innermost object or array that is open. -/
  | top
  /-- The value completed last in the innermost object or array that is open. -/
  | lastChild
  /-- The value of the whole document. -/
  | root
  deriving Repr, DecidableEq, Inhabited

/-- What is read of an object or an array. -/
inductive Filling where
  /-- The properties so far, the last one first, and how the next one is written. -/
  | object (properties : List (PropertyKey × Node)) (key? : Option PropertyKey)
  /-- The items so far, the last one first. -/
  | array (items : List Node)
  deriving Inhabited

/-- An object or an array that is open. -/
structure OpenNode where
  header : Header
  filling : Filling
  deriving Inhabited

namespace OpenNode

/-- The node once its end is read.  It spans the whole text. -/
def close (n : OpenNode) (mark : Mark) : Node :=
  let header := { n.header with basis := mark }
  match n.filling with
  | .object properties _ => .object header properties.reverse
  | .array items => .array header items.reverse

/-- Takes how the next property is written. -/
def takeKey (n : OpenNode) (key : PropertyKey) : OpenNode :=
  match n.filling with
  | .object properties _ => { n with filling := .object properties (some key) }
  | .array _ => n

/-- Whether the next property of an object is not written yet. -/
def awaitsKey (n : OpenNode) : Bool :=
  match n.filling with
  | .object _ none => true
  | _ => false

/-- Takes a value.  No two properties of an object have one name. -/
def place (n : OpenNode) (node : Node) : Outcome OpenNode :=
  match n.filling with
  | .array items => .ok { n with filling := .array (node :: items) }
  | .object _ none => .error ((Cause.fault .valueWithoutKey).on node.basis)
  | .object properties (some key) =>
    if properties.any fun p => p.1.name == key.name then
      .error ((Cause.duplicateKey key.name).on key.mark)
    else .ok { n with filling := .object ((key, node) :: properties) none }

/-- Changes the value completed last, if there is one. -/
def changeLast? (n : OpenNode) (change : Node → Outcome Node) : Option (Outcome OpenNode) :=
  match n.filling with
  | .array (node :: rest) =>
    some ((change node).map fun node => { n with filling := .array (node :: rest) })
  | .object ((key, node) :: rest) key? =>
    some ((change node).map fun node => { n with filling := .object ((key, node) :: rest) key? })
  | _ => none

end OpenNode

/-- What is read of a schema. -/
structure Loader where
  /-- The objects and arrays that are open, innermost first. -/
  openNodes : List OpenNode := []
  root? : Option Node := none
  target : NoteTarget := .nothing
  /-- The note that is being read. -/
  note? : Option Note.Builder := none
  unnamed : Unnamed
  deriving Inhabited

namespace Loader

/-- Puts a complete value where it belongs. -/
def place (l : Loader) (node : Node) : Outcome Loader :=
  match l.openNodes with
  | [] => .ok { l with root? := some node, target := .root }
  | top :: rest => do
    return { l with openNodes := (← top.place node) :: rest, target := .lastChild }

/-- Opens an object or an array. -/
def enter (l : Loader) (mark : Mark) (type : JsonType) (filling : Filling) : Loader :=
  let node : OpenNode := { header := { jsonType := type, basis := mark }, filling }
  { l with openNodes := node :: l.openNodes, target := .top }

/-- Closes the innermost object or array. -/
def leave (l : Loader) (mark : Mark) : Outcome Loader :=
  match l.openNodes with
  | top :: rest => place { l with openNodes := rest } (top.close mark)
  | [] => .error ((Cause.fault .containerClosedTwice).on mark)

/-- Takes how the next property is written. -/
def takeKey (l : Loader) (key : PropertyKey) : Loader :=
  match l.openNodes with
  | top :: rest => { l with openNodes := top.takeKey key :: rest }
  | [] => l

/-- Takes the name of the next property, unless it is written as a type. -/
def takeName (l : Loader) (mark : Mark) : Outcome Loader :=
  if l.openNodes.head?.any OpenNode.awaitsKey then do
    return l.takeKey { name := ← Verdict.on (Literal.string mark.bytes) mark, mark }
  else .ok l

/-- A value without parts, whose type is told from how it is written. -/
def sampleNode (mark : Mark) : Node :=
  .literal { jsonType := (JsonType.ofBytes? mark.bytes).getD .mixed, basis := mark } (some mark)

/-- Describes what a note describes. -/
def describe (l : Loader) (note : Note) (rules : List Rule) : Outcome Loader :=
  let annotate (node : Node) := node.annotate note.mark note.text? rules
  let lost : Outcome Loader := .error ((Cause.fault .annotationTargetLost).on note.mark)
  match l.target, l.root?, l.openNodes with
  | .nothing, _, _ => .ok l
  | .root, some root, _ => do return { l with root? := some (← annotate root) }
  | .top, _, top :: rest => do
    let header ← (← top.header.annotate note.mark note.text?).apply none rules
    return { l with openNodes := { top with header } :: rest }
  | .lastChild, _, top :: rest =>
    match top.changeLast? annotate with
    | some changed => do return { l with openNodes := (← changed) :: rest }
    | none => lost
  | _, _, _ => lost

/-- Applies a complete note.  A note with rules has to follow a value. -/
def applyNote (l : Loader) (note : Note) : Outcome Loader :=
  match note.rules?, note.text? with
  | none, none => .ok l
  | none, some _ => l.describe note []
  | some rules, _ =>
    if l.target = .nothing then .error (Cause.annotationWithoutValue.on note.mark)
    else do
      let (built, unnamed) ← RuleValue.constraintsOf l.unnamed rules
      describe { l with unnamed } note built

/-- Takes an event outside notes. -/
def addEvent (l : Loader) (mark : Mark) : Outcome Loader :=
  match mark.kind with
  | .opening .object => .ok (l.enter mark .object (.object [] none))
  | .opening .array => .ok (l.enter mark .array (.array []))
  | .closing .object | .closing .array => l.leave mark
  | .closing .keyShortcut => .ok (l.takeKey { name := mark.text, mark, isShortcut := true })
  | .closing .objectKey => l.takeName mark
  | .closing .literal => l.place (sampleNode mark)
  | .closing .mixedValue => do l.place (← Shortcut.node mark)
  | .opening .inlineNote | .opening .blockNote => .ok { l with note? := some { mark } }
  | .newLine => .ok { l with target := .nothing }
  | _ => .ok l

/-- Takes an event of a note. -/
def addToNote (l : Loader) (builder : Note.Builder) (mark : Mark) : Outcome Loader :=
  match mark.kind with
  | .closing .inlineNote | .closing .blockNote => applyNote { l with note? := none } builder.note
  | _ => do return { l with note? := some (← builder.add mark) }

/-- Takes an event. -/
def add (l : Loader) (mark : Mark) : Outcome Loader :=
  match l.note? with
  | some builder => l.addToNote builder mark
  | none => l.addEvent mark

end Loader

/-- Loads the schema of a document.  Its unnamed types are called after an owner. -/
def Schema.load (source : Source) (owner : String) : Outcome Schema := do
  let loader ← Scan.foldMarks {} source Loader.add { unnamed := { source, owner } }
  match loader.root? with
  | some root => return { root, types := loader.unnamed.types }
  | none => throw Cause.noSchema.anywhere

end ExampleSchema
