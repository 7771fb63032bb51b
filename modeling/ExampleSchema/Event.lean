import ExampleSchema.Text.Source

/-!
# Events

Reading a document yields a sequence of events: a construct opens, a construct closes, a line ends,
the document ends.  An opening event is an empty span at the first byte of its construct; a closing
event spans the whole construct.  `EventKind.closing` of a construct is the pair of its
`EventKind.opening`, so an event that opens something cannot be left without a partner.

A `Mark` is an event together with the document it comes from: what errors point at, and what the
trees of the library keep instead of copied text.
-/

namespace ExampleSchema

/-- A part of a document that opens and closes. -/
inductive Construct where
  | literal
  | object
  | objectKey
  | objectValue
  | array
  | arrayItem
  | inlineNote
  | inlineNoteText
  | blockNote
  | blockNoteText
  | keyShortcut
  | typesShortcut
  | mixedValue
  deriving Repr, DecidableEq, Inhabited

namespace Construct

/-- All constructs. -/
def every : List Construct :=
  [.literal, .object, .objectKey, .objectValue, .array, .arrayItem, .inlineNote,
    .inlineNoteText, .blockNote, .blockNoteText, .keyShortcut, .typesShortcut,
    .mixedValue]

/-- Objects and arrays, which count towards the nesting of a document. -/
def isContainer : Construct → Bool
  | .object | .array => true
  | _ => false

/-- What wraps a value or a key inside a container and closes together with it. -/
def isWrapper : Construct → Bool
  | .arrayItem | .objectValue | .objectKey => true
  | _ => false

/-- The text of an annotation. -/
def isNoteText : Construct → Bool
  | .inlineNoteText | .blockNoteText => true
  | _ => false

end Construct

/-- What an event reports. -/
inductive EventKind where
  | opening (construct : Construct)
  | closing (construct : Construct)
  | newLine
  | endTop
  deriving Repr, DecidableEq, Inhabited

namespace EventKind

/-- All kinds, each construct's two together. -/
def every : List EventKind :=
  Construct.every.flatMap (fun c => [.opening c, .closing c]) ++ [.newLine, .endTop]

/-- Whether the event opens a construct. -/
def isBegin : EventKind → Bool
  | .opening _ => true
  | _ => false

/-- The kind that closes what this kind opens. -/
def pair? : EventKind → Option EventKind
  | .opening c => some (.closing c)
  | _ => none

end EventKind

/-- One event: its kind and the bytes it spans, `start` included and `stop` not. -/
structure Event where
  kind : EventKind
  start : Nat
  stop : Nat
  deriving Repr, DecidableEq, Inhabited

/-- An event of a document. -/
structure Mark where
  source : Source
  event : Event
  deriving DecidableEq, Inhabited

namespace Mark

/-- Where the marked bytes begin. -/
def start (m : Mark) : Nat := m.event.start

/-- Where the marked bytes end. -/
def stop (m : Mark) : Nat := m.event.stop

/-- The kind of the event. -/
def kind (m : Mark) : EventKind := m.event.kind

/-- The marked bytes. -/
def bytes (m : Mark) : Bytes := m.source.content.slice m.start m.stop

/-- The marked bytes as text. -/
def text (m : Mark) : String := m.bytes.toText

end Mark
end ExampleSchema
