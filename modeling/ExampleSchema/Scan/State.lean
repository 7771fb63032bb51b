import ExampleSchema.Error.Problem

/-!
# The state of a scan

A document is read one byte at a time.  Between bytes, everything about the part already read that
still matters is in a `State`:

* the `Mode`, what is being read right now;
* the places to `resume`, innermost first: where reading goes on when the current construct ends;
* the constructs that are `opened` and not yet closed, innermost first, each with its first byte;
* three offsets: the end of the last name of a shortcut, the end of the visible text of a note, and
  the end of the last thing that counts towards the length of the document;
* the events `emitted` so far, the last one first.

A `Place` is a mode between tokens.  Only places are ever resumed.  How deep containers are nested
and whether a note is open is read off the opened constructs.
-/

namespace ExampleSchema
namespace Scan

/-- What may be read. -/
structure Options where
  /-- The document ends with its value; what follows it is ignored. -/
  lengthOnly : Bool := false
  /-- Only plain JSON: no comments, notes or shortcuts. -/
  plain : Bool := false
  deriving Repr, DecidableEq, Inhabited

/-- How deep objects and arrays may nest, those inside notes included. -/
def maxDepth : Nat := 256

/-- The two kinds of notes: to the end of the line, and up to a closing mark. -/
inductive NoteKind where
  | inline
  | block
  deriving Repr, DecidableEq, Inhabited

/-- The note as a construct. -/
def NoteKind.construct : NoteKind → Construct
  | .inline => .inlineNote
  | .block => .blockNote

/-- The text of the note as a construct. -/
def NoteKind.textConstruct : NoteKind → Construct
  | .inline => .inlineNoteText
  | .block => .blockNoteText

/-- The kind of note that a construct is. -/
def NoteKind.ofConstruct? : Construct → Option NoteKind
  | .inlineNote => some .inline
  | .blockNote => some .block
  | _ => none

/-- A mode between tokens. -/
inductive Place where
  /-- Before the top-level value. -/
  | start
  /-- After the top-level value. -/
  | finish
  | objectStart
  | objectKey
  | objectColon
  | objectValue
  | objectNext
  | arrayStart
  | arrayItem
  | arrayNext
  /-- After the rules of a note. -/
  | afterRules (kind : NoteKind)
  deriving Repr, DecidableEq, Inhabited

/-- The part of a number that was read last. -/
inductive NumberPart where
  | minus
  | zero
  | whole
  | point
  | fraction
  | exponent
  | exponentSign
  | exponentDigits
  deriving Repr, DecidableEq, Inhabited

/-- Whether the number may end here. -/
def NumberPart.isComplete : NumberPart → Bool
  | .zero | .whole | .fraction | .exponentDigits => true
  | .minus | .point | .exponent | .exponentSign => false

/-- The part of a type shortcut that was read last. -/
inductive ShortcutPart where
  | mark
  | name
  | afterName
  | afterBar
  deriving Repr, DecidableEq, Inhabited

/-- What is being read. -/
inductive Mode where
  | between (place : Place)
  /-- The document has ended. -/
  | done
  | string
  | escape
  /-- A numeric escape of which some digits were read. -/
  | unicode (digits : Nat)
  | number (part : NumberPart)
  /-- A word of which the letter `next` and then `rest` are still to come. -/
  | keyword (word : Keyword) (next : UInt8) (rest : Bytes)
  | shortcut (part : ShortcutPart)
  | ruleName
  | keyMark
  | keyName
  | commentStart
  /-- The number signs that start a comment. -/
  | hashes (count : Nat)
  | lineComment
  /-- A comment up to three number signs, some of which were just read. -/
  | blockComment (hashes : Nat)
  | inlineStart
  | inlineDash
  | inlineText
  | blockStart
  | blockStartStar
  | blockDash
  | blockText
  | blockTextStar
  | blockAfterRulesStar
  deriving Repr, DecidableEq, Inhabited

/-- The setting that a message names for a place. -/
def Place.setting : Place → Setting
  | .start => .schemaStart
  | .finish => .afterTopValue
  | .objectStart | .objectKey => .objectKeyStart
  | .objectColon => .afterObjectKey
  | .objectValue => .objectValueStart
  | .objectNext => .afterObjectValue
  | .arrayStart | .arrayItem => .arrayItemStart
  | .arrayNext => .afterArrayItem
  | .afterRules .inline => .inlineNote
  | .afterRules .block => .blockNote

/-- The setting that a message names for a mode. -/
def Mode.setting : Mode → Setting
  | .between place => place.setting
  | .done => .afterTopValue
  | .string | .escape | .unicode _ => .string
  | .number _ => .number
  | .keyword word _ _ => .keyword word
  | .shortcut _ => .typeShortcut
  | .ruleName => .ruleName
  | .keyMark | .keyName => .keyShortcut
  | .commentStart => .commentStart
  | .hashes _ | .lineComment | .blockComment _ => .comment
  | .inlineStart | .inlineDash | .inlineText => .inlineNote
  | .blockStart | .blockStartStar | .blockDash | .blockText | .blockTextStar
  | .blockAfterRulesStar => .blockNote

/-- Whether a comment may start with this byte at a place.  A note needs a value before it, and
nothing may stand between a key and its value. -/
def Place.allowsComment (place : Place) (b : UInt8) : Bool :=
  match place with
  | .start => Bytes.char b == '#'
  | .objectColon | .objectValue | .afterRules _ => false
  | _ => true

/-- The part of a number that a byte continues it with. -/
def NumberPart.next? (part : NumberPart) (b : UInt8) :
    Option NumberPart :=
  let c := Bytes.char b
  match part with
  | .minus => if c == '0' then some .zero else if c.isDigit then some .whole else none
  | .zero =>
    if c == '.' then some .point else if c == 'e' || c == 'E' then some .exponent else none
  | .whole =>
    if c.isDigit then some .whole
    else if c == '.' then some .point
    else if c == 'e' || c == 'E' then some .exponent
    else none
  | .point => if c.isDigit then some .fraction else none
  | .fraction =>
    if c.isDigit then some .fraction
    else if c == 'e' || c == 'E' then some .exponent
    else none
  | .exponent =>
    if c == '+' || c == '-' then some .exponentSign
    else if c.isDigit then some .exponentDigits
    else none
  | .exponentSign | .exponentDigits => if c.isDigit then some .exponentDigits else none

/-- Why a byte that does not continue a number is refused, where the number cannot end. -/
def NumberPart.refusal? (part : NumberPart) (b : UInt8) : Option Hint :=
  match part with
  | .minus => some .digit
  | .zero => if Bytes.isDigit b then some .noLeadingZero else none
  | .point => some .fractionDigit
  | .exponent | .exponentSign => some .exponentDigit
  | .whole | .fraction | .exponentDigits => none

/-- Everything that matters about the part of the document already read. -/
structure State where
  mode : Mode := .between .start
  resume : List Place := []
  opened : List (Construct × Nat) := []
  nameEnd : Nat := 0
  textEnd : Nat := 0
  valueEnd : Nat := 0
  emitted : List Event := []
  deriving Repr, DecidableEq, Inhabited

namespace State

/-- How many containers are open. -/
def depth (s : State) : Nat := s.opened.countP fun o => o.1.isContainer

/-- The note that is open. -/
def note? (s : State) : Option NoteKind := s.opened.findSome? fun o => NoteKind.ofConstruct? o.1

/-- Whether rules are being read rather than example values. -/
def inNote (s : State) : Bool := s.note?.isSome

/-- The events so far, the first one first. -/
def events (s : State) : List Event := s.emitted.reverse

/-- Reports an event. -/
def emit (s : State) (kind : EventKind) (start stop : Nat) : State :=
  { s with emitted := ⟨kind, start, stop⟩ :: s.emitted }

/-- Opens a construct at its first byte. -/
def begin (s : State) (construct : Construct) (start : Nat) : State :=
  { s with opened := (construct, start) :: s.opened }.emit (.opening construct) start start

/-- Closes the innermost construct. -/
def close (s : State) (stop : Nat) : Verdict State :=
  match s.opened with
  | [] => .error (.fault .nothingOpen)
  | (construct, start) :: rest =>
    .ok ({ s with opened := rest }.emit (.closing construct) start stop)

/-- Closes the innermost construct if it is of some class. -/
def closeIf (s : State) (select : Construct → Bool) (stop : Nat) : Verdict State :=
  match s.opened with
  | (construct, _) :: _ => if select construct then s.close stop else .ok s
  | [] => .ok s

/-- Notes how far the document reaches when nothing is open any more. -/
def settle (s : State) (stop : Nat) : State :=
  if s.opened.isEmpty then { s with valueEnd := stop } else s

/-- Closes a finished value or key together with what wraps it. -/
def endValue (s : State) (stop : Nat) : Verdict State := do
  let s ← s.close stop
  let s ← s.closeIf Construct.isWrapper stop
  return s.settle stop

/-- Closes the open note, and its text before it. -/
def closeNote (s : State) (stop : Nat) : Verdict State := do
  let s ← s.closeIf Construct.isNoteText s.textEnd
  let s ← s.close stop
  return s.settle stop

/-- Goes on at the innermost place to resume. -/
def resumeNext (s : State) : Verdict State :=
  match s.resume with
  | [] => .error (.fault .nothingToResume)
  | place :: rest => .ok { s with mode := .between place, resume := rest }

/-- Ends the document. -/
def stop (s : State) : State :=
  { s with mode := .done }.emit .endTop s.valueEnd s.valueEnd

end State
end Scan
end ExampleSchema
