import ExampleSchema.Constraint.Enumeration
import ExampleSchema.Scan.Run

/-!
# Enum rules

A rule with a name lists literals for the `enum` rules that name it.  Its document is an array of
literals; a note on the line of an item is the comment of the item and has no rules.
-/

namespace ExampleSchema

/-- What is read of an enum rule. -/
structure EnumReader where
  /-- The items so far and their comments, the last one first. -/
  items : List (Mark × Option String) := []
  isInArray : Bool := false
  isInNote : Bool := false
  /-- Whether a note would describe the last item. -/
  isCommentable : Bool := false
  deriving Inhabited

namespace EnumReader

/-- Gives the last item a comment, if a note describes it.  A text of blanks is no comment. -/
def takeText (r : EnumReader) (mark : Mark) : EnumReader :=
  let text := mark.bytes.trim.toText
  match r.items with
  | (item, _) :: rest =>
    if r.isCommentable && !text.isEmpty then { r with items := (item, some text) :: rest } else r
  | [] => r

/-- Takes an event of a note. -/
def addToNote (r : EnumReader) (mark : Mark) : Outcome EnumReader :=
  match mark.kind with
  | .opening .object => .error (Cause.rulesInEnumRule.on mark)
  | .closing .inlineNoteText | .closing .blockNoteText => .ok (r.takeText mark)
  | .closing .inlineNote | .closing .blockNote => .ok { r with isInNote := false }
  | _ => .ok r

/-- Takes an event outside notes. -/
def addEvent (r : EnumReader) (mark : Mark) : Outcome EnumReader :=
  match mark.kind, r.isInArray with
  | .opening .array, false => .ok { r with isInArray := true }
  | .closing .array, true => .ok { r with isInArray := false }
  | .closing .literal, true =>
    .ok { r with items := (mark, none) :: r.items, isCommentable := true }
  | .opening .inlineNote, _ | .opening .blockNote, _ => .ok { r with isInNote := true }
  | .newLine, _ => .ok { r with isCommentable := false }
  | .opening .literal, _ | .opening .arrayItem, _ | .closing .arrayItem, _ | .endTop, _ => .ok r
  | _, _ => .error (Cause.enumRuleNotLiterals.on mark)

/-- Takes an event. -/
def add (r : EnumReader) (mark : Mark) : Outcome EnumReader :=
  if r.isInNote then r.addToNote mark else r.addEvent mark

end EnumReader

/-- Loads an enum rule. -/
def Enumeration.load (source : Source) : Outcome Enumeration := do
  let reader ← Scan.foldMarks {} source EnumReader.add {}
  reader.items.reverse.foldlM (fun (e : Enumeration) (mark, comment?) =>
    Verdict.on (e.append mark.bytes comment?) mark) {}

end ExampleSchema
