import ExampleSchema.Error.Cause
import ExampleSchema.Event
import ExampleSchema.Text.Blank

/-!
# Problems and reports

A problem is a cause with, where it is known, the place in a document it points at.  A layer that
does not know places raises bare causes; the layer around it anchors them, either in any case
(`on`) or only where no place is known yet (`orOn`).

A `Report` is a problem with a place, laid out for reading: the message, the line and the name of
the document, the text of the line, and an arrow below the column.
-/

namespace ExampleSchema

/-- A place in a document. -/
structure Location where
  source : Source
  offset : Nat
  deriving DecidableEq, Inhabited

/-- The place where a mark begins. -/
def Mark.location (m : Mark) : Location := ⟨m.source, m.start⟩

/-- A cause and the place it points at. -/
structure Problem where
  cause : Cause
  location : Option Location := none
  deriving DecidableEq, Inhabited

namespace Problem

/-- The code of the cause. -/
def code (p : Problem) : ErrorCode := p.cause.code

/-- The wording of the cause. -/
def message (p : Problem) : String := p.cause.message

/-- The problem, pointing at a mark. -/
def on (p : Problem) (m : Mark) : Problem := { p with location := some m.location }

/-- The problem, pointing at a place unless it points somewhere already. -/
def orLocation (p : Problem) (location : Location) : Problem :=
  { p with location := p.location.or (some location) }

/-- The problem, pointing at a mark unless it points somewhere already. -/
def orOn (p : Problem) (m : Mark) : Problem := p.orLocation m.location

@[simp] theorem cause_on (p : Problem) (m : Mark) : (p.on m).cause = p.cause := rfl

@[simp] theorem cause_orOn (p : Problem) (m : Mark) : (p.orOn m).cause = p.cause := rfl

@[simp] theorem location_on (p : Problem) (m : Mark) : (p.on m).location = some m.location := rfl

/-- The message with its code, on one line. -/
def line (code : ErrorCode) (message : String) : String := s!"{message} (code {code.number})"

end Problem

/-- The cause, pointing at a mark. -/
def Cause.on (c : Cause) (m : Mark) : Problem := ⟨c, some m.location⟩

/-- The cause, pointing nowhere. -/
def Cause.anywhere (c : Cause) : Problem := ⟨c, none⟩

/-- The outcome of something that can fail at a place. -/
abbrev Outcome := Except Problem

/-- The outcome of something that can fail and knows no places. -/
abbrev Verdict := Except Cause

namespace Verdict

/-- Failures point at a mark. -/
def on {α : Type} (v : Verdict α) (m : Mark) : Outcome α := v.mapError (·.on m)

/-- Failures point nowhere. -/
def anywhere {α : Type} (v : Verdict α) : Outcome α := v.mapError (·.anywhere)

end Verdict

namespace Outcome

/-- Failures that point nowhere point at a mark. -/
def orOn {α : Type} (o : Outcome α) (m : Mark) : Outcome α := o.mapError (·.orOn m)

/-- All failures point at a mark. -/
def on {α : Type} (o : Outcome α) (m : Mark) : Outcome α := o.mapError (·.on m)

end Outcome

/-- A problem laid out for reading. -/
structure Report where
  code : ErrorCode
  message : String
  sourceName : String
  line : Nat
  column : Nat
  sourceLine : String
  deriving DecidableEq

namespace Report

/-- The report of a message at a place. -/
def ofLocation (code : ErrorCode) (message : String) (location : Location) : Report where
  code := code
  message := message
  sourceName := location.source.name
  line := location.source.line location.offset
  column := location.source.column location.offset
  sourceLine := (location.source.lineAt location.offset).toText

/-- The report as text.  The arrow stands below the column when the line starts below its mark. -/
def text (r : Report) : String :=
  s!"ERROR (code {r.code.number}): {r.message}\n"
    ++ s!"\tin line {r.line} on file {r.sourceName}\n"
    ++ s!"\t> {trimRight r.sourceLine}\n"
    ++ "\t--" ++ String.ofList (List.replicate (r.column - 1) '-') ++ "^"

end Report

namespace Problem

/-- The report of a problem that points somewhere. -/
def report? (p : Problem) : Option Report :=
  p.location.map (Report.ofLocation p.code p.message)

/-- The problem for a reader: its report if it points somewhere, the message with its code if not. -/
def text (p : Problem) : String :=
  match p.report? with
  | some report => report.text
  | none => line p.code p.message

end Problem
end ExampleSchema
