import ExampleSchema.Scan.Step

/-!
# Scans

A scan runs over the bytes of a document and yields its events: all of them, or those before the
first byte at which the document is hopeless, together with the cause.

* `Scan.read`: the events and what stopped the scan.
* `Scan.foldMarks`, `Scan.marks`: a fold over the events of a document, and the events themselves.
* `Scan.length`: how many bytes at the start of a text are a document.
-/

namespace ExampleSchema
namespace Scan

/-- Why a scan stopped, and the offset of the byte it stopped before. -/
structure Failure where
  cause : Cause
  offset : Nat
  deriving DecidableEq

/-- The problem of a failed scan of a document. -/
def Failure.problem (f : Failure) (source : Source) : Problem := ⟨f.cause, some ⟨source, f.offset⟩⟩

/-- What a scan yields. -/
structure Reading where
  events : List Event
  failure : Option Failure
  deriving DecidableEq

/-- Runs over the bytes from offset `i` on. -/
def run (o : Options) (s : State) (i : Nat) : Bytes → State × Option Failure
  | [] =>
    match s.conclude i with
    | .ok s => (s, none)
    | .error cause => (s, some ⟨cause, i⟩)
  | b :: rest =>
    if s.mode = .done then (s, none)
    else
      match s.feed o b i with
      | .ok s => run o s (i + 1) rest
      | .error cause => (s, some ⟨cause, i⟩)

/-- Reads a text. -/
def read (o : Options) (text : Bytes) : Reading :=
  let (s, failure) := run o {} 0 text
  ⟨s.events, failure⟩

/-- Folds a step over the events of a document.  The step may fail first; only when it has taken all
events does the failure of the scan itself count. -/
def foldMarks {σ : Type} (o : Options) (source : Source) (step : σ → Mark → Outcome σ) (start : σ) :
    Outcome σ := do
  let reading := read o source.content
  let result ← reading.events.foldlM (fun state event => step state ⟨source, event⟩) start
  match reading.failure with
  | some failure => throw (failure.problem source)
  | none => return result

/-- The events of a whole document. -/
def marks (o : Options) (source : Source) : Outcome (List Mark) :=
  List.reverse <$> foldMarks o source (fun marks mark => .ok (mark :: marks)) []

/-- How many bytes the document at the start of a text takes, its notes included.  Anything may
follow it. -/
def length (source : Source) : Outcome Nat :=
  let reading := read { lengthOnly := true } source.content
  match reading.failure, reading.events.find? (·.kind = .endTop) with
  | some failure, _ => .error (failure.problem source)
  | none, some event => .ok event.start
  | none, none => .error (Cause.fault .noEndOfTop).anywhere

end Scan
end ExampleSchema
