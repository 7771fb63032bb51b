import ExampleSchema.Scan.Run

/-!
# Reading events one at a time

A `Reader` runs over a document only as far as it is asked to: `Reader.next` answers with the next event,
with the failure of the scan, or with `none` once there is nothing more to tell.
-/

namespace ExampleSchema
namespace Scan

/-- The events that a state has and an earlier state has not. -/
def State.since (s earlier : State) : List Event :=
  (s.emitted.take (s.emitted.length - earlier.emitted.length)).reverse

/-- A scan that waits to be asked for its next event. -/
structure Reader where
  options : Options
  state : State := {}
  /-- The offset of the next byte. -/
  offset : Nat := 0
  /-- The bytes to come. -/
  rest : Bytes := []
  /-- The events that were read but not asked for yet. -/
  queue : List Event := []
  /-- Whether the document has ended or the scan has failed. -/
  finished : Bool := false
  deriving Inhabited

namespace Reader

/-- What a reader answers when it is asked for the next event. -/
abbrev Answer := Except Failure (Option Event)

/-- A reader at the start of a text. -/
def start (options : Options) (text : Bytes) : Reader := { options, rest := text }

/-- Runs over the bytes up to one that yields events, answers with the first of them and keeps the
others. -/
def seek (o : Options) (s : State) (i : Nat) : Bytes → Answer × Reader
  | [] =>
    let ended : Reader := { options := o, state := s, offset := i, finished := true }
    match s.conclude i with
    | .error cause => (.error ⟨cause, i⟩, ended)
    | .ok s' =>
      match s'.since s with
      | event :: queue => (.ok (some event), { ended with queue })
      | [] => (.ok none, ended)
  | b :: rest =>
    match s.feed o b i with
    | .error cause =>
      (.error ⟨cause, i⟩, { options := o, state := s, offset := i + 1, rest, finished := true })
    | .ok s' =>
      let ended := s'.mode = .done
      match s'.since s with
      | event :: queue =>
        (.ok (some event), ⟨o, s', i + 1, rest, queue, ended⟩)
      | [] => if ended then (.ok none, ⟨o, s', i + 1, rest, [], true⟩) else seek o s' (i + 1) rest

/-- Answers with the next event. -/
def next (r : Reader) : Answer × Reader :=
  match r.queue with
  | event :: queue => (.ok (some event), { r with queue })
  | [] => if r.finished then (.ok none, r) else seek r.options r.state r.offset r.rest

/-- The answer to a question after some others. -/
def answer (r : Reader) : Nat → Answer
  | 0 => r.next.1
  | asked + 1 => r.next.2.answer asked

end Reader
end Scan
end ExampleSchema
