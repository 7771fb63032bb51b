import ExampleSchema.Event
import Mathlib.Data.List.Basic

/-!
# Histories of events

The events of a document nest: what was opened last is closed first.  `Event.track` follows the open
constructs through a list of events and fails at an event that does not fit, and `Event.AreBalanced`
says that a list of events opens and closes everything by itself.

A scan reports its events one at a time, so what can be shown of it is a `History`: what is open, how
far the events reach, and the events so far, the last one first.

* `History.track_eq`: the events lead to what is open.
* `History.pairwise_stop`, `History.stop_le`: they end one after the other, and none beyond the reach.
* `History.exists_opening`: each open construct has its opening event, and whatever has happened since
  is balanced up to the constructs opened inside and begins no earlier.
-/

namespace ExampleSchema

/-- The open constructs after an event, innermost first, each with its first byte.  Only the construct
opened last can be closed, by an event that repeats its first byte. -/
def Event.track (opened : List (Construct × Nat)) (e : Event) : Option (List (Construct × Nat)) :=
  match e.kind, opened with
  | .opening c, opened => some ((c, e.start) :: opened)
  | .closing c, (construct, start) :: rest =>
    if construct = c ∧ start = e.start then some rest else none
  | .closing _, [] => none
  | .newLine, opened | .endTop, opened => some opened

/-- The open constructs after some events. -/
def Event.trackAll (opened : List (Construct × Nat)) (events : List Event) :
    Option (List (Construct × Nat)) := events.foldlM Event.track opened

/-- Everything that the events open they close, and they close nothing else. -/
def Event.AreBalanced (events : List Event) : Prop := Event.trackAll [] events = some []

theorem Event.trackAll_append (opened : List (Construct × Nat)) (events more : List Event) :
    Event.trackAll opened (events ++ more) =
      (Event.trackAll opened events).bind fun opened => Event.trackAll opened more :=
  List.foldlM_append

theorem Event.trackAll_append_singleton {opened opened' : List (Construct × Nat)}
    {events : List Event} (h : Event.trackAll opened events = some opened') (e : Event) :
    Event.trackAll opened (events ++ [e]) = Event.track opened' e := by
  rw [trackAll_append, h, Option.bind_some]
  exact bind_pure (Event.track opened' e)

namespace Scan

/-- What is open after some events, the last one first, that reach no further than some offset. -/
inductive History : List (Construct × Nat) → Nat → List Event → Prop
  | start {reach : Nat} : History [] reach []
  | opening {opened : List (Construct × Nat)} {construct : Construct} {start reach : Nat}
      {events : List Event} (before : History opened start events) (hreach : start ≤ reach) :
      History ((construct, start) :: opened) reach (⟨.opening construct, start, start⟩ :: events)
  | closing {opened : List (Construct × Nat)} {construct : Construct} {start stop reach : Nat}
      {events : List Event} (before : History ((construct, start) :: opened) stop events)
      (hreach : stop ≤ reach) :
      History opened reach (⟨.closing construct, start, stop⟩ :: events)
  | newLine {opened : List (Construct × Nat)} {start reach : Nat} {events : List Event}
      (before : History opened start events) (hreach : start + 1 ≤ reach) :
      History opened reach (⟨.newLine, start, start + 1⟩ :: events)

namespace History

variable {opened : List (Construct × Nat)} {reach : Nat} {events : List Event}

theorem mono (h : History opened reach events) {more : Nat} (hle : reach ≤ more) :
    History opened more events := by
  cases h with
  | start => exact .start
  | opening before hreach => exact .opening before (Nat.le_trans hreach hle)
  | closing before hreach => exact .closing before (Nat.le_trans hreach hle)
  | newLine before hreach => exact .newLine before (Nat.le_trans hreach hle)

/-- Part of a history is a history. -/
theorem of_append {later : List Event} (h : History opened reach (later ++ events)) :
    ∃ opened, History opened reach events := by
  induction later generalizing opened reach with
  | nil => exact ⟨opened, h⟩
  | cons e later ih =>
    cases h with
    | opening before hreach | closing before hreach =>
      obtain ⟨opened, h⟩ := ih before
      exact ⟨opened, h.mono hreach⟩
    | newLine before hreach =>
      obtain ⟨opened, h⟩ := ih before
      exact ⟨opened, h.mono (Nat.le_of_succ_le hreach)⟩

/-! ## What is open -/

/-- The events of a history lead to what is open. -/
theorem track_eq (h : History opened reach events) :
    Event.trackAll [] events.reverse = some opened := by
  induction h with
  | start => rfl
  | opening _ _ ih | closing _ _ ih | newLine _ _ ih =>
    rw [List.reverse_cons, Event.trackAll_append_singleton ih]
    simp [Event.track]

/-- What is open begins within reach. -/
theorem start_le (h : History opened reach events) : ∀ o ∈ opened, o.2 ≤ reach := by
  induction h with
  | start => simp
  | opening _ hreach ih =>
    rw [List.forall_mem_cons]
    exact ⟨hreach, fun o ho => Nat.le_trans (ih o ho) hreach⟩
  | closing _ hreach ih => exact fun o ho => Nat.le_trans (ih o (List.mem_cons_of_mem _ ho)) hreach
  | newLine _ hreach ih => exact fun o ho => Nat.le_trans (ih o ho) (Nat.le_of_succ_le hreach)

/-- What is open further inside begins later. -/
theorem pairwise_start (h : History opened reach events) :
    opened.Pairwise fun inner outer => outer.2 ≤ inner.2 := by
  induction h with
  | start => exact .nil
  | opening before _ ih => exact List.pairwise_cons.2 ⟨before.start_le, ih⟩
  | closing _ _ ih => exact (List.pairwise_cons.1 ih).2
  | newLine _ _ ih => exact ih

/-! ## Where events end -/

/-- No event of a history ends beyond its reach. -/
theorem stop_le (h : History opened reach events) : ∀ e ∈ events, e.stop ≤ reach := by
  induction h with
  | start => simp
  | opening _ hreach ih | closing _ hreach ih =>
    rw [List.forall_mem_cons]
    exact ⟨hreach, fun e he => Nat.le_trans (ih e he) hreach⟩
  | newLine _ hreach ih =>
    rw [List.forall_mem_cons]
    exact ⟨hreach, fun e he => Nat.le_trans (ih e he) (Nat.le_of_succ_le hreach)⟩

/-- Events end one after the other. -/
theorem pairwise_stop (h : History opened reach events) :
    events.Pairwise fun later earlier => earlier.stop ≤ later.stop := by
  induction h with
  | start => exact .nil
  | opening before _ ih | closing before _ ih => exact List.pairwise_cons.2 ⟨before.stop_le, ih⟩
  | newLine before _ ih =>
    exact List.pairwise_cons.2 ⟨fun e he => Nat.le_succ_of_le (before.stop_le e he), ih⟩

/-- An opening event is an empty span. -/
theorem start_eq_stop (h : History opened reach events) :
    ∀ e ∈ events, e.kind.isBegin = true → e.start = e.stop := by
  induction h with
  | start => simp
  | opening _ _ ih | closing _ _ ih | newLine _ _ ih =>
    rw [List.forall_mem_cons]
    exact ⟨by simp [EventKind.isBegin], ih⟩

/-- No event begins after its end. -/
theorem start_le_stop (h : History opened reach events) : ∀ e ∈ events, e.start ≤ e.stop := by
  induction h with
  | start => simp
  | opening _ _ ih =>
    rw [List.forall_mem_cons]
    exact ⟨Nat.le_refl _, ih⟩
  | closing before _ ih =>
    rw [List.forall_mem_cons]
    exact ⟨before.start_le _ (List.mem_cons_self ..), ih⟩
  | newLine _ _ ih =>
    rw [List.forall_mem_cons]
    exact ⟨Nat.le_succ _, ih⟩

/-- A line end lies within reach. -/
theorem start_lt (h : History opened reach events) : ∀ e ∈ events, e.kind = .newLine → e.start < reach := by
  induction h with
  | start => exact nofun
  | opening _ hreach ih | closing _ hreach ih =>
    exact List.forall_mem_cons.2 ⟨nofun, fun e he hkind => Nat.lt_of_lt_of_le (ih e he hkind) hreach⟩
  | newLine _ hreach ih =>
    refine List.forall_mem_cons.2 ⟨fun _ => hreach, fun e he hkind => ?_⟩
    exact Nat.lt_trans (ih e he hkind) hreach

/-- A history does not report the end of its document. -/
theorem kind_ne_endTop (h : History opened reach events) : ∀ e ∈ events, e.kind ≠ .endTop := by
  induction h with
  | start => simp
  | opening _ _ ih | closing _ _ ih | newLine _ _ ih =>
    rw [List.forall_mem_cons]
    exact ⟨by simp, ih⟩

/-! ## Since something was opened -/

/-- **What is open has its opening event.**  The events since then lead to what was opened inside, and
begin no earlier. -/
theorem exists_opening {inside outside : List (Construct × Nat)} {construct : Construct} {start : Nat}
    (h : History (inside ++ (construct, start) :: outside) reach events) :
    ∃ since earlier, events = since ++ ⟨.opening construct, start, start⟩ :: earlier ∧
      Event.trackAll [] since.reverse = some inside ∧ ∀ e ∈ since, start ≤ e.start := by
  generalize hopened : inside ++ (construct, start) :: outside = opened at h
  induction h generalizing inside with
  | start => simp at hopened
  | @opening opened c first reach events before hreach ih =>
    rcases inside with _ | ⟨top, inside⟩
    · obtain ⟨⟨⟩, rfl⟩ := List.cons.inj hopened
      exact ⟨[], events, rfl, rfl, by simp⟩
    · obtain ⟨rfl, rfl⟩ := List.cons.inj hopened
      obtain ⟨since, earlier, rfl, htrack, hstart⟩ := ih rfl
      refine ⟨_ :: since, earlier, rfl, ?_, ?_⟩
      · rw [List.reverse_cons, Event.trackAll_append_singleton htrack]
        rfl
      · have hfirst : start ≤ first := before.start_le (construct, start) (by simp)
        exact List.forall_mem_cons.2 ⟨hfirst, hstart⟩
  | @closing opened c first stop reach events before hreach ih =>
    subst hopened
    -- What is being closed was opened inside, so it begins later.
    obtain ⟨since, earlier, rfl, htrack, hstart⟩ := @ih ((c, first) :: inside) rfl
    refine ⟨_ :: since, earlier, rfl, ?_, ?_⟩
    · rw [List.reverse_cons, Event.trackAll_append_singleton htrack]
      simp [Event.track]
    · have hfirst : start ≤ first :=
        (List.pairwise_cons.1 before.pairwise_start).1 (construct, start) (by simp)
      exact List.forall_mem_cons.2 ⟨hfirst, hstart⟩
  | @newLine opened first reach events before hreach ih =>
    obtain ⟨since, earlier, rfl, htrack, hstart⟩ := ih hopened
    subst hopened
    refine ⟨_ :: since, earlier, rfl, ?_, ?_⟩
    · rw [List.reverse_cons, Event.trackAll_append_singleton htrack]
      rfl
    · have hfirst : start ≤ first := before.start_le (construct, start) (by simp)
      exact List.forall_mem_cons.2 ⟨hfirst, hstart⟩

/-- **Each closing event has its opening event.**  It repeats the first byte of that event, and what
lies between the two is balanced and lies within the span. -/
theorem exists_partner {construct : Construct} {start stop : Nat} {later : List Event}
    (h : History opened reach (later ++ ⟨.closing construct, start, stop⟩ :: events)) :
    ∃ inner earlier, events = inner ++ ⟨.opening construct, start, start⟩ :: earlier ∧
      Event.AreBalanced inner.reverse ∧ ∀ e ∈ inner, start ≤ e.start ∧ e.stop ≤ stop := by
  obtain ⟨opened, h⟩ := h.of_append
  cases h with
  | closing before hreach =>
    obtain ⟨inner, earlier, rfl, htrack, hstart⟩ := @exists_opening _ _ [] _ _ _ before
    have hstop := before.stop_le
    exact ⟨inner, earlier, rfl, htrack, fun e he => ⟨hstart e he, hstop e (by simp [he])⟩⟩

end History
end Scan
end ExampleSchema
