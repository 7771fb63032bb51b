import ExampleSchema.Proofs.Scan.Step
import ExampleSchema.Scan.Reader

/-!
# What a scan yields

The events of a document nest and follow each other, whether or not the scan comes to the end.

* `read_history`: the events of a scan are a history, and the end of the document if it did not fail.
* `start_le_of_mem_read`, `offset_le_of_read`: events begin within the text, and a scan stops within it.
* `Reader.seek_tells`: asked again and again, a reader answers with the events of the scan, then with its
  failure or with nothing, and with nothing from then on.
* `Reading.IsOrderly`: how the events of a scan nest and follow each other.
* `read_isOrderly`: they do, and a reader tells them in this order.
-/

namespace ExampleSchema
namespace Scan

/-- The events of a scan are a history.  The end of the document comes after it if the scan did not
fail, and nothing is open then. -/
theorem read_history (o : Options) (text : Bytes) :
    ∃ opened events, History opened text.length events ∧
      ((opened = [] ∧ (read o text).failure = none ∧
          ∃ n, (read o text).events = events.reverse ++ [⟨.endTop, n, n⟩]) ∨
        ((read o text).failure ≠ none ∧ (read o text).events = events.reverse)) := by
  obtain ⟨hsound, hdone, -⟩ := @run_sound _ _ _ o text sound_start
  rw [Nat.zero_add] at hsound
  cases hsound with
  | running hfits hrec hle =>
    refine ⟨_, _, hrec.history.mono hle, Or.inr ⟨fun hnone => ?_, rfl⟩⟩
    rw [hdone.1 hnone] at hfits
    exact hfits
  | ended hmode n before hemitted hpast hbefore =>
    refine ⟨[], before, hbefore, Or.inl ⟨rfl, hdone.2 hmode, n, ?_⟩⟩
    change (run o {} 0 text).1.emitted.reverse = _
    rw [hemitted, List.reverse_cons]

/-- Apart from the end of the document, every event begins within the text. -/
theorem start_le_of_mem_read {o : Options} {text : Bytes} {e : Event} (he : e ∈ (read o text).events)
    (hkind : e.kind ≠ .endTop) : e.start ≤ text.length := by
  obtain ⟨opened, events, h, hread⟩ := read_history o text
  have hmem : e ∈ events := by
    rcases hread with ⟨-, -, n, hevents⟩ | ⟨-, hevents⟩
    · rw [hevents, List.mem_append, List.mem_reverse, List.mem_singleton] at he
      refine he.resolve_right ?_
      rintro rfl
      exact hkind rfl
    · rwa [hevents, List.mem_reverse] at he
  exact Nat.le_trans (h.start_le_stop e hmem) (h.stop_le e hmem)

/-- A run stops within its text. -/
theorem offset_le_of_run {o : Options} {s : State} {i : Nat} {text : Bytes} {f : Failure}
    (h : (run o s i text).2 = some f) : f.offset ≤ i + text.length := by
  induction text generalizing s i with
  | nil =>
    rw [run] at h
    split at h
    · cases h
    · obtain rfl := Option.some.inj h
      exact Nat.le_refl i
  | cons b rest ih =>
    rw [run] at h
    rw [List.length_cons]
    split at h
    · cases h
    split at h
    · have hle := ih h
      omega
    · obtain rfl := Option.some.inj h
      exact Nat.le_add_right i _

/-- A scan stops within its text. -/
theorem offset_le_of_read {o : Options} {text : Bytes} {f : Failure} (h : (read o text).failure = some f) :
    f.offset ≤ text.length := by
  have hle := offset_le_of_run (show (run o {} 0 text).2 = some f from h)
  rwa [Nat.zero_add] at hle

/-! ## Readers -/

/-- The events that a state has and an earlier one has not. -/
theorem State.since_eq {s earlier : State} {new : List Event}
    (h : s.emitted = new ++ earlier.emitted) : s.since earlier = new.reverse := by
  rw [since, h, List.length_append, Nat.add_sub_cancel, List.take_left]

theorem State.since_append_since {s middle earlier : State} (h : middle.emitted <:+ s.emitted)
    (hearlier : earlier.emitted <:+ middle.emitted) :
    middle.since earlier ++ s.since middle = s.since earlier := by
  obtain ⟨new, hnew⟩ := h
  obtain ⟨old, hold⟩ := hearlier
  rw [since_eq hnew.symm, since_eq hold.symm, ← List.reverse_append]
  refine (since_eq ?_).symm
  rw [List.append_assoc, hold, hnew]

theorem State.since_self (s : State) : s.since s = [] :=
  since_eq (List.nil_append s.emitted).symm

namespace Reader

/-- What is answered to a question after some others by a reader that tells some events, then a failure
if there is one, and then nothing. -/
def told (failure : Option Failure) : List Event → Nat → Answer
  | event :: _, 0 => .ok (some event)
  | _ :: events, asked + 1 => told failure events asked
  | [], 0 => match failure with
    | some failure => .error failure
    | none => .ok none
  | [], _ + 1 => .ok none

/-- The reader tells some events, then a failure if there is one, and then nothing. -/
def Tells (r : Reader) (events : List Event) (failure : Option Failure) : Prop :=
  ∀ asked, r.answer asked = told failure events asked

theorem Tells.of_next_eq {r r' : Reader} {events : List Event} {failure : Option Failure}
    (h : r'.Tells events failure) (hnext : r.next = r'.next) : r.Tells events failure := by
  intro asked
  rw [← h asked]
  cases asked with
  | zero => rw [answer, answer, hnext]
  | succ asked => rw [answer, answer, hnext]

theorem Tells.of_event {r r' : Reader} {event : Event} {events : List Event}
    {failure : Option Failure} (h : r'.Tells events failure)
    (hnext : r.next = (.ok (some event), r')) : r.Tells (event :: events) failure := by
  intro asked
  cases asked with
  | zero => rw [answer, hnext, told]
  | succ asked => rw [answer, hnext, told, h asked]

/-- What is in the queue is told first. -/
theorem Tells.of_queue {r : Reader} {queue events : List Event} {failure : Option Failure}
    (h : { r with queue := [] }.Tells events failure) (hqueue : r.queue = queue) :
    r.Tells (queue ++ events) failure := by
  induction queue generalizing r with
  | nil =>
    refine h.of_next_eq ?_
    rw [← hqueue]
  | cons event queue ih =>
    refine (@ih { r with queue } h rfl).of_event ?_
    rw [next, hqueue]

/-- A reader that has finished tells what is in its queue. -/
theorem tells_of_finished {r : Reader} (h : r.finished = true) : r.Tells r.queue none := by
  rw [← List.append_nil r.queue]
  refine Tells.of_queue (fun asked => ?_) rfl
  have hnext : next { r with queue := [] } = (.ok none, { r with queue := [] }) := by simp [next, h]
  induction asked with
  | zero => rw [answer, hnext, told]
  | succ asked ih =>
    rw [answer, hnext, ih]
    cases asked <;> rfl

/-- Nothing is told after the end or a failure. -/
theorem tells_of_ended {r r' : Reader} {failure : Option Failure} (hfinished : r'.finished = true)
    (hqueue : r'.queue = []) (hnext : r.next = (told failure [] 0, r')) : r.Tells [] failure := by
  intro asked
  cases asked with
  | zero => rw [answer, hnext]
  | succ asked =>
    have h := tells_of_finished hfinished asked
    rw [hqueue] at h
    rw [answer, hnext, h]
    cases asked <;> rfl

end Reader

/-- **A reader tells what is still to come of a scan.** -/
theorem Reader.seek_tells {past : List Event} {o : Options} {s : State} {i : Nat} {rest : Bytes}
    (h : Sound past i s) (hmode : s.mode ≠ .done) :
    Tells ⟨o, s, i, rest, [], false⟩ ((run o s i rest).1.since s) (run o s i rest).2 := by
  induction rest generalizing s i past with
  | nil =>
    have hnext : next ⟨o, s, i, [], [], false⟩ = seek o s i [] := rfl
    rw [seek] at hnext
    rw [run]
    cases hend : s.conclude i with
    | error cause =>
      rw [hend] at hnext
      rw [State.since_self]
      exact tells_of_ended rfl rfl hnext
    | ok s' =>
      rw [hend] at hnext
      dsimp only at hnext ⊢
      cases hsince : s'.since s with
      | nil =>
        rw [hsince] at hnext
        exact tells_of_ended rfl rfl hnext
      | cons event queue =>
        rw [hsince] at hnext
        exact (tells_of_finished rfl).of_event hnext
  | cons b rest ih =>
    have hnext : next ⟨o, s, i, b :: rest, [], false⟩ = seek o s i (b :: rest) := rfl
    rw [seek] at hnext
    rw [run, if_neg hmode]
    cases hfeed : s.feed o b i with
    | error cause =>
      rw [hfeed] at hnext
      rw [State.since_self]
      exact tells_of_ended rfl rfl hnext
    | ok s' =>
      rw [hfeed] at hnext
      dsimp only at hnext ⊢
      -- Whatever was reported before the byte is still there after it, and after the run.
      have hsound : Sound s.emitted (i + 1) s' := (State.feed_goes o b (h.refresh hmode)).of_ok hfeed
      by_cases hdone : s'.mode = .done
      · rw [run_of_done hdone]
        cases hsince : s'.since s with
        | nil =>
          rw [hsince] at hnext
          simp only [hdone, if_true] at hnext
          exact tells_of_ended rfl rfl hnext
        | cons event queue =>
          rw [hsince] at hnext
          exact (tells_of_finished (by simpa using hdone)).of_event hnext
      · have hrun := hsound.emitted_suffix_run o rest
        rw [← State.since_append_since hrun hsound.past_suffix]
        cases hsince : s'.since s with
        | nil =>
          rw [hsince] at hnext
          simp only [hdone, if_false] at hnext
          exact (ih hsound hdone).of_next_eq hnext
        | cons event queue =>
          rw [hsince] at hnext
          refine Tells.of_event ?_ hnext
          simp only [hdone]
          exact (ih hsound hdone).of_queue rfl

namespace Reader

theorem told_of_lt (failure : Option Failure) {events : List Event} {asked : Nat}
    (h : asked < events.length) : told failure events asked = .ok (some events[asked]) := by
  induction events generalizing asked with
  | nil => simp at h
  | cons event events ih =>
    cases asked with
    | zero => rfl
    | succ asked => exact ih (Nat.lt_of_succ_lt_succ h)

theorem told_length (failure : Option Failure) (events : List Event) :
    told failure events events.length = told failure [] 0 := by
  induction events with
  | nil => rfl
  | cons event events ih => exact ih

theorem told_of_gt (failure : Option Failure) {events : List Event} {asked : Nat}
    (h : events.length < asked) : told failure events asked = .ok none := by
  induction events generalizing asked with
  | nil =>
    obtain ⟨asked, rfl⟩ := Nat.exists_eq_add_of_lt h
    rfl
  | cons event events ih =>
    cases asked with
    | zero => simp at h
    | succ asked => exact ih (Nat.lt_of_succ_lt_succ h)

/-- What a reader answers from the first question on. -/
structure Retells (r : Reader) (reading : Reading) : Prop where
  /-- One event after the other comes first. -/
  events (asked : Nat) (h : asked < reading.events.length) :
    r.answer asked = .ok (some reading.events[asked])
  /-- Then comes the failure, if there is one. -/
  failure (f : Failure) (h : reading.failure = some f) :
    r.answer reading.events.length = .error f
  /-- There is nothing after the last event if the scan did not fail. -/
  ended (h : reading.failure = none) : r.answer reading.events.length = .ok none
  /-- There is nothing after that, however often the reader is asked. -/
  nothing (asked : Nat) (h : reading.events.length < asked) : r.answer asked = .ok none

theorem start_retells (o : Options) (text : Bytes) : (start o text).Retells (read o text) := by
  have htells : (start o text).Tells (read o text).events (read o text).failure := by
    have h := @seek_tells _ o _ _ text sound_start (by simp)
    rwa [State.since_eq (List.append_nil _).symm] at h
  constructor
  · intro asked h
    rw [htells asked, told_of_lt _ h]
  · intro f h
    rw [htells, told_length, h, told]
  · intro h
    rw [htells, told_length, h, told]
  · intro asked h
    rw [htells asked, told_of_gt _ h]

end Reader

/-! ## Order -/

/-- How the events of a scan nest and follow each other. -/
structure Reading.IsOrderly (r : Reading) (length : Nat) : Prop where
  /-- An opening event is an empty span at the first byte of its construct. -/
  opens : ∀ e ∈ r.events, e.kind.isBegin = true → e.start = e.stop
  /-- A closing event closes what was opened last and not closed yet, and repeats its first byte.  What
  lies between the two lies within the span of the construct. -/
  closes : ∀ before construct start stop after,
    r.events = before ++ ⟨.closing construct, start, stop⟩ :: after →
    ∃ earlier inner, before = earlier ++ ⟨.opening construct, start, start⟩ :: inner ∧
      Event.AreBalanced inner ∧ ∀ e ∈ inner, start ≤ e.start ∧ e.stop ≤ stop
  /-- Every event fits what is open before it, and nothing is left open if the scan did not fail. -/
  nests : ∃ opened, Event.trackAll [] r.events = some opened ∧ (r.failure = none → opened = [])
  /-- The last event is the end of the document if the scan did not fail. -/
  ends : r.failure = none ↔ ∃ before n, r.events = before ++ [⟨.endTop, n, n⟩]
  /-- Nothing follows the end of the document. -/
  endsOnce : ∀ before e after, r.events = before ++ e :: after → e.kind = .endTop → after = []
  /-- Apart from the end of the document, events end one after the other. -/
  ordered : (r.events.filter (·.kind ≠ .endTop)).Pairwise fun earlier later =>
    earlier.stop ≤ later.stop
  /-- Apart from the end of the document, no event ends beyond the end of the text. -/
  within : ∀ e ∈ r.events, e.kind ≠ .endTop → e.stop ≤ length

/-- A closing event among the events of a history has its opening event among those before. -/
theorem History.closes {opened : List (Construct × Nat)} {reach : Nat} {events : List Event}
    (h : History opened reach events) {before after : List Event} {construct : Construct}
    {start stop : Nat} (hsplit : events.reverse = before ++ ⟨.closing construct, start, stop⟩ :: after) :
    ∃ earlier inner, before = earlier ++ ⟨.opening construct, start, start⟩ :: inner ∧
      Event.AreBalanced inner ∧ ∀ e ∈ inner, start ≤ e.start ∧ e.stop ≤ stop := by
  have hevents : events = after.reverse ++ ⟨.closing construct, start, stop⟩ :: before.reverse := by
    rw [← List.reverse_reverse events, hsplit]
    simp
  rw [hevents] at h
  obtain ⟨inner, earlier, hbefore, hbalanced, hwithin⟩ := h.exists_partner
  refine ⟨earlier.reverse, inner.reverse, ?_, hbalanced, ?_⟩
  · rw [← List.reverse_reverse before, hbefore]
    simp
  · simpa using hwithin

/-- What a scan reports before its end or its failure is orderly. -/
theorem History.isOrderly {opened : List (Construct × Nat)} {length : Nat} {events : List Event}
    (h : History opened length events) (f : Failure) :
    Reading.IsOrderly ⟨events.reverse, some f⟩ length := by
  have hkind : ∀ e ∈ events.reverse, e.kind ≠ .endTop := fun e he =>
    h.kind_ne_endTop e (List.mem_reverse.1 he)
  constructor
  · exact fun e he => h.start_eq_stop e (List.mem_reverse.1 he)
  · exact fun before construct start stop after hsplit => h.closes hsplit
  · exact ⟨opened, h.track_eq, fun hnone => (by cases hnone)⟩
  · refine ⟨fun hnone => (by cases hnone), ?_⟩
    rintro ⟨before, n, hsplit⟩
    exact (hkind ⟨.endTop, n, n⟩ (by simp [show events.reverse = _ from hsplit]) rfl).elim
  · intro before e after hsplit hend
    exact (hkind e (by simp [show events.reverse = _ from hsplit]) hend).elim
  · exact (List.pairwise_reverse.2 h.pairwise_stop).filter _
  · exact fun e he _ => h.stop_le e (List.mem_reverse.1 he)

/-- What a scan that does not fail reports is orderly. -/
theorem History.isOrderly_of_end {length : Nat} {events : List Event} (h : History [] length events)
    (n : Nat) : Reading.IsOrderly ⟨events.reverse ++ [⟨.endTop, n, n⟩], none⟩ length := by
  have hkind : ∀ e ∈ events.reverse, e.kind ≠ .endTop := fun e he =>
    h.kind_ne_endTop e (List.mem_reverse.1 he)
  have horderly := h.isOrderly ⟨.emptySchema, 0⟩
  constructor
  · intro e he
    rcases List.mem_append.1 he with he | he
    · exact horderly.opens e he
    · obtain rfl := List.mem_singleton.1 he
      exact fun _ => rfl
  · intro before construct start stop after hsplit
    rcases List.append_eq_append_iff.1 hsplit with ⟨rest, hbefore, hrest⟩ | ⟨rest, hevents, hrest⟩
    · rcases rest with _ | ⟨e, rest⟩
      · cases hrest
      · obtain ⟨-, hnil⟩ := List.cons.inj hrest
        simp at hnil
    · rcases rest with _ | ⟨e, rest⟩
      · cases hrest
      · obtain ⟨rfl, -⟩ := List.cons.inj hrest
        exact h.closes hevents
  · refine ⟨[], ?_, fun _ => rfl⟩
    rw [Event.trackAll_append_singleton h.track_eq]
    rfl
  · exact ⟨fun _ => ⟨events.reverse, n, rfl⟩, fun _ => rfl⟩
  · intro before e after hsplit hend
    rcases List.append_eq_append_iff.1 hsplit with ⟨rest, hbefore, hrest⟩ | ⟨rest, hevents, hrest⟩
    · rcases rest with _ | ⟨e, rest⟩
      · exact (List.cons.inj hrest).2.symm
      · obtain ⟨-, hnil⟩ := List.cons.inj hrest
        simp at hnil
    · rcases rest with _ | ⟨e, rest⟩
      · exact (List.cons.inj hrest).2
      · obtain ⟨rfl, -⟩ := List.cons.inj hrest
        have he : events.reverse = _ := hevents
        exact (hkind e (by simp [he]) hend).elim
  · change ((events.reverse ++ [_]).filter _).Pairwise _
    rw [List.filter_append]
    simpa using horderly.ordered
  · intro e he hend
    rcases List.mem_append.1 he with he | he
    · exact horderly.within e he hend
    · obtain rfl := List.mem_singleton.1 he
      exact (hend rfl).elim

/-- **The events of a scan are orderly**, for every text and all options, and a reader that is asked for
them one at a time tells them in this order, then the failure of the scan if there is one, and then
nothing more. -/
theorem read_isOrderly (o : Options) (text : Bytes) :
    (read o text).IsOrderly text.length ∧ (Reader.start o text).Retells (read o text) := by
  refine ⟨?_, Reader.start_retells o text⟩
  obtain ⟨opened, events, h, ⟨rfl, hnone, n, hevents⟩ | ⟨hsome, hevents⟩⟩ := read_history o text
  · have horderly := h.isOrderly_of_end n
    rwa [← hevents, ← hnone] at horderly
  · obtain ⟨f, hf⟩ := Option.ne_none_iff_exists'.1 hsome
    have horderly := h.isOrderly f
    rwa [← hevents, ← hf] at horderly

end Scan
end ExampleSchema
