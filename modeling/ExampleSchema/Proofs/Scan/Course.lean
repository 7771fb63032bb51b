import ExampleSchema.Proofs.Scan.Value
import Mathlib.Data.List.Induction

/-!
# The course of a scan

Three things that hold of the events of every scan, whether or not it fails.  Values begin one after the other,
no two at one byte; a value that nothing encloses is the first of all; and no line ends
inside a note, nor does another note begin there.

* `Event.valueStarts`: where the values of some events begin.
* `Event.Follows`: an event fits those before it, and `Event.AreOrdered`: each of some events does.
* `Event.AreOrdered.le_of_open`: a value that nothing encloses is the first of all.
* `State.feed_runs`, `State.conclude_adds`: a byte keeps the events ordered, and so does the end of the document.
* `areOrdered_read`: the events of a scan are ordered.
-/

namespace ExampleSchema

open Scan (IsInNote)

/-- Whether the construct may enclose values. -/
def Construct.encloses : Construct → Bool
  | .object | .array | .inlineNote | .blockNote => true
  | _ => false

/-- Whether a note begins. -/
def EventKind.opensNote : EventKind → Bool
  | .opening .inlineNote | .opening .blockNote => true
  | _ => false

namespace Event

/-- Where a value begins, if the event opens one. -/
def valueStart? (e : Event) : Option Nat :=
  match e.kind with
  | .opening c => if c.isValue then some e.start else none
  | _ => none

theorem valueStart?_opening (c : Construct) (start stop : Nat) :
    valueStart? ⟨.opening c, start, stop⟩ = if c.isValue then some start else none := rfl

/-- Where the values begin that some events open. -/
def valueStarts (events : List Event) : List Nat := events.filterMap valueStart?

@[simp] theorem valueStarts_append_singleton (events : List Event) (e : Event) :
    valueStarts (events ++ [e]) = valueStarts events ++ e.valueStart?.toList := by
  rw [valueStarts, List.filterMap_append, valueStarts]
  cases h : e.valueStart? <;> simp [h]

/-- An event fits the events before it. -/
structure Follows (past : List Event) (e : Event) : Prop where
  /-- A line ends outside of notes, and so does a note begin. -/
  outside : e.kind = .newLine ∨ e.kind.opensNote = true →
    ∀ opened, trackAll [] past = some opened → ¬ IsInNote (opened.map Prod.fst)
  /-- A value begins after those before it. -/
  later : ∀ start, e.valueStart? = some start → ∀ earlier ∈ valueStarts past, earlier < start
  /-- A value that nothing encloses is the first. -/
  first : ∀ start, e.valueStart? = some start → ∀ opened, trackAll [] past = some opened →
    (∀ c ∈ opened, c.1.encloses = false) → valueStarts past = []

/-- Each of some events fits those before it. -/
def AreOrdered (events : List Event) : Prop := ∀ past e rest, events = past ++ e :: rest → Follows past e

variable {past events : List Event} {e : Event}

/-- Where a list that goes on by one element is cut: before that element, or earlier. -/
theorem append_singleton_eq_append_cons {α : Type} {l front back : List α} {last cut : α}
    (h : l ++ [last] = front ++ cut :: back) :
    (front = l ∧ cut = last ∧ back = []) ∨ ∃ more, back = more ++ [last] ∧ l = front ++ cut :: more := by
  rcases List.eq_nil_or_concat back with rfl | ⟨more, x, rfl⟩
  · obtain ⟨rfl, hlast⟩ := List.append_inj' h rfl
    exact Or.inl ⟨rfl, (List.singleton_inj.1 hlast).symm, rfl⟩
  · rw [List.concat_eq_append] at h ⊢
    rw [← List.cons_append, ← List.append_assoc] at h
    obtain ⟨rfl, hlast⟩ := List.append_inj' h rfl
    exact Or.inr ⟨more, by rw [hlast], rfl⟩

theorem follows_of_quiet (hline : e.kind ≠ .newLine) (hnote : e.kind.opensNote = false)
    (hvalue : e.valueStart? = none) : Follows past e where
  outside h := (h.elim hline (by simp [hnote])).elim
  later start h := by
    rw [hvalue] at h
    cases h
  first start h := by
    rw [hvalue] at h
    cases h

theorem areOrdered_nil : AreOrdered [] := fun past e rest h => by simp at h

theorem AreOrdered.append_singleton (h : AreOrdered events) (he : Follows events e) :
    AreOrdered (events ++ [e]) := by
  intro past e' rest heq
  rcases append_singleton_eq_append_cons heq with ⟨rfl, rfl, -⟩ | ⟨more, -, heq⟩
  · exact he
  · exact h past e' more heq

/-- **A value that nothing encloses is the first of all**, as long as it is open. -/
theorem AreOrdered.le_of_open (h : AreOrdered events) {inside outside : List (Construct × Nat)} {c : Construct}
    {start : Nat} (htrack : trackAll [] events = some (inside ++ (c, start) :: outside)) (hc : c.isValue = true)
    (houtside : ∀ o ∈ outside, o.1.encloses = false) :
    start ∈ valueStarts events ∧ ∀ other ∈ valueStarts events, start ≤ other := by
  induction events using List.reverseRecOn generalizing inside with
  | nil => simp [trackAll] at htrack
  | append_singleton events e ih =>
    obtain ⟨opened, hopened, -⟩ := Option.bind_eq_some_iff.1 ((trackAll_append [] events [e]).symm.trans htrack)
    rw [trackAll_append_singleton hopened] at htrack
    have hearlier : AreOrdered events := fun past x rest heq => h past x (rest ++ [e]) (by simp [heq])
    have hfollows := h events e [] rfl
    rw [valueStarts_append_singleton]
    obtain ⟨kind, first, stop⟩ := e
    cases kind with
    | opening c' =>
      have hpush : (c', first) :: opened = inside ++ (c, start) :: outside := Option.some.inj htrack
      rcases inside with _ | ⟨top, inside⟩
      · obtain ⟨⟨⟩, rfl⟩ := List.cons.inj hpush
        have hvalue : valueStart? ⟨.opening c, start, stop⟩ = some start := by rw [valueStart?_opening, if_pos hc]
        rw [hfollows.first start hvalue opened hopened houtside, hvalue]
        simp
      · obtain ⟨rfl, rfl⟩ := List.cons.inj hpush
        obtain ⟨hmem, hle⟩ := ih hearlier hopened
        refine ⟨List.mem_append_left _ hmem, fun other hother => ?_⟩
        rcases List.mem_append.1 hother with hother | hother
        · exact hle other hother
        · -- It begins after all that began before it, the first one included.
          exact Nat.le_of_lt (hfollows.later other (Option.mem_toList.1 hother) start hmem)
    | closing c' =>
      rcases opened with _ | ⟨top, opened⟩
      · cases htrack
      · have hpop : opened = inside ++ (c, start) :: outside := by
          dsimp only [track] at htrack
          split at htrack <;> cases htrack
          rfl
        subst hpop
        have hinside : trackAll [] events = some ((top :: inside) ++ (c, start) :: outside) := hopened
        simpa [valueStart?] using ih hearlier hinside
    | newLine | endTop =>
      obtain rfl := Option.some.inj htrack
      simpa [valueStart?] using ih hearlier hopened

end Event

namespace Scan

open Event (valueStarts valueStart? Follows AreOrdered)

namespace State

variable {s s' : State} {o : Options} {b : UInt8} {i j : Nat} {past : List Event}

/-- The places at which reading goes on. -/
def places (s : State) : List Place :=
  match s.mode with
  | .between place => place :: s.resume
  | _ => s.resume

/-- The events so far are ordered, and the values among them begin before some offset. -/
structure Orderly (i : Nat) (s : State) : Prop where
  ordered : AreOrdered s.events
  below : ∀ start ∈ valueStarts s.events, start < i

/-- No value has begun, and nothing is open. -/
structure IsBlank (s : State) : Prop where
  opened : s.opened = []
  values : valueStarts s.events = []

/-- **What every state satisfies** before the byte at offset `i`: if reading may go on at the start of the
document, then no value has begun and no note is about to. -/
structure Course (i : Nat) (s : State) : Prop extends Orderly i s where
  blank : .start ∈ s.places → s.IsBlank ∧ s.mode ≠ .commentStart

/-- A step leads on, or fails. -/
abbrev Runs (i : Nat) (x : Verdict State) : Prop := x.Meets (Course i) fun _ => True

/-- Something ends: no value begins, and reading is to go on where it was. -/
structure Adds (s s' : State) : Prop where
  resume : s'.resume = s.resume
  values : valueStarts s'.events = valueStarts s.events
  ordered : AreOrdered s.events → AreOrdered s'.events

theorem Adds.refl (s : State) : Adds s s := ⟨rfl, rfl, id⟩

theorem Adds.trans {s₁ s₂ s₃ : State} (h : Adds s₁ s₂) (h' : Adds s₂ s₃) : Adds s₁ s₃ :=
  ⟨h'.resume.trans h.resume, h'.values.trans h.values, fun hordered => h'.ordered (h.ordered hordered)⟩

theorem Orderly.mono (h : s.Orderly i) (hle : i ≤ j) : s.Orderly j :=
  ⟨h.ordered, fun start hstart => Nat.lt_of_lt_of_le (h.below start hstart) hle⟩

theorem Orderly.adds (h : s.Orderly i) (hadds : Adds s s') : s'.Orderly i :=
  ⟨hadds.ordered h.ordered, by rw [hadds.values]; exact h.below⟩

/-- Only the events count. -/
theorem Orderly.of_eq (h : s.Orderly i) (s' : State) (hemitted : s'.emitted = s.emitted) : s'.Orderly i := by
  have hevents : s'.events = s.events := congrArg List.reverse hemitted
  exact ⟨hevents ▸ h.ordered, hevents ▸ h.below⟩

/-- Where reading does not go on at the start of the document. -/
theorem Orderly.course (h : s.Orderly i) (hplaces : .start ∉ s.places) : s.Course i :=
  ⟨h, fun hstart => (hplaces hstart).elim⟩

/-- While something is open, reading does not go on at the start of the document. -/
theorem Course.start_not_mem (h : s.Course i) {c : Construct} {outer : List Construct}
    (hopened : s.constructs = c :: outer) : .start ∉ s.places := by
  intro hstart
  rw [constructs, (h.blank hstart).1.opened] at hopened
  cases hopened

/-! ## Reporting events -/

theorem events_emit (s : State) (kind : EventKind) (start stop : Nat) :
    (s.emit kind start stop).events = s.events ++ [⟨kind, start, stop⟩] := List.reverse_cons

/-- An event that opens no value and no note, and ends no line. -/
theorem emit_adds (s : State) (kind : EventKind) (start stop : Nat) (hline : kind ≠ .newLine)
    (hnote : kind.opensNote = false) (hvalue : valueStart? ⟨kind, start, stop⟩ = none) :
    Adds s (s.emit kind start stop) where
  resume := rfl
  values := by rw [events_emit, Event.valueStarts_append_singleton, hvalue, Option.toList_none, List.append_nil]
  ordered h := by
    rw [events_emit]
    exact h.append_singleton (Event.follows_of_quiet hline hnote hvalue)

theorem begin_adds (s : State) {c : Construct} (hc : c.isValue = false)
    (hnote : (EventKind.opening c).opensNote = false) (start : Nat) : Adds s (s.begin c start) :=
  have hvalue : valueStart? ⟨.opening c, start, start⟩ = none := by
    rw [Event.valueStart?_opening, hc]
    rfl
  have hadds := emit_adds { s with opened := (c, start) :: s.opened } (.opening c) start start nofun hnote hvalue
  ⟨hadds.resume, hadds.values, hadds.ordered⟩

/-- A note begins outside of notes. -/
theorem beginNote_adds {reach : Nat} (hrec : Recorded past s reach) (hfree : ¬ IsInNote s.constructs) (kind : NoteKind)
    (start : Nat) : Adds s (s.begin kind.construct start) := by
  have hevents : (s.begin kind.construct start).events = s.events ++ [⟨.opening kind.construct, start, start⟩] :=
    List.reverse_cons
  have htrack : Event.trackAll [] s.events = some s.opened := hrec.history.track_eq
  have hvalue : valueStart? ⟨.opening kind.construct, start, start⟩ = none := by cases kind <;> rfl
  refine ⟨rfl, ?_, fun hordered => ?_⟩
  · rw [hevents, Event.valueStarts_append_singleton, hvalue, Option.toList_none, List.append_nil]
  · rw [hevents]
    refine hordered.append_singleton ⟨fun _ opened hopened => ?_, ?_, ?_⟩
    · rwa [← Option.some.inj (htrack.symm.trans hopened)]
    all_goals
      rw [hvalue]
      exact nofun

theorem close_adds (s : State) (stop : Nat) : (s.close stop).Meets (Adds s) fun _ => True := by
  rw [close]
  split
  · trivial
  · next construct start rest _ =>
    have hadds := emit_adds { s with opened := rest } (.closing construct) start stop (by simp) rfl rfl
    exact ⟨hadds.resume, hadds.values, hadds.ordered⟩

theorem closeIf_adds (s : State) (select : Construct → Bool) (stop : Nat) :
    (s.closeIf select stop).Meets (Adds s) fun _ => True := by
  rw [closeIf]
  split
  · exact .ite (s.close_adds stop) (.refl s)
  · exact .refl s

theorem settle_adds (s : State) (stop : Nat) : Adds s (s.settle stop) := by
  rw [settle]
  split
  · exact ⟨rfl, rfl, id⟩
  · exact .refl s

theorem endValue_adds (s : State) (stop : Nat) : (s.endValue stop).Meets (Adds s) fun _ => True :=
  (s.close_adds stop).bind fun s₁ h₁ => (s₁.closeIf_adds _ stop).bind fun s₂ h₂ =>
    (h₁.trans h₂).trans (s₂.settle_adds stop)

theorem closeNote_adds (s : State) (stop : Nat) : (s.closeNote stop).Meets (Adds s) fun _ => True :=
  (s.closeIf_adds _ _).bind fun s₁ h₁ => (s₁.close_adds stop).bind fun s₂ h₂ =>
    (h₁.trans h₂).trans (s₂.settle_adds stop)

/-- A line may end outside of notes. -/
theorem Orderly.newLine (h : s.Orderly i) (hrec : Recorded past s i) (hnote : ¬ IsInNote s.constructs) :
    (s.emit .newLine i (i + 1)).Orderly (i + 1) := by
  have htrack : Event.trackAll [] s.events = some s.opened := hrec.history.track_eq
  have hfollows : Follows s.events ⟨.newLine, i, i + 1⟩ :=
    ⟨fun _ opened hopened => by rwa [← Option.some.inj (htrack.symm.trans hopened)], nofun, nofun⟩
  refine ⟨?_, fun start hstart => ?_⟩
  · rw [events_emit]
    exact h.ordered.append_singleton hfollows
  · rw [events_emit, Event.valueStarts_append_singleton] at hstart
    exact Nat.lt_succ_of_lt (h.below start (by simpa [valueStart?] using hstart))

/-- A value begins here, the first one unless something encloses it. -/
theorem Orderly.beginValue (h : s.Orderly i) (hrec : Recorded past s i) {c : Construct}
    (hnote : (EventKind.opening c).opensNote = false)
    (hfirst : (∀ c ∈ s.constructs, c.encloses = false) → valueStarts s.events = []) :
    (s.begin c i).Orderly (i + 1) := by
  have hevents : (s.begin c i).events = s.events ++ [⟨.opening c, i, i⟩] := List.reverse_cons
  have htrack : Event.trackAll [] s.events = some s.opened := hrec.history.track_eq
  have hstart : ∀ start, valueStart? ⟨.opening c, i, i⟩ = some start → start = i := by
    intro start hstart
    rw [Event.valueStart?_opening] at hstart
    split at hstart <;> cases hstart
    rfl
  have hfollows : Follows s.events ⟨.opening c, i, i⟩ := by
    refine ⟨fun houtside => absurd houtside (by simp [hnote]), fun start hs => ?_,
      fun start _ opened hopened hall => ?_⟩
    · rw [hstart start hs]
      exact h.below
    · obtain rfl := Option.some.inj (htrack.symm.trans hopened)
      exact hfirst fun c hc => by
        obtain ⟨o, ho, rfl⟩ := List.mem_map.1 hc
        exact hall o ho
  refine ⟨hevents ▸ h.ordered.append_singleton hfollows, fun start hmem => ?_⟩
  rw [hevents, Event.valueStarts_append_singleton] at hmem
  rcases List.mem_append.1 hmem with hmem | hmem
  · exact Nat.lt_succ_of_lt (h.below start hmem)
  · rw [hstart start (Option.mem_toList.1 hmem)]
    exact Nat.lt_succ_self i

/-! ## Going on -/

/-- Reading goes on in another mode, which is no place. -/
theorem switch_runs (h : s.Orderly i) (hstart : .start ∉ s.resume) {mode : Mode} (hmode : mode ≠ .between .start) :
    Runs i (.ok (s.switch mode)) := by
  refine (h.of_eq (s.switch mode) rfl).course ?_
  rw [places]
  split
  · next place hplace =>
    rintro (- | ⟨-, hmem⟩)
    · exact hmode hplace
    · exact hstart hmem
  · exact hstart

/-- Reading goes on where it is. -/
theorem stay_runs (h : s.Course i) (hle : i ≤ j) : Runs j (.ok s) := ⟨h.toOrderly.mono hle, h.blank⟩

theorem resumeNext_runs (h : s.Orderly i) (hstart : .start ∉ s.resume) : Runs i s.resumeNext := by
  rw [resumeNext]
  split
  · trivial
  · next place rest hresume =>
    rw [hresume] at hstart
    exact (h.of_eq ({ s with mode := .between place, resume := rest }) rfl).course hstart

theorem finishValue_runs (h : s.Orderly i) (hstart : .start ∉ s.resume) (stop : Nat) :
    Runs i (s.finishValue stop) :=
  (s.endValue_adds stop).bind fun _ hadds => resumeNext_runs (h.adds hadds) (hadds.resume ▸ hstart)

theorem finishNote_runs (h : s.Orderly i) (hstart : .start ∉ s.resume) (stop : Nat) :
    Runs i (s.finishNote stop) :=
  (s.closeNote_adds stop).bind fun _ hadds => resumeNext_runs (h.adds hadds) (hadds.resume ▸ hstart)

/-- What is read next interrupts a place. -/
theorem interrupt_runs (h : s.Orderly i) (hstart : .start ∉ s.resume) {mode : Mode} {next : Place}
    (hmode : mode ≠ .between .start) (hnext : next ≠ .start) : Runs i (.ok (s.interrupt mode next)) := by
  refine (h.of_eq (s.interrupt mode next) rfl).course ?_
  have hresume : .start ∉ next :: s.resume := by simp [hnext.symm, hstart]
  rw [places]
  split
  · next place hplace =>
    rintro (- | ⟨-, hmem⟩)
    · exact hmode hplace
    · exact hresume hmem
  · exact hresume

/-! ## Between tokens -/

theorem skipBlank_runs (h : s.Course i) (hrec : Recorded past s i) : Runs (i + 1) (s.skipBlank b i) := by
  rw [skipBlank]
  refine .ite ?_ (stay_runs h (Nat.le_succ i))
  split
  · next hnote =>
    have hfree : ¬ IsInNote s.constructs := by rw [← inNote_iff, inNote, hnote]; simp
    refine ⟨h.toOrderly.newLine hrec hfree, fun hstart => ?_⟩
    obtain ⟨hblank, hmode⟩ := h.blank hstart
    refine ⟨⟨hblank.opened, ?_⟩, hmode⟩
    rw [events_emit, Event.valueStarts_append_singleton, hblank.values]
    rfl
  · exact stay_runs h (Nat.le_succ i)
  · trivial

section

variable (h : s.Orderly i) (hrec : Recorded past s i) (hstart : .start ∉ s.resume)
  (hfirst : (∀ c ∈ s.constructs, c.encloses = false) → valueStarts s.events = [])
include h hrec hstart hfirst

theorem openContainer_runs {c : Construct} (hc : c.isContainer = true) {inside next : Place}
    (hinside : inside ≠ .start) (hnext : next ≠ .start) : Runs (i + 1) (s.openContainer c inside next i) := by
  refine .ite ?_ trivial
  exact interrupt_runs (h.beginValue hrec (by cases c <;> cases hc <;> rfl) hfirst) hstart (by simpa using hinside)
    hnext

theorem startValue_runs {next : Place} (hnext : next ≠ .start) : Runs (i + 1) (startValue o s next b i) := by
  have hbegin {c : Construct} (hnote : (EventKind.opening c).opensNote = false) {mode : Mode}
      (hmode : mode ≠ .between .start) : Runs (i + 1) (.ok ((s.begin c i).interrupt mode next)) :=
    interrupt_runs (h.beginValue hrec hnote hfirst) hstart hmode hnext
  unfold startValue
  split
  · exact openContainer_runs h hrec hstart hfirst rfl nofun hnext
  · exact openContainer_runs h hrec hstart hfirst rfl nofun hnext
  iterate 6 exact hbegin rfl nofun
  exact .ite (hbegin rfl nofun) (.ite (hbegin (by split <;> rfl) nofun) trivial)

end

theorem startKey_runs (h : s.Orderly i) (hstart : .start ∉ s.resume) : Runs (i + 1) (startKey o s b i) := by
  have hkey : (s.begin .objectKey i).Orderly (i + 1) := (h.adds (s.begin_adds rfl rfl i)).mono (Nat.le_succ i)
  have hname : ((s.begin .objectKey i).begin .keyShortcut i).Orderly (i + 1) :=
    hkey.adds ((s.begin .objectKey i).begin_adds rfl rfl i)
  unfold startKey
  refine .ite (interrupt_runs hkey hstart nofun nofun) (.ite (.ite trivial (.ite ?_ trivial)) (.ite ?_ trivial))
  · exact interrupt_runs hkey hstart nofun nofun
  · exact interrupt_runs hname hstart nofun nofun

theorem stop_runs (h : s.Orderly i) (hstart : .start ∉ s.resume) : Runs i (.ok s.stop) := by
  have hadds := emit_adds { s with mode := .done } .endTop s.valueEnd s.valueEnd nofun rfl rfl
  exact Orderly.course (s := s.stop) (h.adds ⟨hadds.resume, hadds.values, hadds.ordered⟩) hstart

/-- What is open at a place of a container. -/
theorem exists_enclosing {place : Place} {places : List Place} {opened : List Construct}
    (hnested : Nested (place :: places) opened) {c : Construct} (hplace : place.container? = some c) :
    c.encloses = true ∧ ∃ outer, opened = c :: outer := by
  cases hnested with
  | start | finish | afterRules => cases hplace
  | inside hcontainer =>
    obtain rfl := Option.some.inj (hplace.symm.trans hcontainer)
    refine ⟨?_, _, rfl⟩
    cases place <;> cases hplace <;> rfl

/-- Nothing else is to go on at the start and at the end of the document. -/
theorem resume_eq_nil {place : Place} {places : List Place} {opened : List Construct}
    (hnested : Nested (place :: places) opened) (hplace : place = .start ∨ place = .finish) : places = [] := by
  cases hnested with
  | start | finish => rfl
  | inside hcontainer => rcases hplace with rfl | rfl <;> cases hcontainer
  | afterRules => rcases hplace with hplace | hplace <;> cases hplace

theorem token_runs {place : Place} (hmode : s.mode = .between place)
    (hnested : Nested (place :: s.resume) s.constructs) (hrec : Recorded past s i) (h : s.Course i) :
    Runs (i + 1) (s.token o place b i) := by
  have hplaces : s.places = place :: s.resume := by rw [places, hmode]
  have hlater : s.Orderly (i + 1) := h.toOrderly.mono (Nat.le_succ i)
  -- At a place of a container, the container encloses what begins.
  have hinside {c : Construct} (hplace : place.container? = some c) :
      .start ∉ s.resume ∧ ∀ w : Construct, (∀ c ∈ w :: s.constructs, c.encloses = false) →
        valueStarts (s.begin w i).events = [] := by
    obtain ⟨hencloses, outer, hopened⟩ := exists_enclosing hnested hplace
    have hfree := h.start_not_mem hopened
    rw [hplaces] at hfree
    refine ⟨fun hstart => hfree (List.mem_cons_of_mem _ hstart), fun w hall => ?_⟩
    have hnone := hall c (by rw [hopened]; simp)
    rw [hencloses] at hnone
    cases hnone
  have hmove {place' : Place} {c : Construct} (hplace : place.container? = some c) (hne : place' ≠ .start) :
      Runs (i + 1) (.ok (s.switch (.between place'))) :=
    switch_runs hlater (hinside hplace).1 (by simpa using hne)
  have hend {c : Construct} (hplace : place.container? = some c) : Runs (i + 1) (s.finishValue (i + 1)) :=
    finishValue_runs hlater (hinside hplace).1 (i + 1)
  have hwrapped {c w : Construct} {next : Place} (hplace : place.container? = some c) (hw : w.isWrapper = true)
      (hnext : next ≠ .start) : Runs (i + 1) (startValue o (s.begin w i) next b i) :=
    startValue_runs
      (h.toOrderly.adds (s.begin_adds (by cases w <;> cases hw <;> rfl) (by cases w <;> cases hw <;> rfl) i))
      (hrec.begin w) (hinside hplace).1
      ((hinside hplace).2 w) hnext
  have hnote {kind : NoteKind} (hplace : place = .afterRules kind) {mode : Mode} (hne : mode ≠ .between .start) :
      Runs (i + 1) (.ok (s.switch mode)) := by
    subst hplace
    obtain ⟨outer, hopened, -⟩ := hnested.readsNote
    have hfree := h.start_not_mem hopened
    rw [hplaces] at hfree
    exact switch_runs hlater (fun hstart => hfree (List.mem_cons_of_mem _ hstart)) hne
  unfold token
  split
  · have hblank := (h.blank (by rw [hplaces]; simp)).1
    have hresume := resume_eq_nil hnested (Or.inl rfl)
    exact startValue_runs h.toOrderly hrec (by simp [hresume]) (fun _ => hblank.values) nofun
  · have hresume := resume_eq_nil hnested (Or.inr rfl)
    exact .ite (stop_runs hlater (by simp [hresume])) trivial
  · exact hend rfl
  · exact startKey_runs h.toOrderly (hinside rfl).1
  · trivial
  · exact startKey_runs h.toOrderly (hinside rfl).1
  · exact hmove rfl nofun
  · trivial
  · exact hwrapped rfl rfl nofun
  · exact hmove rfl nofun
  · exact hend rfl
  · trivial
  · exact hend rfl
  · exact hwrapped rfl rfl nofun
  · trivial
  · exact hwrapped rfl rfl nofun
  · exact hmove rfl nofun
  · exact hend rfl
  · trivial
  · exact hnote rfl nofun
  · trivial
  · exact hnote rfl nofun
  · exact hnote rfl nofun
  · trivial

/-- A comment may be read before the value, but no note. -/
theorem visit_runs {place : Place} (hmode : s.mode = .between place)
    (hnested : Nested (place :: s.resume) s.constructs) (hrec : Recorded past s i) (h : s.Course i) :
    Runs (i + 1) (s.visit o place b i) := by
  have hplaces : s.places = place :: s.resume := by rw [places, hmode]
  have htoken : Runs (i + 1) (s.token o place b i) := token_runs hmode hnested hrec h
  unfold visit
  refine .ite (skipBlank_runs h hrec) ?_
  split
  · next hcomment =>
    unfold commentMode?
    split
    · next mode hsign =>
      have hblank (hstart : .start ∈ (s.interrupt mode place).places) : s.IsBlank := by
        refine (h.blank ?_).1
        rw [hplaces]
        split at hsign <;> cases hsign <;> exact hstart
      refine ⟨(h.toOrderly.mono (Nat.le_succ i)).of_eq _ rfl, fun hstart => ?_⟩
      refine ⟨⟨(hblank hstart).opened, (hblank hstart).values⟩, fun hmark => ?_⟩
      -- A slash is no comment at the start, and at another place nothing is blank.
      have hresume : place ≠ .start := by
        rintro rfl
        split at hsign <;> cases hsign
        · cases hmark
        · next hslash => simp [Place.allowsComment, hslash] at hcomment
      have hrest : s.constructs = [] := congrArg _ (hblank hstart).opened
      rw [hrest] at hnested
      generalize hresumed : s.resume = places at hnested
      cases hnested with
      | start => exact hresume rfl
      | finish =>
        rw [interrupt, State.places, hresumed] at hstart
        split at hsign <;> cases hsign <;> simp at hstart
    · exact htoken
  · exact htoken

/-- Handing a byte to the places to resume. -/
theorem land_runs {places : List Place} (hnested : Nested places s.constructs) (hrec : Recorded past s i)
    (h : s.Orderly i) (hblank : .start ∈ places → s.IsBlank) : Runs (i + 1) (land o b i places s) := by
  induction places generalizing s with
  | nil => cases hnested
  | cons place rest ih =>
    rw [land]
    split
    · next hinline =>
      obtain ⟨rfl, -⟩ := hinline
      obtain ⟨s₁, hclose, -, hcomment, hrec₁⟩ := exists_closeNote_eq_ok hnested.readsNote hrec
      have hadds := (s.closeNote_adds i).of_ok hclose
      obtain ⟨outer, hopened, -⟩ := hnested.readsNote
      rw [hclose]
      refine ih hcomment.1 hrec₁ (h.adds hadds) fun hstart => ?_
      rw [constructs, (hblank (List.mem_cons_of_mem _ hstart)).opened] at hopened
      cases hopened
    · refine visit_runs rfl hnested ⟨hrec.history, hrec.past⟩ ⟨h.of_eq _ rfl, fun hstart => ⟨?_, (by simp)⟩⟩
      exact ⟨(hblank hstart).opened, (hblank hstart).values⟩

/-- Ending a value or key before a byte, which is handed on. -/
theorem endValue_land_runs {stop : Nat} (hends : Ends s.resume s.constructs) (hrec : Recorded past s stop)
    (hle : stop ≤ i) (h : s.Orderly i) (hstart : .start ∉ s.resume) :
    Runs (i + 1) (do land o b i s.resume (← s.endValue stop)) := by
  obtain ⟨s₁, hend, -, hnested, hrec₁⟩ := exists_endValue_eq_ok hends hrec
  have hadds := (s.endValue_adds stop).of_ok hend
  rw [hend]
  exact land_runs hnested (hrec₁.mono hle) (h.adds hadds) fun hmem => (hstart hmem).elim

/-! ## Inside tokens -/

section

variable (h : s.Course i) (hopen : s.constructs ≠ []) (hplaces : s.places = s.resume)
include h hopen hplaces

/-- Inside a token, something is open. -/
theorem Course.start_not_mem_resume : .start ∉ s.resume := by
  obtain ⟨c, outer, hopened⟩ := List.exists_cons_of_ne_nil hopen
  rw [← hplaces]
  exact h.start_not_mem hopened

theorem switch_later {mode : Mode} (hmode : mode ≠ .between .start) : Runs (i + 1) (.ok (s.switch mode)) :=
  switch_runs (h.toOrderly.mono (Nat.le_succ i)) (h.start_not_mem_resume hopen hplaces) hmode

theorem finishValue_later : Runs (i + 1) (s.finishValue (i + 1)) :=
  finishValue_runs (h.toOrderly.mono (Nat.le_succ i)) (h.start_not_mem_resume hopen hplaces) (i + 1)

theorem finishNote_later : Runs (i + 1) (s.finishNote (i + 1)) :=
  finishNote_runs (h.toOrderly.mono (Nat.le_succ i)) (h.start_not_mem_resume hopen hplaces) (i + 1)

theorem feedString_runs : Runs (i + 1) (s.feedString b i) := by
  unfold feedString
  split
  · exact finishValue_later h hopen hplaces
  · exact switch_later h hopen hplaces nofun
  · exact .ite trivial (stay_runs h (Nat.le_succ i))

theorem feedEscape_runs : Runs (i + 1) (s.feedEscape b) := by
  unfold feedEscape
  split
  iterate 9 exact switch_later h hopen hplaces nofun
  trivial

theorem feedUnicode_runs (digits : Nat) : Runs (i + 1) (s.feedUnicode digits b) := by
  unfold feedUnicode
  refine .ite ?_ trivial
  split <;> exact switch_later h hopen hplaces nofun

theorem feedKeyword_runs (word : Keyword) (next : UInt8) (rest : Bytes) :
    Runs (i + 1) (s.feedKeyword word next rest b i) := by
  unfold feedKeyword
  refine .ite ?_ trivial
  split
  · exact finishValue_later h hopen hplaces
  · exact switch_later h hopen hplaces (by simp)

theorem feedKeyMark_runs : Runs (i + 1) (s.feedKeyMark b) :=
  .ite (switch_later h hopen hplaces nofun) trivial

theorem feedNumber_runs (hends : Ends s.resume s.constructs) (hrec : Recorded past s i) (part : NumberPart) :
    Runs (i + 1) (s.feedNumber o part b i) := by
  unfold feedNumber
  split
  · exact switch_later h hopen hplaces nofun
  · trivial
  · exact endValue_land_runs hends hrec (Nat.le_refl i) h.toOrderly (h.start_not_mem_resume hopen hplaces)

theorem feedName_runs (hends : Ends s.resume s.constructs) (hrec : Recorded past s i) :
    Runs (i + 1) (s.feedName o b i) :=
  .ite (stay_runs h (Nat.le_succ i))
    (endValue_land_runs hends hrec (Nat.le_refl i) h.toOrderly (h.start_not_mem_resume hopen hplaces))

/-- Reading a byte after a name, which ends with the shortcut unless a bar follows. -/
theorem afterName_runs (hends : Ends s.resume s.constructs) (hrec : Recorded past s s.nameEnd) (hle : s.nameEnd ≤ i) :
    Runs (i + 1) (feedShortcut.afterName o b i s) :=
  .ite (switch_later h hopen hplaces nofun) (.ite (switch_later h hopen hplaces nofun)
    (endValue_land_runs hends hrec hle h.toOrderly (h.start_not_mem_resume hopen hplaces)))

theorem feedShortcut_runs (hends : Ends s.resume s.constructs) {part : ShortcutPart} (hmode : s.mode = .shortcut part)
    (hrec : Recorded past s (s.reach i)) (hle : s.reach i ≤ i) : Runs (i + 1) (s.feedShortcut o part b i) := by
  have hrec' := hrec.mono hle
  unfold feedShortcut
  split
  · exact .ite (switch_later h hopen hplaces (by simp)) trivial
  · refine .ite (stay_runs h (Nat.le_succ i)) ?_
    have hnamed : Course i { s with nameEnd := i } := ⟨h.toOrderly.of_eq _ rfl, fun hstart =>
      ⟨⟨(h.blank hstart).1.opened, (h.blank hstart).1.values⟩, (h.blank hstart).2⟩⟩
    exact @afterName_runs { s with nameEnd := i } o b i past hnamed hopen hplaces hends
      ⟨hrec'.history, hrec'.past⟩ (Nat.le_refl i)
  · rw [reach, hmode] at hrec hle
    exact afterName_runs h hopen hplaces hends hrec hle
  · exact .ite (stay_runs h (Nat.le_succ i)) (.ite (switch_later h hopen hplaces (by simp)) trivial)

end

/-! ## Inside comments -/

theorem feedCommentStart_runs (h : s.Course i) (hmode : s.mode = .commentStart)
    (hcomment : ReadsComment s.resume s.constructs) (hrec : Recorded past s i) :
    Runs (i + 1) (s.feedCommentStart b i) := by
  have hstart : .start ∉ s.resume := fun hmem => (h.blank (by rw [places, hmode]; exact hmem)).2 hmode
  have hbegin (kind : NoteKind) : (s.begin kind.construct (i - 1)).Orderly (i + 1) :=
    (h.toOrderly.adds (beginNote_adds hrec hcomment.2 kind (i - 1))).mono (Nat.le_succ i)
  unfold feedCommentStart
  split
  · exact switch_runs (hbegin .inline) hstart nofun
  · exact switch_runs (hbegin .block) hstart nofun
  · trivial

section

variable (h : s.Course i) (hplaces : s.places = s.resume)
include h hplaces

/-- A comment goes on, which may stand at the start of the document. -/
theorem switch_comment {mode : Mode} (hmode : ∀ place, mode ≠ .between place) (hmark : mode ≠ .commentStart) :
    Runs (i + 1) (.ok (s.switch mode)) := by
  refine ⟨(h.toOrderly.mono (Nat.le_succ i)).of_eq _ rfl, fun hstart => ?_⟩
  have hresume : (s.switch mode).places = s.resume := by
    rw [places]
    split
    · next place hplace => exact (hmode place hplace).elim
    · rfl
  rw [hresume, ← hplaces] at hstart
  exact ⟨⟨(h.blank hstart).1.opened, (h.blank hstart).1.values⟩, hmark⟩

variable (hcomment : ReadsComment s.resume s.constructs) (hrec : Recorded past s i)
include hcomment hrec

theorem feedLineComment_runs : Runs (i + 1) (s.feedLineComment o b i) :=
  .ite (land_runs hcomment.1 hrec h.toOrderly fun hstart => (h.blank (hplaces ▸ hstart)).1)
    (switch_comment h hplaces nofun nofun)

theorem feedBlockComment_runs (count : Nat) : Runs (i + 1) (s.feedBlockComment count b i) := by
  unfold feedBlockComment
  split
  · refine .ite ?_ (switch_comment h hplaces (by simp) (by simp))
    rw [resumeNext]
    split
    · trivial
    · next place rest hresume =>
      rw [hresume] at hplaces
      refine ⟨(h.toOrderly.mono (Nat.le_succ i)).of_eq _ rfl, fun hstart => ?_⟩
      have hblank := (h.blank (hplaces ▸ hstart)).1
      exact ⟨⟨hblank.opened, hblank.values⟩, (by simp)⟩
  · refine ⟨(h.toOrderly.newLine hrec hcomment.2).of_eq _ rfl, fun hstart => ?_⟩
    have hblank := (h.blank (hplaces ▸ hstart)).1
    refine ⟨⟨hblank.opened, ?_⟩, fun hmode => by cases hmode⟩
    change valueStarts (s.emit .newLine i (i + 1)).events = []
    rw [events_emit, Event.valueStarts_append_singleton, hblank.values]
    rfl
  · exact switch_comment h hplaces (by simp) (by simp)

theorem feedHashes_runs (count : Nat) : Runs (i + 1) (s.feedHashes o count b i) :=
  .ite (switch_comment h hplaces nofun nofun)
    (.ite (feedBlockComment_runs h hplaces hcomment hrec 0) (feedLineComment_runs h hplaces hcomment hrec))

end

/-! ## Inside notes -/

theorem beginText_adds (s : State) (kind : NoteKind) (start : Nat) : Adds s (s.beginText kind start) := by
  have hadds := s.begin_adds (c := kind.textConstruct) (by cases kind <;> rfl) (by cases kind <;> rfl) start
  exact ⟨hadds.resume, hadds.values, hadds.ordered⟩

theorem feedInlineText_runs (h : s.Orderly i) (hstart : .start ∉ s.resume) :
    Runs (i + 1) (.ok (s.feedInlineText b i)) :=
  Orderly.course (s := s.feedInlineText b i) ((h.mono (Nat.le_succ i)).of_eq _ rfl) hstart

theorem feedBlockText_runs (h : s.Orderly i) (hstart : .start ∉ s.resume) :
    Runs (i + 1) (.ok (s.feedBlockText b i)) := by
  have hlater := h.mono (Nat.le_succ i)
  unfold feedBlockText
  split
  · exact switch_runs hlater hstart nofun
  · exact Orderly.course (s := { s with
      mode := .blockText, textEnd := if Bytes.isSpace b then s.textEnd else i + 1 }) (hlater.of_eq _ rfl) hstart

section

variable (h : s.Course i) (hopen : s.constructs ≠ []) (hplaces : s.places = s.resume)
include h hopen hplaces

theorem feedBlockTextStar_runs : Runs (i + 1) (s.feedBlockTextStar b i) := by
  have hstart := h.start_not_mem_resume hopen hplaces
  unfold feedBlockTextStar
  split
  · exact finishNote_later h hopen hplaces
  · refine Orderly.course (s := { s with textEnd := i }) ((h.toOrderly.mono (Nat.le_succ i)).of_eq _ rfl) ?_
    change .start ∉ s.places
    rwa [hplaces]
  · exact @feedBlockText_runs { s with textEnd := i } b i (h.toOrderly.of_eq _ rfl) hstart

theorem feedBlockStartStar_runs : Runs (i + 1) (s.feedBlockStartStar b i) := by
  have hadds := s.beginText_adds .block (i - 1)
  refine .ite (finishNote_later h hopen hplaces) ?_
  refine @feedBlockText_runs { s.beginText .block (i - 1) with textEnd := i } b i ?_ ?_
  · exact (h.toOrderly.adds hadds).of_eq _ rfl
  · exact h.start_not_mem_resume hopen hplaces

theorem feedBlockAfterRulesStar_runs : Runs (i + 1) (s.feedBlockAfterRulesStar b i) :=
  .ite (finishNote_later h hopen hplaces) trivial

end

/-- A note encloses what begins in it. -/
theorem exists_enclosing_of_note {kind : NoteKind} {inside : List Construct} {places : List Place}
    {opened : List Construct} (hnote : ReadsNote kind inside places opened) :
    opened ≠ [] ∧ ¬ ∀ c ∈ opened, c.encloses = false := by
  obtain ⟨outer, rfl, -⟩ := hnote
  refine ⟨by simp, fun hall => ?_⟩
  have hnone := hall kind.construct (by simp)
  cases kind <;> cases hnone

section

variable (h : s.Course i) (hplaces : s.places = s.resume) {kind : NoteKind} {inside : List Construct}
  (hnote : ReadsNote kind inside s.resume s.constructs) (hrec : Recorded past s i)
include h hplaces hnote hrec

/-- The rules of a note begin. -/
theorem openRules_runs : Runs (i + 1) (s.openContainer .object .objectStart (.afterRules kind) i) := by
  obtain ⟨hopen, henclosed⟩ := exists_enclosing_of_note hnote
  exact openContainer_runs h.toOrderly hrec (h.start_not_mem_resume hopen hplaces)
    (fun hall => (henclosed hall).elim) rfl nofun nofun

theorem feedBlockStart_runs (hkind : kind = .block) : Runs (i + 1) (s.feedBlockStart b i) := by
  obtain ⟨hopen, -⟩ := exists_enclosing_of_note hnote
  unfold feedBlockStart
  split
  · exact hkind ▸ openRules_runs h hplaces hnote hrec
  · exact switch_later h hopen hplaces nofun
  · exact switch_later h hopen hplaces nofun
  · refine .ite (stay_runs h (Nat.le_succ i)) ?_
    exact feedBlockText_runs (h.toOrderly.adds (s.beginText_adds .block i)) (h.start_not_mem_resume hopen hplaces)

theorem feedInline_runs (hkind : kind = .inline)
    (hclose : ∃ s', s.closeNote i = .ok s' ∧ s'.resume = s.resume ∧ ReadsComment s.resume s'.constructs ∧
      Recorded past s' i) : Runs (i + 1) (s.feedInline o b i) := by
  obtain ⟨hopen, -⟩ := exists_enclosing_of_note hnote
  have hstart := h.start_not_mem_resume hopen hplaces
  unfold feedInline
  split
  · obtain ⟨s', hclose, -, hcomment, hrec'⟩ := hclose
    rw [hclose]
    exact land_runs hcomment.1 hrec' (h.toOrderly.adds ((s.closeNote_adds i).of_ok hclose))
      fun hmem => (hstart hmem).elim
  · split
    · exact feedInlineText_runs h.toOrderly hstart
    · exact hkind ▸ openRules_runs h hplaces hnote hrec
    · exact switch_later h hopen hplaces nofun
    · refine .ite (stay_runs h (Nat.le_succ i)) ?_
      exact feedInlineText_runs (h.toOrderly.adds (s.beginText_adds .inline i)) hstart

end

/-! ## Every mode -/

/-- **A byte keeps the course.** -/
theorem feed_runs (o : Options) (b : UInt8) (hsound : Sound past i s) (h : s.Course i) :
    Runs (i + 1) (s.feed o b i) := by
  cases hsound with
  | ended hmode =>
    rw [feed, hmode]
    exact stay_runs h (Nat.le_succ i)
  | running hfits hrec hle =>
    have hvalue {c : Construct} (hreads : ReadsValue c s.resume s.constructs) : s.constructs ≠ [] := by
      obtain ⟨next, rest, outer, -, hopened, -⟩ := hreads
      rw [hopened]
      simp
    have hkey {inside : List Construct} (hreads : ReadsKey inside s.resume s.constructs) : s.constructs ≠ [] := by
      obtain ⟨rest, outer, -, hopened, -⟩ := hreads
      rw [hopened]
      simp
    have hplaces (hmode : ∀ place, s.mode ≠ .between place) : s.places = s.resume := by
      rw [places]
      split
      · next place hplace => exact (hmode place hplace).elim
      · rfl
    have hreach := hrec.mono hle
    unfold feed
    cases hmode : s.mode <;> rw [hmode] at hfits hplaces
    case between place =>
      refine land_runs hfits hreach h.toOrderly fun hstart => (h.blank ?_).1
      rwa [places, hmode]
    case done => exact hfits.elim
    case string => exact feedString_runs h (hfits.elim hvalue hkey) (hplaces (by simp))
    case escape => exact feedEscape_runs h (hfits.elim hvalue hkey) (hplaces (by simp))
    case unicode digits => exact feedUnicode_runs h (hfits.2.elim hvalue hkey) (hplaces (by simp)) digits
    case number part => exact feedNumber_runs h (hvalue hfits) (hplaces (by simp)) hfits.ends hreach part
    case keyword word next rest => exact feedKeyword_runs h (hvalue hfits) (hplaces (by simp)) word next rest
    case shortcut part =>
      exact feedShortcut_runs h (hfits.elim hvalue hvalue) (hplaces (by simp))
        (hfits.elim ReadsValue.ends ReadsValue.ends) hmode hrec hle
    case ruleName => exact feedName_runs h (hkey hfits) (hplaces (by simp)) hfits.ends hreach
    case keyMark => exact feedKeyMark_runs h (hkey hfits) (hplaces (by simp))
    case keyName => exact feedName_runs h (hkey hfits) (hplaces (by simp)) hfits.ends_shortcut hreach
    case commentStart => exact feedCommentStart_runs h hmode hfits hreach
    case hashes count => exact feedHashes_runs h (hplaces (by simp)) hfits hreach count
    case lineComment => exact feedLineComment_runs h (hplaces (by simp)) hfits hreach
    case blockComment count => exact feedBlockComment_runs h (hplaces (by simp)) hfits.2 hreach count
    case inlineStart | inlineDash =>
      exact feedInline_runs h (hplaces (by simp)) hfits hreach rfl (exists_closeNote_eq_ok hfits hreach)
    case inlineText =>
      rw [reach, hmode] at hrec hle
      exact feedInline_runs h (hplaces (by simp)) hfits hreach rfl
        (@exists_closeNote_eq_ok_of_text _ _ .inline _ _ hfits hrec hle)
    case blockStart | blockDash => exact feedBlockStart_runs h (hplaces (by simp)) hfits hreach rfl
    case blockStartStar => exact feedBlockStartStar_runs h (exists_enclosing_of_note hfits).1 (hplaces (by simp))
    case blockText =>
      exact feedBlockText_runs h.toOrderly (h.start_not_mem_resume (@exists_enclosing_of_note .block _ _ _ hfits).1
        (hplaces (by simp)))
    case blockTextStar =>
      exact feedBlockTextStar_runs h (@exists_enclosing_of_note .block _ _ _ hfits).1 (hplaces (by simp))
    case blockAfterRulesStar =>
      exact feedBlockAfterRulesStar_runs h (exists_enclosing_of_note hfits).1 (hplaces (by simp))

/-! ## The end of the document -/

/-- At the end of the document, only events that end something are reported. -/
theorem land?_adds (length : Nat) (places : List Place) (s : State) :
    (land? length places s).Meets (fun s' => AreOrdered s.events → AreOrdered s'.events) fun _ => True := by
  induction places generalizing s with
  | nil => trivial
  | cons place rest ih =>
    cases place with
    | finish =>
      exact (emit_adds { s with mode := .done } .endTop s.valueEnd s.valueEnd nofun rfl rfl).ordered
    | afterRules kind =>
      cases kind with
      | inline =>
        refine (s.closeNote_adds length).bind fun s₁ h₁ => ?_
        exact (ih s₁).imp (fun _ h hordered => h (h₁.ordered hordered)) fun _ => id
      | block => trivial
    | _ => trivial

theorem conclude_adds (s : State) (length : Nat) :
    (s.conclude length).Meets (fun s' => AreOrdered s.events → AreOrdered s'.events) fun _ => True := by
  have hbind {x : Verdict State} (hx : x.Meets (Adds s) fun _ => True) :
      (x >>= land? length s.resume).Meets (fun s' => AreOrdered s.events → AreOrdered s'.events) fun _ => True :=
    hx.bind fun s₁ h₁ => (land?_adds length s.resume s₁).imp (fun _ h hordered => h (h₁.ordered hordered)) fun _ => id
  unfold conclude
  split
  · exact id
  · exact land?_adds length _ s
  · exact .ite (hbind (s.endValue_adds length)) trivial
  · exact hbind (s.endValue_adds length)
  · exact hbind (s.endValue_adds s.nameEnd)
  · exact land?_adds length _ s
  · exact .ite trivial (land?_adds length _ s)
  iterate 3 exact hbind (s.closeNote_adds length)
  trivial

end State

/-! ## Runs -/

theorem run_areOrdered (o : Options) {past : List Event} {s : State} {i : Nat} {text : Bytes}
    (hsound : Sound past i s) (h : s.Course i) : AreOrdered (run o s i text).1.events := by
  induction text generalizing s i with
  | nil =>
    rw [run]
    cases hend : s.conclude i with
    | ok s' => exact (s.conclude_adds i).of_ok hend h.ordered
    | error cause => exact h.ordered
  | cons b rest ih =>
    rw [run]
    split
    · exact h.ordered
    · cases hfeed : s.feed o b i with
      | ok s' => exact ih ((State.feed_goes o b hsound).of_ok hfeed) ((State.feed_runs o b hsound h).of_ok hfeed)
      | error cause => exact h.ordered

/-- **The events of a scan are ordered**, whether or not it fails. -/
theorem areOrdered_read (o : Options) (text : Bytes) : AreOrdered (read o text).events := by
  refine run_areOrdered o sound_start ⟨⟨Event.areOrdered_nil, nofun⟩, fun _ => ⟨⟨rfl, rfl⟩, nofun⟩⟩

/-- What is open can be followed through the events of a scan. -/
theorem exists_trackAll_read {o : Options} {text : Bytes} {past rest : List Event}
    (h : (read o text).events = past ++ rest) : ∃ opened, Event.trackAll [] past = some opened := by
  obtain ⟨opened, events, hhistory, hread⟩ := read_history o text
  have hall : ∃ opened, Event.trackAll [] (read o text).events = some opened := by
    rcases hread with ⟨rfl, -, n, hevents⟩ | ⟨-, hevents⟩
    · exact ⟨_, by rw [hevents, Event.trackAll_append_singleton hhistory.track_eq]; rfl⟩
    · exact ⟨_, by rw [hevents, hhistory.track_eq]⟩
  obtain ⟨last, hlast⟩ := hall
  rw [h, Event.trackAll_append] at hlast
  obtain ⟨middle, hmiddle, -⟩ := Option.bind_eq_some_iff.1 hlast
  exact ⟨middle, hmiddle⟩

end Scan
end ExampleSchema
