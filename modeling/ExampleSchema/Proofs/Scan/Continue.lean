import ExampleSchema.Proofs.Outcome
import ExampleSchema.Proofs.Scan.Shape
import ExampleSchema.Scan.Run

/-!
# Going on from a state

What a scan yields that goes on from some state, and the states it passes on the way through a value.

* `readFrom`: the events of a scan that goes on from a state and does not fail.
* `State.At`: a state between tokens, at some place.
* `State.inside`: a construct has been opened at a place, and some events have happened inside it.
* `State.past`: a value has been passed.
* `State.finishValue_inside`: the end of the construct leads from inside past it.
* `foldMarks_eq_ok_iff`, `marks_eq_ok_iff`: a fold over the events of a document, and the events themselves.
-/

namespace ExampleSchema
namespace Scan

/-- The events of a scan that goes on from a state, those of the state included, if it does not fail. -/
def readFrom (o : Options) (s : State) (i : Nat) (text : Bytes) : Option (List Event) :=
  match run o s i text with
  | (s, none) => some s.events
  | (_, some _) => none

variable {o : Options} {s : State} {b : UInt8} {i : Nat} {rest : Bytes}

/-- A scan starts before its document. -/
theorem readFrom_start_eq_some_iff {text : Bytes} {events : List Event} :
    readFrom o {} 0 text = some events ↔ read o text = ⟨events, none⟩ := by
  rw [readFrom, read]
  split
  · next s' hrun => simp [hrun]
  · next s' failure hrun => simp [hrun]

/-- A byte that is taken leads to the next state. -/
theorem readFrom_cons {s' : State} (hmode : s.mode ≠ .done) (h : s.feed o b i = .ok s') :
    readFrom o s i (b :: rest) = readFrom o s' (i + 1) rest := by
  rw [readFrom, run, if_neg hmode, h]
  rfl

/-- A byte that is not taken is the end of it. -/
theorem readFrom_cons_of_error {cause : Cause} (hmode : s.mode ≠ .done)
    (h : s.feed o b i = .error cause) : readFrom o s i (b :: rest) = none := by
  rw [readFrom, run, if_neg hmode, h]

/-- Where a scan does not fail, the next byte is taken. -/
theorem exists_feed_eq_ok (hmode : s.mode ≠ .done)
    (h : (readFrom o s i (b :: rest)).isSome = true) :
    ∃ s', s.feed o b i = .ok s' ∧ (readFrom o s' (i + 1) rest).isSome = true := by
  cases hfeed : s.feed o b i with
  | ok s' =>
    rw [readFrom_cons hmode hfeed] at h
    exact ⟨s', rfl, h⟩
  | error cause =>
    rw [readFrom_cons_of_error hmode hfeed] at h
    cases h

/-- At the end of the text the document ends. -/
theorem readFrom_nil {s' : State} (h : s.conclude i = .ok s') :
    readFrom o s i [] = some s'.events := by
  rw [readFrom, run, h]

/-- Where the document cannot end, the end of the text is the end of it. -/
theorem readFrom_nil_of_error {cause : Cause} (h : s.conclude i = .error cause) :
    readFrom o s i [] = none := by
  rw [readFrom, run, h]

/-- Where a scan does not fail, the document may end at the end of the text. -/
theorem exists_conclude_eq_ok (h : (readFrom o s i []).isSome = true) :
    ∃ s', s.conclude i = .ok s' := by
  cases hend : s.conclude i with
  | ok s' => exact ⟨s', rfl⟩
  | error cause =>
    rw [readFrom_nil_of_error hend] at h
    cases h

/-- The events of a value with those of what wraps it. -/
def wrapped (next : Place) (start stop : Nat) (events : List Event) : List Event :=
  next.wrapper.map (⟨.opening ·, start, start⟩) ++
    (events ++ next.wrapper.map (⟨.closing ·, start, stop⟩))

namespace State

/-! ## Places -/

/-- The state is between tokens at some place, and no note is open. -/
structure At (s : State) (place : Place) : Prop where
  mode : s.mode = .between place
  container : s.opened.head?.map Prod.fst = place.container?
  note : s.note? = none

theorem At.ne_done {place : Place} (h : s.At place) : s.mode ≠ .done := by
  rw [h.mode]
  nofun

/-- At a place, a byte is read right there, unless it may end an inline note. -/
theorem feed_eq_visit {place : Place} (hmode : s.mode = .between place) (hplace : place ≠ .afterRules .inline) :
    s.feed o b i = s.visit o place b i := by
  rw [feed, hmode]
  change land o b i (place :: s.resume) s = _
  rw [land, if_neg fun hinline => hplace hinline.1]
  rw [show { s with mode := .between place, resume := s.resume } = s from by rw [← hmode]]

theorem At.feed_eq {place : Place} (h : s.At place) (hplace : place ≠ .afterRules .inline) :
    s.feed o b i = s.visit o place b i :=
  feed_eq_visit h.mode hplace

/-- A byte that is no blank and starts no comment is the first of a token. -/
theorem visit_eq_token {place : Place} (hspace : Bytes.isSpace b = false)
    (hcomment : commentMode? b = none) : s.visit o place b i = s.token o place b i := by
  rw [visit, hspace, hcomment]
  split
  · next h => cases h
  · split <;> rfl

/-- The state after some more events. -/
def told (s : State) (events : List Event) : State :=
  { s with emitted := events.reverse ++ s.emitted }

theorem told_append (s : State) (events more : List Event) :
    s.told (events ++ more) = (s.told events).told more := by
  simp [told]

theorem At.told {place : Place} (h : s.At place) (events : List Event) : (s.told events).At place :=
  ⟨h.mode, h.container, h.note⟩

theorem At.switch {place place' : Place} (h : s.At place)
    (hcontainer : place'.container? = place.container?) : (s.switch (.between place')).At place' :=
  ⟨rfl, h.container.trans hcontainer.symm, h.note⟩

/-! ## Values -/

/-- A construct has been opened, in what wraps it before the next place, and some events have happened
inside it. -/
def inside (s : State) (next : Place) (c : Construct) (start : Nat) (events : List Event)
    (mode : Mode) : State :=
  { s with
    mode
    resume := next :: s.resume
    opened := (c, start) :: (next.wrapper.map (·, start) ++ s.opened)
    emitted := events.reverse ++ (⟨.opening c, start, start⟩ ::
      ((next.wrapper.map (⟨.opening ·, start, start⟩)).reverse ++ s.emitted)) }

/-- A value has been passed with some events. -/
def past (s : State) (next : Place) (stop : Nat) (events : List Event) : State :=
  ((s.told events).settle stop).switch (.between next)

theorem inside_told (next : Place) (c : Construct) (start : Nat) (events more : List Event)
    (mode : Mode) :
    (s.inside next c start events mode).told more = s.inside next c start (events ++ more) mode := by
  simp [inside, told]

theorem opened_settle (s : State) (stop : Nat) : (s.settle stop).opened = s.opened := by
  rw [settle]
  split <;> rfl

/-- Past a value, the scan is at the next place. -/
theorem At.past {place next : Place} (h : s.At place) (hcontainer : next.container? = place.container?)
    (stop : Nat) (events : List Event) : (s.past next stop events).At next := by
  have hopened : (s.past next stop events).opened = s.opened := opened_settle (s.told events) stop
  refine ⟨rfl, ?_, ?_⟩
  · rw [hopened, h.container, hcontainer]
  · rw [note?, hopened]
    exact h.note

/-- Inside a container, passing a value is having its events. -/
theorem past_eq_told {place next : Place} {c : Construct} (h : s.At place)
    (hplace : place.container? = some c) (stop : Nat) (events : List Event) :
    s.past next stop events = (s.told events).switch (.between next) := by
  have hopened : (s.told events).opened.isEmpty = false := by
    have hhead : (s.told events).opened.head?.map Prod.fst = some c := h.container.trans hplace
    cases hopened : (s.told events).opened with
    | nil =>
      rw [hopened] at hhead
      cases hhead
    | cons => rfl
  rw [State.past, settle, hopened]
  rfl

/-- **The end of a construct leads from inside past it.** -/
theorem finishValue_inside_of_container {next : Place} (hnext : next.followsValue = true)
    (hcontainer : s.opened.head?.map Prod.fst = next.container?) (c : Construct) (start stop : Nat)
    (events : List Event) (mode : Mode) :
    (s.inside next c start events mode).finishValue stop =
      .ok (s.past next stop (wrapped next start stop
        (⟨.opening c, start, start⟩ :: (events ++ [⟨.closing c, start, stop⟩])))) := by
  cases next with
  | finish | afterRules =>
    have hopened : s.opened = [] := by simpa [Place.container?] using hcontainer
    simp [finishValue, endValue, close, closeIf, inside, settle, past, wrapped, told, emit, resumeNext,
      switch, Place.wrapper, hopened]
  | objectNext | arrayNext =>
    obtain ⟨o, hopened, -⟩ := Option.map_eq_some_iff.1 hcontainer
    obtain ⟨outer, hopened⟩ := List.head?_eq_some_iff.1 hopened
    simp [finishValue, endValue, close, closeIf, inside, settle, past, wrapped, told, emit, resumeNext,
      switch, Place.wrapper, Construct.isWrapper, hopened]
  | _ => cases hnext

theorem finishValue_inside {place next : Place} (h : s.At place)
    (hnext : next.followsValue = true) (hcontainer : next.container? = place.container?)
    (c : Construct) (start stop : Nat) (events : List Event) (mode : Mode) :
    (s.inside next c start events mode).finishValue stop =
      .ok (s.past next stop (wrapped next start stop
        (⟨.opening c, start, start⟩ :: (events ++ [⟨.closing c, start, stop⟩])))) :=
  finishValue_inside_of_container hnext (h.container.trans hcontainer.symm) c start stop events mode

/-! ## Handing over -/

/-- Closing constructs changes nothing about the places to resume. -/
theorem resume_of_close {s' : State} {stop : Nat} (h : s.close stop = .ok s') :
    s'.resume = s.resume := by
  unfold close at h
  split at h
  · cases h
  · cases h
    rfl

theorem resume_of_endValue {s' : State} {stop : Nat} (h : s.endValue stop = .ok s') :
    s'.resume = s.resume := by
  obtain ⟨s₁, hclose, h⟩ := Except.bind_eq_ok_iff.1 h
  obtain ⟨s₂, hcloseIf, h⟩ := Except.bind_eq_ok_iff.1 h
  have hresume : s₂.resume = s₁.resume := by
    unfold closeIf at hcloseIf
    split at hcloseIf
    · split at hcloseIf
      · exact resume_of_close hcloseIf
      · cases hcloseIf
        rfl
    · cases hcloseIf
      rfl
  cases h
  rw [← resume_of_close hclose, ← hresume, settle]
  split <;> rfl

/-- What ends before a byte hands it to the place that is resumed, also where blanks stand in front of the byte. -/
theorem land_eq_feed_of_mode {s' : State} {place : Place} {stop : Nat} (h : s.finishValue stop = .ok s')
    (hmode : s'.mode = .between place) (hnote : place ≠ .afterRules .inline) :
    (do land o b i s.resume (← s.endValue stop)) = s'.feed o b i := by
  obtain ⟨s₁, hend, hresume⟩ := Except.bind_eq_ok_iff.1 h
  rw [hend, ← resume_of_endValue hend, Except.ok_bind, feed_eq_visit hmode hnote]
  unfold resumeNext at hresume
  split at hresume
  · cases hresume
  · next next places hplaces =>
    cases hresume
    obtain rfl : next = place := by simpa using hmode
    rw [hplaces, land, if_neg fun hinline => hnote hinline.1]

theorem land_eq_feed {s' : State} {place : Place} (h : s.finishValue i = .ok s')
    (hplace : s'.At place) (hnote : place ≠ .afterRules .inline) :
    (do land o b i s.resume (← s.endValue i)) = s'.feed o b i :=
  land_eq_feed_of_mode h hplace.mode hnote

/-- What ends with the text, or before the blanks at its end, hands the end to the place that is resumed. -/
theorem readFrom_nil_of_land?_of_mode {s' : State} {place : Place} {stop : Nat} (h : s.finishValue stop = .ok s')
    (hmode : s'.mode = .between place) (hnote : place ≠ .afterRules .inline)
    (hconclude : s.conclude i = do land? i s.resume (← s.endValue stop)) :
    readFrom o s i [] = readFrom o s' i [] := by
  obtain ⟨s₁, hend, hresume⟩ := Except.bind_eq_ok_iff.1 h
  rw [hend, ← resume_of_endValue hend, Except.ok_bind] at hconclude
  unfold resumeNext at hresume
  split at hresume
  · cases hresume
  · next next places hplaces =>
    cases hresume
    obtain rfl : next = place := by simpa using hmode
    rw [hplaces] at hconclude
    cases next with
    | finish =>
      have hstop : s.conclude i = .ok s₁.stop := hconclude
      rw [readFrom_nil hstop, readFrom_nil rfl]
      rfl
    | afterRules kind =>
      cases kind with
      | inline => exact (hnote rfl).elim
      | block => rw [readFrom_nil_of_error hconclude]; exact (readFrom_nil_of_error rfl).symm
    | _ => rw [readFrom_nil_of_error hconclude]; exact (readFrom_nil_of_error rfl).symm

theorem readFrom_nil_of_land? {s' : State} {place : Place} (h : s.finishValue i = .ok s')
    (hplace : s'.At place) (hnote : place ≠ .afterRules .inline)
    (hconclude : s.conclude i = do land? i s.resume (← s.endValue i)) :
    readFrom o s i [] = readFrom o s' i [] :=
  readFrom_nil_of_land?_of_mode h hplace.mode hnote hconclude

end State

/-! ## Folds over events -/

/-- A fold over the events of a document ends well if its scan does not fail and all steps end well. -/
theorem foldMarks_eq_ok_iff {σ : Type} {source : Source} {step : σ → Mark → Outcome σ}
    {first last : σ} :
    foldMarks o source step first = .ok last ↔
      ∃ events, read o source.content = ⟨events, none⟩ ∧
        events.foldlM (fun state event => step state ⟨source, event⟩) first = .ok last := by
  rw [foldMarks]
  obtain ⟨events, failure⟩ := read o source.content
  rw [Except.bind_eq_ok_iff]
  constructor
  · rintro ⟨result, hsteps, h⟩
    cases failure with
    | some failure => cases h
    | none =>
      cases h
      exact ⟨events, rfl, hsteps⟩
  · rintro ⟨events', hread, hsteps⟩
    cases hread
    exact ⟨last, hsteps, rfl⟩

/-- The events of a document are those of its scan, unless that fails. -/
theorem marks_eq_ok_iff {source : Source} {all : List Mark} :
    marks o source = .ok all ↔
      ∃ events, read o source.content = ⟨events, none⟩ ∧ all = events.map fun event => ⟨source, event⟩ := by
  have hgather : ∀ (events : List Event) (before : List Mark),
      events.foldlM (fun (marks : List Mark) event => (.ok (⟨source, event⟩ :: marks) : Outcome (List Mark))) before =
        .ok ((events.map fun event => ⟨source, event⟩).reverse ++ before) := by
    intro events
    induction events with
    | nil => exact fun _ => rfl
    | cons event rest ih =>
      intro before
      rw [List.foldlM_cons, Except.ok_bind, ih, List.map_cons, List.reverse_cons, List.append_assoc]
      rfl
  constructor
  · intro h
    cases hfold : foldMarks o source (fun marks mark => .ok (mark :: marks)) [] with
    | error p =>
      rw [Scan.marks, hfold] at h
      cases h
    | ok gathered =>
      rw [Scan.marks, hfold] at h
      obtain rfl := Except.ok.inj h
      obtain ⟨events, hread, hevents⟩ := foldMarks_eq_ok_iff.1 hfold
      rw [hgather, List.append_nil] at hevents
      refine ⟨events, hread, ?_⟩
      rw [← Except.ok.inj hevents, List.reverse_reverse]
  · rintro ⟨events, hread, rfl⟩
    have hfold : foldMarks o source (fun marks mark => .ok (mark :: marks)) [] = .ok _ :=
      foldMarks_eq_ok_iff.2 ⟨events, hread, hgather events []⟩
    rw [Scan.marks, hfold]
    exact congrArg Except.ok (by rw [List.append_nil, List.reverse_reverse])

end Scan
end ExampleSchema
