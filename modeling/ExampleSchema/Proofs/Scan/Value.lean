import ExampleSchema.Proofs.Scan.Reading
import ExampleSchema.Proofs.Scan.Slots

/-!
# A document has a value

A scan that comes to the end has seen a value at the top of the document.  Before the value there are blanks
and comments only, which report ends of lines, so the first thing that is opened is the value; and it has been
closed, because everything has.

* `Construct.isValue`: what a value outside of notes is.
* `BeginsWithValue`: events of which a value is the first to be opened.
* `State.IsBeforeValue`: a state that has not come to the value yet.
* `beginsWithValue_read`: the events of a scan that does not fail begin with a value.
* `Slot.IsOf`, `Slot.isOf_take`: what is being filled can be told from what is open.
-/

namespace ExampleSchema

/-- Whether a construct is a value outside of notes. -/
def Construct.isValue : Construct → Bool
  | .literal | .object | .array | .mixedValue => true
  | _ => false

namespace Scan

/-! ## Before the value -/

/-- Of some events, a value is the first to be opened; only ends of lines come before it. -/
inductive BeginsWithValue : List Event → Prop
  | blank {e : Event} {rest : List Event} (hkind : e.kind = .newLine) (hrest : BeginsWithValue rest) :
      BeginsWithValue (e :: rest)
  | value {e : Event} {rest : List Event} {c : Construct} (hkind : e.kind = .opening c)
      (hvalue : c.isValue = true) : BeginsWithValue (e :: rest)

theorem BeginsWithValue.append {events : List Event} (h : BeginsWithValue events) (more : List Event) :
    BeginsWithValue (events ++ more) := by
  induction h with
  | blank hkind _ ih => exact .blank hkind ih
  | value hkind hvalue => exact .value hkind hvalue

namespace State

variable {s : State} {o : Options} {b : UInt8} {i : Nat}

/-- The value has begun. -/
def HasBegun (s : State) : Prop := BeginsWithValue s.events

/-- The value has not begun: so far there have been blanks, and comments to the last of which the next byte may
belong. -/
structure IsBeforeValue (s : State) : Prop where
  opened : s.opened = []
  emitted : ∀ e ∈ s.emitted, e.kind = .newLine
  place : s.mode = .between .start ∧ s.resume = [] ∨
    (s.mode = .lineComment ∨ (∃ count, s.mode = .hashes count) ∨ ∃ count, s.mode = .blockComment count) ∧
      s.resume = [.start]

/-- Either the value has not begun yet, or it has. -/
abbrev Approaches (x : Verdict State) : Prop :=
  x.Meets (fun s => s.IsBeforeValue ∨ s.HasBegun) fun _ => True

theorem isBeforeValue_start : IsBeforeValue {} where
  opened := rfl
  emitted := nofun
  place := Or.inl ⟨rfl, rfl⟩

/-- The end of a line may be reported before the value. -/
theorem IsBeforeValue.newLine (h : s.IsBeforeValue) (start stop : Nat) :
    (s.emit .newLine start stop).IsBeforeValue where
  opened := h.opened
  emitted := List.forall_mem_cons.2 ⟨rfl, h.emitted⟩
  place := h.place

/-- The value is the first to be opened. -/
theorem IsBeforeValue.hasBegun_begin (h : s.IsBeforeValue) {c : Construct} (hvalue : c.isValue = true)
    (start : Nat) : (s.begin c start).HasBegun := by
  have hblanks : ∀ events : List Event, (∀ e ∈ events, e.kind = .newLine) → ∀ more, BeginsWithValue more →
      BeginsWithValue (events ++ more) := by
    intro events hevents more hmore
    induction events with
    | nil => exact hmore
    | cons e rest ih =>
      obtain ⟨he, hrest⟩ := List.forall_mem_cons.1 hevents
      exact .blank he (ih hrest)
  have hevents : (s.begin c start).events = s.events ++ [⟨.opening c, start, start⟩] := List.reverse_cons
  rw [HasBegun, hevents]
  exact hblanks s.events (fun e he => h.emitted e (List.mem_reverse.1 he)) _ (.value rfl hvalue)

/-- No note is open before the value. -/
theorem IsBeforeValue.note?_eq_none (h : s.IsBeforeValue) : s.note? = none := by
  rw [note?, h.opened]
  rfl

/-- A value begins at the start of the document. -/
theorem startValue_approaches (h : s.IsBeforeValue) : Approaches (startValue o s .finish b i) := by
  have hcontainer {c : Construct} (hvalue : c.isValue = true) (inside : Place) :
      Approaches (s.openContainer c inside .finish i) :=
    .ite (Or.inr (h.hasBegun_begin hvalue i)) trivial
  have hliteral (mode : Mode) : Approaches (.ok ((s.begin .literal i).interrupt mode .finish)) :=
    Or.inr (h.hasBegun_begin rfl i)
  unfold startValue
  split
  · exact hcontainer rfl _
  · exact hcontainer rfl _
  iterate 6 exact hliteral _
  refine .ite (hliteral _) (.ite ?_ trivial)
  rw [inNote, h.note?_eq_none]
  exact Or.inr (h.hasBegun_begin rfl i)

/-- A byte at the start of the document is a blank, starts a comment, or starts the value. -/
theorem visit_start_approaches (h : s.IsBeforeValue) (hresume : s.resume = []) :
    Approaches (s.visit o .start b i) := by
  unfold visit
  refine .ite ?_ ?_
  · rw [skipBlank, h.note?_eq_none]
    exact .ite (Or.inl (h.newLine i (i + 1))) (Or.inl h)
  · split
    · next hcomment =>
      -- Only a comment may start here, and no note.
      have hsign : (Bytes.char b == '#') = true := by
        simp only [Bool.and_eq_true] at hcomment
        exact hcomment.2
      rw [commentMode?, eq_of_beq hsign]
      exact Or.inl ⟨h.opened, h.emitted, Or.inr ⟨Or.inr (Or.inl ⟨1, rfl⟩), by rw [interrupt, hresume]⟩⟩
    · exact startValue_approaches h

/-- A byte is handed on to the start of the document. -/
theorem land_start_approaches (h : s.IsBeforeValue) : Approaches (land o b i [.start] s) := by
  unfold land
  rw [if_neg (by simp)]
  exact visit_start_approaches ⟨h.opened, h.emitted, Or.inl ⟨rfl, rfl⟩⟩ rfl

/-- A byte of a comment up to the end of the line, before the value. -/
theorem feedLineComment_approaches (h : s.IsBeforeValue) (hresume : s.resume = [.start]) :
    Approaches (s.feedLineComment o b i) := by
  unfold feedLineComment
  split
  · rw [hresume]
    exact land_start_approaches h
  · exact Or.inl ⟨h.opened, h.emitted, Or.inr ⟨Or.inl rfl, hresume⟩⟩

/-- A byte of a comment that may span lines, before the value. -/
theorem feedBlockComment_approaches (h : s.IsBeforeValue) (hresume : s.resume = [.start]) (count : Nat) :
    Approaches (s.feedBlockComment count b i) := by
  have hstay {s' : State} (h' : s'.IsBeforeValue) (hresume' : s'.resume = [.start]) (count : Nat) :
      (s'.switch (.blockComment count)).IsBeforeValue :=
    ⟨h'.opened, h'.emitted, Or.inr ⟨Or.inr (Or.inr ⟨count, rfl⟩), hresume'⟩⟩
  unfold feedBlockComment
  split
  · refine .ite ?_ (Or.inl (hstay h hresume _))
    rw [resumeNext, hresume]
    exact Or.inl ⟨h.opened, h.emitted, Or.inl ⟨rfl, rfl⟩⟩
  · exact Or.inl (hstay (h.newLine i (i + 1)) hresume 0)
  · exact Or.inl (hstay h hresume 0)

/-- **A byte before the value** stays before it or starts it. -/
theorem IsBeforeValue.feed (h : s.IsBeforeValue) (o : Options) (b : UInt8) (i : Nat) :
    Approaches (s.feed o b i) := by
  unfold State.feed
  rcases h.place with ⟨hmode, hresume⟩ | ⟨hmode | ⟨count, hmode⟩ | ⟨count, hmode⟩, hresume⟩ <;> rw [hmode]
  · rw [hresume]
    exact land_start_approaches h
  · exact feedLineComment_approaches h hresume
  · dsimp only
    unfold feedHashes
    refine .ite ?_ (.ite (feedBlockComment_approaches h hresume 0) (feedLineComment_approaches h hresume))
    exact Or.inl ⟨h.opened, h.emitted, Or.inr ⟨Or.inr (Or.inl ⟨count + 1, rfl⟩), hresume⟩⟩
  · exact feedBlockComment_approaches h hresume count

/-- No document ends before its value. -/
theorem IsBeforeValue.conclude_ne_ok (h : s.IsBeforeValue) (s' : State) : s.conclude i ≠ .ok s' := by
  intro hend
  unfold conclude at hend
  rcases h.place with ⟨hmode, hresume⟩ | ⟨hmode | ⟨count, hmode⟩ | ⟨count, hmode⟩, hresume⟩ <;>
    rw [hmode, hresume] at hend
  · cases hend
  · cases hend
  · dsimp only at hend
    split at hend <;> cases hend
  · cases hend

/-- Before the value, the document has not ended. -/
theorem IsBeforeValue.mode_ne_done (h : s.IsBeforeValue) : s.mode ≠ .done := by
  rcases h.place with ⟨hmode, -⟩ | ⟨hmode | ⟨count, hmode⟩ | ⟨count, hmode⟩, -⟩ <;> rw [hmode] <;> nofun

end State

/-- What has begun goes on. -/
theorem run_hasBegun (o : Options) {past : List Event} {s : State} {i : Nat} {text : Bytes}
    (hsound : Sound past i s) (h : s.HasBegun) : (run o s i text).1.HasBegun := by
  obtain ⟨more, hmore⟩ := hsound.emitted_suffix_run o text
  rw [State.HasBegun, State.events, ← hmore, List.reverse_append]
  exact h.append _

/-- **A run that does not fail comes to a value.** -/
theorem run_hasBegun_of_isBeforeValue (o : Options) {past : List Event} {s : State} {i : Nat} {text : Bytes}
    (hsound : Sound past i s) (h : s.IsBeforeValue) (hend : (run o s i text).2 = none) :
    (run o s i text).1.HasBegun := by
  induction text generalizing s i with
  | nil =>
    rw [run] at hend
    cases hconclude : s.conclude i with
    | ok s' => exact (h.conclude_ne_ok s' hconclude).elim
    | error cause =>
      rw [hconclude] at hend
      cases hend
  | cons b rest ih =>
    rw [run, if_neg h.mode_ne_done] at hend ⊢
    cases hfeed : s.feed o b i with
    | ok s' =>
      rw [hfeed] at hend
      have hsound' := (State.feed_goes o b hsound).of_ok hfeed
      rcases (h.feed o b i).of_ok hfeed with hbefore | hbegun
      · exact ih hsound' hbefore hend
      · exact run_hasBegun o hsound' hbegun
    | error cause =>
      rw [hfeed] at hend
      cases hend

/-- **The events of a scan that does not fail begin with a value.** -/
theorem beginsWithValue_read {o : Options} {text : Bytes} (h : (read o text).failure = none) :
    BeginsWithValue (read o text).events :=
  run_hasBegun_of_isBeforeValue o sound_start State.isBeforeValue_start h

/-- Everything that a scan opens it closes, if it does not fail. -/
theorem areBalanced_read {o : Options} {text : Bytes} (h : (read o text).failure = none) :
    Event.AreBalanced (read o text).events := by
  obtain ⟨opened, events, hhistory, ⟨rfl, -, n, hevents⟩ | ⟨hfailure, -⟩⟩ := read_history o text
  · rw [hevents, Event.AreBalanced, Event.trackAll_append_singleton hhistory.track_eq]
    rfl
  · exact (hfailure h).elim

/-! ## What is open and what is being filled -/

namespace Slot

/-- What is being filled while a construct is open, whether or not it has a name by now. -/
def ofConstruct? : Construct → Option Slot
  | .object => some (.object false)
  | .array => some .array
  | .inlineNote | .blockNote => some .note
  | _ => none

/-- What is being filled, without its name. -/
def nameless : Slot → Slot
  | .object _ => .object false
  | slot => slot

/-- What is being filled can be told from what is open, but for the names. -/
def IsOf (slots : List Slot) (opened : List (Construct × Nat)) : Prop :=
  slots.map nameless = opened.filterMap fun c => ofConstruct? c.1

variable {slots slots' : List Slot} {opened opened' : List (Construct × Nat)} {e : Event}

theorem map_nameless_fill (h : fill slots = some slots') : slots'.map nameless = slots.map nameless := by
  unfold fill at h
  split at h <;> cases h <;> rfl

/-- **So it is after each event.** -/
theorem isOf_take (h : IsOf slots opened) (htake : take slots e.kind = some slots')
    (htrack : e.track opened = some opened') : IsOf slots' opened' := by
  obtain ⟨kind, start, stop⟩ := e
  unfold IsOf at h ⊢
  cases kind with
  | opening c =>
    obtain rfl := Option.some.inj htrack
    cases c <;> first
      | (obtain rfl := Option.some.inj htake; simpa [ofConstruct?, nameless] using h)
      | (dsimp only [take] at htake
         split at htake <;> cases htake
         simpa [ofConstruct?, nameless] using h)
  | closing c =>
    cases opened with
    | nil => cases htrack
    | cons top rest =>
      obtain ⟨construct, first⟩ := top
      dsimp only [Event.track] at htrack
      split at htrack
      · next hfits =>
        obtain ⟨rfl, -⟩ := hfits
        obtain rfl := Option.some.inj htrack
        rw [List.filterMap_cons] at h
        cases construct with
        | literal | mixedValue | typesShortcut => exact (map_nameless_fill htake).trans h
        | object | array =>
          rcases slots with _ | ⟨isNamed | - | -, rest⟩ <;>
            first
              | exact (map_nameless_fill htake).trans (List.cons.inj h).2
              | cases htake
        | objectKey | inlineNote | blockNote =>
          rcases slots with _ | ⟨isNamed | - | -, rest⟩ <;> cases htake
          first | exact h | exact (List.cons.inj h).2
        | _ =>
          obtain rfl := Option.some.inj htake
          exact h
      · cases htrack
  | newLine | endTop =>
    obtain rfl := Option.some.inj htrack
    obtain rfl := Option.some.inj htake
    exact h

end Slot
end Scan
end ExampleSchema
