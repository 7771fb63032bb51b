import ExampleSchema.Proofs.Json.Recognition
import ExampleSchema.Proofs.Scan.Completion
import ExampleSchema.Proofs.Scan.Slots
import ExampleSchema.Value.Parse

/-!
# Why a text is refused

A text that is no JSON text is refused by the scan, for a byte, for its end or for its depth, or by the
builder, for a name that is no valid string.  The builder has two more ways to fail, a value without a
name and an end without a beginning, but no scan lets it come to that, not even one that fails later.

Whatever a scan has reported when it fails is where some document begins.  So a plain scan reports nothing
but events of a JSON text, no note is open when it fails, and what the builder is filling has the names
that the slots of the events say.

* `Scan.arePlain_read`: the events of a plain scan are those of a JSON text.
* `Scan.State.feed_ofBytes`: outside of notes, a byte is refused in the layer that reads bytes, and
  `Scan.layer_of_read` for a plain scan.
* `Value.Builder.Suits.add`: the builder takes an event, or refuses a name.
* `Value.parse_failsOnly`: every refusal is one of the layer that reads bytes.
-/

namespace ExampleSchema

/-! ## Plain events -/

/-- The constructs of JSON texts. -/
def Construct.isPlain : Construct → Bool
  | .literal | .object | .objectKey | .objectValue | .array | .arrayItem => true
  | _ => false

/-- Notes are none. -/
theorem Construct.isPlain_eq_false {c : Construct} (h : (Scan.NoteKind.ofConstruct? c).isSome = true) :
    c.isPlain = false := by
  cases c <;> first | rfl | cases h

/-- The events of JSON texts. -/
def EventKind.isPlain : EventKind → Bool
  | .opening c | .closing c => c.isPlain
  | .newLine | .endTop => true

/-- All events of a list are those of JSON texts. -/
def Event.ArePlain (events : List Event) : Prop := ∀ e ∈ events, e.kind.isPlain = true

theorem Event.arePlain_append {events more : List Event} :
    ArePlain (events ++ more) ↔ ArePlain events ∧ ArePlain more := List.forall_mem_append

theorem arePlain_blankEvents (start : Nat) (blank : Bytes) : Event.ArePlain (blankEvents start blank) := by
  induction blank generalizing start with
  | nil => nofun
  | cons b rest ih =>
    rw [blankEvents, Event.arePlain_append]
    refine ⟨?_, ih (start + 1)⟩
    split
    · exact List.forall_mem_singleton.2 rfl
    · nofun

theorem arePlain_enclosed {c : Construct} (hc : c.isPlain = true) {start stop : Nat} {events : List Event}
    (h : Event.ArePlain events) : Event.ArePlain (enclosed c start stop events) :=
  List.forall_mem_cons.2 ⟨hc, List.forall_mem_append.2 ⟨h, List.forall_mem_singleton.2 hc⟩⟩

namespace Json

open Event (arePlain_append)

theorem arePlain_wrapped {next : Scan.Place} (hnext : next = .arrayNext ∨ next = .objectNext)
    {start stop : Nat} {events : List Event} (h : Event.ArePlain events) :
    Event.ArePlain (Scan.wrapped next start stop events) := by
  rcases hnext with rfl | rfl
  · exact @arePlain_enclosed .arrayItem rfl start stop events h
  · exact @arePlain_enclosed .objectValue rfl start stop events h

theorem Colon.arePlain_events (start : Nat) (colon : Colon) : Event.ArePlain (colon.events start) :=
  arePlain_append.2 ⟨arePlain_blankEvents _ _, arePlain_blankEvents _ _⟩

mutual

/-- The events of a value are plain. -/
theorem arePlain_events (start : Nat) : ∀ t : Json, Event.ArePlain (t.events start)
  | .literal _ => arePlain_enclosed rfl nofun
  | .emptyArray _ | .emptyObject _ => arePlain_enclosed rfl (arePlain_blankEvents _ _)
  | .array items => arePlain_enclosed rfl (Items.arePlain_events _ items)
  | .object members => arePlain_enclosed rfl (Members.arePlain_events _ members)

theorem Items.arePlain_events (start : Nat) : ∀ items : Items, Event.ArePlain (items.events start)
  | .last _ item _ => by
    simp only [Items.events, arePlain_append, arePlain_blankEvents, true_and, and_true]
    exact arePlain_wrapped (Or.inl rfl) (Json.arePlain_events _ item)
  | .more _ item _ rest => by
    simp only [Items.events, arePlain_append, arePlain_blankEvents, true_and]
    exact ⟨arePlain_wrapped (Or.inl rfl) (Json.arePlain_events _ item), Items.arePlain_events _ rest⟩

theorem Members.arePlain_events (start : Nat) :
    ∀ members : Members, Event.ArePlain (members.events start)
  | .last _ _ colon value _ => by
    simp only [Members.events, arePlain_append, arePlain_blankEvents, Colon.arePlain_events, true_and,
      and_true]
    exact ⟨arePlain_enclosed rfl nofun, arePlain_wrapped (Or.inr rfl) (Json.arePlain_events _ value)⟩
  | .more _ _ colon value _ rest => by
    simp only [Members.events, arePlain_append, arePlain_blankEvents, Colon.arePlain_events, true_and]
    exact ⟨arePlain_enclosed rfl nofun, arePlain_wrapped (Or.inr rfl) (Json.arePlain_events _ value),
      Members.arePlain_events _ rest⟩

end

theorem Document.arePlain_events (t : Document) : Event.ArePlain t.events := by
  simp only [Document.events, arePlain_append, arePlain_blankEvents, true_and]
  exact ⟨Json.arePlain_events _ t.root, List.forall_mem_singleton.2 rfl⟩

end Json

/-- The cause is of the layer that reads bytes, or a promise that was broken. -/
def Cause.IsOfBytes (c : Cause) : Prop := c.code.layer = 1 ∨ c.IsFault

/-- A document that ends too early is refused where bytes are read. -/
theorem Cause.IsEarlyEnd.layer {c : Cause} (h : c.IsEarlyEnd) : c.code.layer = 1 := by
  rcases h with h | h <;> rw [h] <;> rfl

namespace Scan

variable {past : List Event} {s : State} {o : Options} {b : UInt8} {i : Nat}

/-- **A scan of a plain text reports nothing but events of a JSON text**, even if it fails. -/
theorem arePlain_read (ho : o.plain = true) (hlength : o.lengthOnly = false) (text : Bytes) :
    Event.ArePlain (read o text).events := by
  obtain ⟨more, hmore, hbegins⟩ := exists_read_of_read o text
  have hread : readFrom o {} 0 more = some (read o more).events :=
    readFrom_start_eq_some_iff.2 (congrArg (Reading.mk _) hmore)
  obtain ⟨t, rfl, hdepth⟩ := exists_document ho hlength (Option.isSome_of_mem hread)
  rw [read_document o t hdepth] at hbegins
  exact fun e he => t.arePlain_events e (hbegins.mem he)

/-- Where all events are plain, no note is open. -/
theorem Sound.inNote_eq_false (h : Sound past i s) (hmode : s.mode ≠ .done)
    (hplain : Event.ArePlain s.emitted) : s.inNote = false := by
  refine Bool.eq_false_iff.2 fun hnote => ?_
  cases h with
  | ended hdone => exact hmode hdone
  | running hfits hrec hle =>
    obtain ⟨c, hc, hkind⟩ := (State.inNote_iff s).1 hnote
    obtain ⟨⟨c, start⟩, hopened, rfl⟩ := List.mem_map.1 hc
    obtain ⟨inside, outside, hsplit⟩ := List.append_of_mem hopened
    obtain ⟨since, earlier, hemitted, -⟩ := History.exists_opening (hsplit ▸ hrec.history)
    have hopening : c.isPlain = true := hplain ⟨.opening c, start, start⟩ (by rw [hemitted]; simp)
    rw [Construct.isPlain_eq_false hkind] at hopening
    cases hopening

/-! ## Bytes that are refused -/

namespace State

/-- A step outside of notes stays there, or is refused in the layer that reads bytes. -/
def StaysOutside (x : Verdict State) : Prop := x.Meets (fun s => s.inNote = false) Cause.IsOfBytes

theorem refuse_ofBytes (s : State) (b : UInt8) (hint : Hint) :
    (s.refuse b hint).FailsOnly Cause.IsOfBytes :=
  Or.inl (show ErrorCode.invalidCharacter.layer = 1 from rfl)

theorem inNote_eq_false_iff :
    s.inNote = false ↔ ∀ c ∈ s.opened, NoteKind.ofConstruct? c.1 = none := by
  rw [inNote, Option.isSome_eq_false_iff, Option.isNone_iff_eq_none, note?, List.findSome?_eq_none_iff]

theorem close_staysOutside (h : s.inNote = false) (stop : Nat) : StaysOutside (s.close stop) := by
  unfold close
  split
  · exact Or.inr rfl
  · next c start rest hopened =>
    rw [inNote_eq_false_iff, hopened] at h
    exact inNote_eq_false_iff.2 (List.forall_mem_cons.1 h).2

theorem closeIf_staysOutside (h : s.inNote = false) (select : Construct → Bool) (stop : Nat) :
    StaysOutside (s.closeIf select stop) := by
  unfold closeIf
  split
  · exact .ite (close_staysOutside h stop) h
  · exact h

theorem inNote_settle (h : s.inNote = false) (stop : Nat) : (s.settle stop).inNote = false := by
  unfold settle
  split <;> exact h

theorem endValue_staysOutside (h : s.inNote = false) (stop : Nat) : StaysOutside (s.endValue stop) :=
  (close_staysOutside h stop).bind fun _ h => (closeIf_staysOutside h _ stop).bind fun _ h =>
    inNote_settle h stop

theorem closeNote_staysOutside (h : s.inNote = false) (stop : Nat) : StaysOutside (s.closeNote stop) :=
  (closeIf_staysOutside h _ _).bind fun _ h => (close_staysOutside h stop).bind fun _ h =>
    inNote_settle h stop

theorem resumeNext_ofBytes (s : State) : s.resumeNext.FailsOnly Cause.IsOfBytes := by
  unfold resumeNext
  split
  · exact Or.inr rfl
  · trivial

theorem finishValue_ofBytes (h : s.inNote = false) (stop : Nat) :
    (s.finishValue stop).FailsOnly Cause.IsOfBytes :=
  (endValue_staysOutside h stop).bind fun s' _ => s'.resumeNext_ofBytes

theorem finishNote_ofBytes (h : s.inNote = false) (stop : Nat) :
    (s.finishNote stop).FailsOnly Cause.IsOfBytes :=
  (closeNote_staysOutside h stop).bind fun s' _ => s'.resumeNext_ofBytes

theorem skipBlank_ofBytes (s : State) (b : UInt8) (i : Nat) :
    (s.skipBlank b i).FailsOnly Cause.IsOfBytes := by
  unfold skipBlank
  split
  · split
    · trivial
    · trivial
    · exact refuse_ofBytes s b _
  · trivial

theorem openContainer_ofBytes (s : State) (c : Construct) (inside next : Place) (i : Nat) :
    (s.openContainer c inside next i).FailsOnly Cause.IsOfBytes :=
  .ite trivial (Or.inl rfl)

theorem startValue_ofBytes (o : Options) (s : State) (next : Place) (b : UInt8) (i : Nat) :
    (startValue o s next b i).FailsOnly Cause.IsOfBytes := by
  unfold startValue
  split
  iterate 2 exact openContainer_ofBytes s _ _ next i
  iterate 6 trivial
  exact .ite trivial (.ite trivial (refuse_ofBytes s b _))

/-- Only in a note a shortcut for a name is refused as what it is. -/
theorem startKey_ofBytes (h : s.inNote = false) : (startKey o s b i).FailsOnly Cause.IsOfBytes := by
  unfold startKey
  refine .ite trivial ?_
  rw [h, if_neg Bool.false_ne_true]
  exact .ite trivial (refuse_ofBytes s b _)

theorem token_ofBytes (h : s.inNote = false) (place : Place) :
    (s.token o place b i).FailsOnly Cause.IsOfBytes := by
  unfold token
  split
  all_goals
    first
    | trivial
    | exact startValue_ofBytes o _ _ b i
    | exact startKey_ofBytes h
    | exact finishValue_ofBytes h (i + 1)
    | exact refuse_ofBytes s b _
    | exact .ite trivial (refuse_ofBytes s b _)

theorem visit_ofBytes (h : s.inNote = false) (place : Place) :
    (s.visit o place b i).FailsOnly Cause.IsOfBytes := by
  unfold visit
  refine .ite (s.skipBlank_ofBytes b i) (.ite ?_ (token_ofBytes h place))
  split
  · trivial
  · exact token_ofBytes h place

theorem land_ofBytes {places : List Place} (h : s.inNote = false) :
    (land o b i places s).FailsOnly Cause.IsOfBytes := by
  induction places generalizing s with
  | nil => exact Or.inr rfl
  | cons place rest ih =>
    rw [land]
    refine .ite ((closeNote_staysOutside h i).bind fun _ h => ih h) ?_
    exact @visit_ofBytes { s with mode := .between place, resume := rest } _ _ _ h place

/-- What ends before a byte hands it on. -/
theorem endValue_land_ofBytes (h : s.inNote = false) (stop : Nat) :
    (do land o b i s.resume (← s.endValue stop)).FailsOnly Cause.IsOfBytes :=
  (endValue_staysOutside h stop).bind fun _ h => land_ofBytes h

theorem feedString_ofBytes (h : s.inNote = false) : (s.feedString b i).FailsOnly Cause.IsOfBytes := by
  unfold feedString
  split
  · exact finishValue_ofBytes h (i + 1)
  · trivial
  · exact .ite (refuse_ofBytes s b _) trivial

theorem feedEscape_ofBytes (s : State) (b : UInt8) : (s.feedEscape b).FailsOnly Cause.IsOfBytes := by
  unfold feedEscape
  split
  iterate 9 trivial
  exact refuse_ofBytes s b _

theorem feedNumber_ofBytes (h : s.inNote = false) (part : NumberPart) :
    (s.feedNumber o part b i).FailsOnly Cause.IsOfBytes := by
  unfold feedNumber
  split
  · trivial
  · exact refuse_ofBytes s b _
  · exact endValue_land_ofBytes h i

theorem feedKeyword_ofBytes (h : s.inNote = false) (word : Keyword) (next : UInt8) (rest : Bytes) :
    (s.feedKeyword word next rest b i).FailsOnly Cause.IsOfBytes := by
  refine .ite ?_ (refuse_ofBytes s b _)
  cases rest with
  | nil => exact finishValue_ofBytes h (i + 1)
  | cons => trivial

theorem feedShortcut_ofBytes (h : s.inNote = false) (part : ShortcutPart) :
    (s.feedShortcut o part b i).FailsOnly Cause.IsOfBytes := by
  have hname (s : State) (h : s.inNote = false) :
      (feedShortcut.afterName o b i s).FailsOnly Cause.IsOfBytes :=
    .ite trivial (.ite trivial (endValue_land_ofBytes h s.nameEnd))
  cases part with
  | mark => exact .ite trivial (refuse_ofBytes s b _)
  | name => exact .ite trivial (hname { s with nameEnd := i } h)
  | afterName => exact hname s h
  | afterBar => exact .ite trivial (.ite trivial (refuse_ofBytes s b _))

theorem feedCommentStart_ofBytes (s : State) (b : UInt8) (i : Nat) :
    (s.feedCommentStart b i).FailsOnly Cause.IsOfBytes := by
  unfold feedCommentStart
  split
  · trivial
  · trivial
  · exact refuse_ofBytes s b _

theorem feedLineComment_ofBytes (h : s.inNote = false) :
    (s.feedLineComment o b i).FailsOnly Cause.IsOfBytes := .ite (land_ofBytes h) trivial

theorem feedBlockComment_ofBytes (s : State) (count : Nat) (b : UInt8) (i : Nat) :
    (s.feedBlockComment count b i).FailsOnly Cause.IsOfBytes := by
  unfold feedBlockComment
  split
  · exact .ite s.resumeNext_ofBytes trivial
  all_goals trivial

theorem feedInline_ofBytes (h : s.inNote = false) : (s.feedInline o b i).FailsOnly Cause.IsOfBytes := by
  refine .ite ((closeNote_staysOutside h i).bind fun _ h => land_ofBytes h) ?_
  split
  · trivial
  · exact openContainer_ofBytes s _ _ _ i
  · trivial
  · exact .ite trivial trivial

theorem feedBlockStart_ofBytes (s : State) (b : UInt8) (i : Nat) :
    (s.feedBlockStart b i).FailsOnly Cause.IsOfBytes := by
  unfold feedBlockStart
  split
  · exact openContainer_ofBytes s _ _ _ i
  · trivial
  · trivial
  · exact .ite trivial trivial

theorem feedBlockTextStar_ofBytes (h : s.inNote = false) :
    (s.feedBlockTextStar b i).FailsOnly Cause.IsOfBytes := by
  unfold feedBlockTextStar
  split
  · exact finishNote_ofBytes h (i + 1)
  all_goals trivial

/-- **Outside of notes, a byte is refused in the layer that reads bytes.** -/
theorem feed_ofBytes (h : s.inNote = false) : (s.feed o b i).FailsOnly Cause.IsOfBytes := by
  unfold feed
  cases s.mode with
  | between place => exact land_ofBytes h
  | done | blockText => trivial
  | string => exact feedString_ofBytes h
  | escape => exact s.feedEscape_ofBytes b
  | unicode digits => exact .ite trivial (refuse_ofBytes s b _)
  | number part => exact feedNumber_ofBytes h part
  | keyword word next rest => exact feedKeyword_ofBytes h word next rest
  | shortcut part => exact feedShortcut_ofBytes h part
  | ruleName | keyName => exact .ite trivial (endValue_land_ofBytes h i)
  | keyMark => exact .ite trivial (refuse_ofBytes s b _)
  | commentStart => exact s.feedCommentStart_ofBytes b i
  | hashes count => exact .ite trivial (.ite (s.feedBlockComment_ofBytes 0 b i) (feedLineComment_ofBytes h))
  | lineComment => exact feedLineComment_ofBytes h
  | blockComment count => exact s.feedBlockComment_ofBytes count b i
  | inlineStart | inlineDash | inlineText => exact feedInline_ofBytes h
  | blockStart | blockDash => exact s.feedBlockStart_ofBytes b i
  | blockStartStar => exact .ite (finishNote_ofBytes h (i + 1)) trivial
  | blockTextStar => exact feedBlockTextStar_ofBytes h
  | blockAfterRulesStar => exact .ite (finishNote_ofBytes h (i + 1)) (refuse_ofBytes s b _)

end State

/-! ## Runs -/

/-- A run of which all events are plain fails in the layer that reads bytes. -/
theorem run_layer (o : Options) {text : Bytes} (h : Sound past i s)
    (hplain : Event.ArePlain (run o s i text).1.emitted) :
    ∀ f ∈ (run o s i text).2, f.cause.code.layer = 1 := by
  induction text generalizing past s i with
  | nil =>
    have hconclude := State.conclude_concludes h
    rw [run]
    cases hend : s.conclude i with
    | ok s' => rintro f ⟨⟩
    | error cause =>
      rw [hend] at hconclude
      rintro f ⟨⟩
      exact hconclude.layer
  | cons b rest ih =>
    rw [run] at hplain ⊢
    split at hplain
    · next hdone =>
      rw [if_pos hdone]
      rintro f ⟨⟩
    · next hdone =>
      rw [if_neg hdone]
      have hgoes := State.feed_goes o b h
      cases hfeed : s.feed o b i with
      | ok s' =>
        rw [hfeed] at hplain
        exact ih (hgoes.of_ok hfeed) hplain
      | error cause =>
        rw [hfeed] at hplain
        rintro f ⟨⟩
        have hlayer := (State.feed_ofBytes (h.inNote_eq_false hdone hplain)).of_error hfeed
        exact hlayer.resolve_right (ErrorCode.ne_internal_of_isOfReading (hgoes.of_error hfeed).1)

/-- **A scan of a plain text fails in the layer that reads bytes.** -/
theorem layer_of_read (ho : o.plain = true) (hlength : o.lengthOnly = false) {text : Bytes} {f : Failure}
    (h : (read o text).failure = some f) : f.cause.code.layer = 1 :=
  run_layer o sound_start (fun e he => arePlain_read ho hlength text e (List.mem_reverse.2 he)) f h

end Scan

/-! ## Parsing -/

namespace Value

open Scan (Slot)

/-- A container that is being filled suits what the events fill. -/
def Frame.Suits : Slot → Frame → Prop
  | .object isNamed, .object _ name? => isNamed = true → name?.isSome = true
  | .array, .array _ => True
  | _, _ => False

namespace Builder

/-- What the builder is filling suits what the events fill. -/
def Suits (slots : List Slot) (b : Builder) : Prop := List.Forall₂ Frame.Suits slots b.frames

/-- An event is taken, or a name is refused that is no valid string. -/
def Takes (slots : List Slot) (x : Outcome Builder) : Prop :=
  x.Meets (Suits slots) fun p => p.code = .invalidString

variable {slots slots' : List Slot} {b : Builder}

/-- A value is put where it belongs. -/
theorem Suits.place (h : b.Suits slots) (hfill : Slot.fill slots = some slots') (value : Value) :
    Takes slots' (b.place value) := by
  obtain ⟨frames, root?⟩ := b
  cases h with
  | nil =>
    cases hfill
    exact .nil
  | @cons slot frame slots frames hslot hrest =>
    rcases slot with isNamed | - | - <;> rcases frame with ⟨members, name?⟩ | ⟨items⟩ <;>
      try exact hslot.elim
    · cases isNamed with
      | false => cases hfill
      | true =>
        cases hfill
        obtain ⟨⟨name, mark⟩, rfl⟩ := Option.isSome_iff_exists.1 (hslot rfl)
        exact .cons nofun hrest
    · cases hfill
      exact .cons trivial hrest

/-- The next member has its name, if that is a valid string. -/
theorem Suits.takeName (h : b.Suits slots) (mark : Mark)
    (htake : Slot.take slots (.closing .objectKey) = some slots') : Takes slots' (b.takeName mark) := by
  obtain ⟨frames, root?⟩ := b
  cases h with
  | nil => cases htake
  | @cons slot frame slots frames hslot hrest =>
    rcases slot with isNamed | - | - <;> rcases frame with ⟨members, name?⟩ | ⟨items⟩ <;>
      first | exact hslot.elim | cases htake
    rw [Builder.takeName]
    cases Quoted.decode? mark.bytes with
    | none => exact rfl
    | some name => exact .cons (fun _ => rfl) hrest

/-- The container that ends is the one that is being filled, and it is put where it belongs. -/
theorem Suits.leave (h : b.Suits slots) {mark : Mark}
    (hkind : mark.kind = .closing .object ∨ mark.kind = .closing .array)
    (htake : Slot.take slots mark.kind = some slots') : Takes slots' (b.leave mark) := by
  obtain ⟨frames, root?⟩ := b
  cases h with
  | nil => rcases hkind with hkind | hkind <;> rw [hkind] at htake <;> cases htake
  | @cons slot frame slots frames hslot hrest =>
    have hplace (value : Value) (hfill : Slot.fill slots = some slots') :
        Takes slots' (Builder.place ⟨frames, root?⟩ value) :=
      @Suits.place slots slots' ⟨frames, root?⟩ hrest hfill value
    rcases slot with isNamed | - | - <;> rcases frame with ⟨members, name?⟩ | ⟨items⟩ <;>
      rcases hkind with hkind | hkind <;> rw [hkind] at htake <;>
      first | exact hslot.elim | exact hplace _ htake | cases htake

/-- **An event of a plain text** is taken, or a name is refused. -/
theorem Suits.add (h : b.Suits slots) {mark : Mark} (hplain : mark.kind.isPlain = true)
    (htake : Slot.take slots mark.kind = some slots') : Takes slots' (b.add mark) := by
  have hleave := @Suits.leave slots slots' b h mark
  rw [Builder.add]
  generalize mark.kind = kind at *
  cases kind with
  | newLine | endTop =>
    cases htake
    exact h
  | opening c =>
    cases c with
    | object =>
      cases htake
      exact .cons nofun h
    | array =>
      cases htake
      exact .cons trivial h
    | literal | objectKey | objectValue | arrayItem =>
      cases htake
      exact h
    | _ => cases hplain
  | closing c =>
    cases c with
    | object | array => exact hleave (by simp) htake
    | objectKey => exact h.takeName mark htake
    | literal => exact h.place htake (.literal mark)
    | objectValue | arrayItem =>
      cases htake
      exact h
    | _ => cases hplain

end Builder

/-- **Why a text is refused**: for a code of the layer that reads bytes. -/
theorem parse_failsOnly (source : Source) : (parse source).FailsOnly fun p => p.code.layer = 1 := by
  have hstart : Builder.Suits [] {} := .nil
  have hstep : ∀ slots slots' (b : Builder), ∀ event ∈ (Scan.read { plain := true } source.content).events,
      b.Suits slots → Slot.take slots event.kind = some slots' →
      (b.add ⟨source, event⟩).Meets (Builder.Suits slots') fun p => p.code.layer = 1 := by
    intro slots slots' b event hevent h htake
    have hplain := Scan.arePlain_read rfl rfl source.content event hevent
    have htakes := @Builder.Suits.add slots slots' b h ⟨source, event⟩ hplain htake
    refine Except.Meets.imp htakes (fun _ => id) fun p hp => ?_
    rw [hp]
    rfl
  have hscan : ∀ f, (Scan.read { plain := true } source.content).failure = some f →
      (f.problem source).code.layer = 1 := fun f hf => Scan.layer_of_read rfl rfl hf
  refine (Scan.foldMarks_meets { plain := true } source hstart hstep hscan).bind fun b _ => ?_
  split
  · trivial
  · exact rfl

end Value
end ExampleSchema
