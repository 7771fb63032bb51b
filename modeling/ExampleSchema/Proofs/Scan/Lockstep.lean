import ExampleSchema.Proofs.Scan.Reading

/-!
# Two scans of one text

Two scans with different options differ only in what they make of a byte between two tokens.  So a relation between
their outcomes there is one between their outcomes for every byte.

A scan that only measures a document goes on as one that reads it, byte by byte, until something follows the document
that is neither blank nor the beginning of a comment or a note.  There measuring ends the document, and reading fails.
Nothing else tells the two apart, and reading fails for no other reason with the same cause.

* `Cause.IsLeftOver`: the cause is a byte that follows the document.
* `Scan.GoesOn`: a step does not end the document, and does not fail because something follows it.
* `Scan.Relates`: a relation between the outcomes under two sets of options, with `Scan.Relates.feed`.
* `Scan.InStep`: measuring and reading have the same outcome and go on, or the byte follows the document.
* `Scan.State.feed_inStep`, `Scan.run_inStep`: so it is for a byte and for the rest of a text.
* `Scan.State.feed_measuring_of_feed`: a byte that can be read is measured alike.
* `Scan.exists_length_iff`: a document can be measured if reading it fails for no other reason.
-/

namespace ExampleSchema

/-- The cause is a byte that follows the document. -/
def Cause.IsLeftOver (c : Cause) : Prop := ∃ b, c = .unexpectedByte b .afterTopValue .endOfSchema

namespace Scan

/-- Reads a document and ignores what follows it. -/
abbrev Options.measuring : Options := { lengthOnly := true }

/-- A step fails, if at all, for another reason than that something follows the document. -/
abbrev FailsInside (x : Verdict State) : Prop := x.FailsOnly fun c => ¬ c.IsLeftOver

/-- A step does not end the document, and fails, if at all, for another reason than that something follows it. -/
abbrev GoesOn (x : Verdict State) : Prop := x.Meets (fun s => s.mode ≠ .done) fun c => ¬ c.IsLeftOver

/-- **A relation between the outcomes of a byte** under two sets of options.  It holds where both go on alike, also for
what comes after that, and wherever the byte is looked at between two tokens. -/
structure Relates (R : Verdict State → Verdict State → Prop) (o o' : Options) (b : UInt8) (i : Nat) : Prop where
  same : ∀ {x : Verdict State}, GoesOn x → R x x
  bind : ∀ {x : Verdict State} {f g : State → Verdict State}, FailsInside x → (∀ s, R (f s) (g s)) →
    R (x >>= f) (x >>= g)
  visit : ∀ {s : State} {place : Place}, s.mode = .between place →
    R (s.visit o place b i) (s.visit o' place b i)

/-- **Measuring and reading go the same way**, or the byte follows the document: then measuring ends the document, and
reading fails. -/
inductive InStep (b : UInt8) (measured whole : Verdict State) : Prop
  | same (heq : measured = whole) (hgoes : GoesOn whole)
  | stopped (hmeasured : ∃ s : State, measured = .ok s.stop)
      (hwhole : whole = .error (.unexpectedByte b .afterTopValue .endOfSchema))

variable {R : Verdict State → Verdict State → Prop} {o o' : Options} {s : State} {b : UInt8} {i stop : Nat}
  {x : Verdict State}

theorem InStep.of_goesOn (h : GoesOn x) : InStep b x x := .same rfl h

theorem InStep.bind {f g : State → Verdict State} (h : FailsInside x) (hfg : ∀ s, InStep b (f s) (g s)) :
    InStep b (x >>= f) (x >>= g) := by
  cases x with
  | ok s => exact hfg s
  | error c => exact .same rfl h

namespace State

/-! ## Steps that do not look at what follows the document -/

theorem refuse_goesOn (s : State) (b : UInt8) {hint : Hint} (hhint : hint ≠ .endOfSchema) : GoesOn (s.refuse b hint) := by
  rintro ⟨b', h⟩
  exact hhint (Cause.unexpectedByte.inj h).2.2

theorem close_failsInside (s : State) (stop : Nat) : FailsInside (s.close stop) := by
  unfold close
  split
  · exact nofun
  · trivial

theorem closeIf_failsInside (s : State) (select : Construct → Bool) (stop : Nat) :
    FailsInside (s.closeIf select stop) := by
  unfold closeIf
  split
  · exact .ite (close_failsInside s stop) trivial
  · trivial

theorem endValue_failsInside (s : State) (stop : Nat) : FailsInside (s.endValue stop) :=
  (close_failsInside s stop).bind fun s _ => (closeIf_failsInside s _ stop).bind fun _ _ => trivial

theorem closeNote_failsInside (s : State) (stop : Nat) : FailsInside (s.closeNote stop) :=
  (closeIf_failsInside s _ s.textEnd).bind fun s _ => (close_failsInside s stop).bind fun _ _ => trivial

theorem resumeNext_goesOn (s : State) : GoesOn s.resumeNext := by
  unfold resumeNext
  split
  · exact nofun
  · exact nofun

theorem finishValue_goesOn (s : State) (stop : Nat) : GoesOn (s.finishValue stop) :=
  (endValue_failsInside s stop).bind fun s _ => resumeNext_goesOn s

theorem finishNote_goesOn (s : State) (stop : Nat) : GoesOn (s.finishNote stop) :=
  (closeNote_failsInside s stop).bind fun s _ => resumeNext_goesOn s

theorem skipBlank_goesOn (hmode : s.mode ≠ .done) : GoesOn (s.skipBlank b i) := by
  unfold skipBlank
  split
  · split
    · exact hmode
    · exact hmode
    · exact refuse_goesOn s b nofun
  · exact hmode

theorem openContainer_goesOn (s : State) (construct : Construct) (inside next : Place) :
    GoesOn (s.openContainer construct inside next i) := by
  unfold openContainer
  split
  · exact nofun
  · exact nofun

theorem startValue_goesOn (s : State) (next : Place) : GoesOn (startValue o s next b i) := by
  unfold startValue
  split
  iterate 2 exact openContainer_goesOn ..
  iterate 6 exact nofun
  · split
    · exact nofun
    · split
      · exact nofun
      · exact refuse_goesOn s b nofun

theorem startKey_goesOn (s : State) : GoesOn (startKey o s b i) := by
  unfold startKey
  split
  · exact nofun
  split
  · split
    · exact nofun
    · split
      · exact nofun
      · exact refuse_goesOn s b nofun
  · split
    · exact nofun
    · exact refuse_goesOn s b nofun

theorem feedString_goesOn (hmode : s.mode ≠ .done) : GoesOn (s.feedString b i) := by
  unfold feedString
  split
  · exact finishValue_goesOn s _
  · exact nofun
  · exact .ite (refuse_goesOn s b nofun) hmode

theorem feedEscape_goesOn (s : State) : GoesOn (s.feedEscape b) := by
  unfold feedEscape
  split
  iterate 9 exact nofun
  · exact refuse_goesOn s b nofun

theorem feedUnicode_goesOn (s : State) (digits : Nat) : GoesOn (s.feedUnicode digits b) := by
  unfold feedUnicode
  split
  · split <;> exact nofun
  · exact refuse_goesOn s b nofun

theorem feedKeyword_goesOn (s : State) (word : Keyword) (next : UInt8) (rest : Bytes) :
    GoesOn (s.feedKeyword word next rest b i) := by
  unfold feedKeyword
  split
  · split
    · exact finishValue_goesOn s _
    · rintro ⟨⟩
  · exact refuse_goesOn s b (by simp)

theorem feedKeyMark_goesOn (s : State) : GoesOn (s.feedKeyMark b) := by
  unfold feedKeyMark
  split
  · exact nofun
  · exact refuse_goesOn s b nofun

theorem feedCommentStart_goesOn (s : State) : GoesOn (s.feedCommentStart b i) := by
  unfold feedCommentStart
  split
  · exact nofun
  · exact nofun
  · exact refuse_goesOn s b nofun

theorem feedBlockComment_goesOn (s : State) (hashes : Nat) : GoesOn (s.feedBlockComment hashes b i) := by
  unfold feedBlockComment
  split
  · split
    · exact resumeNext_goesOn s
    · exact nofun
  · exact nofun
  · exact nofun

theorem feedBlockText_goesOn (s : State) : GoesOn (.ok (s.feedBlockText b i)) := by
  unfold feedBlockText
  split <;> exact nofun

theorem feedBlockTextStar_goesOn (hmode : s.mode ≠ .done) : GoesOn (s.feedBlockTextStar b i) := by
  unfold feedBlockTextStar
  split
  · exact finishNote_goesOn s _
  · exact hmode
  · exact feedBlockText_goesOn _

theorem feedBlockStartStar_goesOn (s : State) : GoesOn (s.feedBlockStartStar b i) :=
  .ite (finishNote_goesOn s _) (feedBlockText_goesOn _)

theorem feedBlockStart_goesOn (hmode : s.mode ≠ .done) : GoesOn (s.feedBlockStart b i) := by
  unfold feedBlockStart
  split
  · exact openContainer_goesOn ..
  · exact nofun
  · exact nofun
  · exact .ite hmode (feedBlockText_goesOn _)

theorem feedBlockAfterRulesStar_goesOn (s : State) : GoesOn (s.feedBlockAfterRulesStar b i) :=
  .ite (finishNote_goesOn s _) (refuse_goesOn s b nofun)

end State

/-! ## From the bytes between tokens to every byte -/

namespace Relates

theorem land (h : Relates R o o' b i) (places : List Place) (s : State) :
    R (State.land o b i places s) (State.land o' b i places s) := by
  induction places generalizing s with
  | nil => exact h.same nofun
  | cons place rest ih =>
    unfold State.land
    split
    · exact h.bind (s.closeNote_failsInside i) ih
    · exact h.visit rfl

theorem feedInline (h : Relates R o o' b i) (hmode : s.mode ≠ .done) : R (s.feedInline o b i) (s.feedInline o' b i) := by
  unfold State.feedInline
  split
  · exact h.bind (s.closeNote_failsInside i) (h.land _)
  · refine h.same ?_
    split
    · exact nofun
    · exact State.openContainer_goesOn ..
    · exact nofun
    · split
      · exact hmode
      · exact nofun

theorem feedLineComment (h : Relates R o o' b i) (s : State) : R (s.feedLineComment o b i) (s.feedLineComment o' b i) := by
  unfold State.feedLineComment
  split
  · exact h.land _ s
  · exact h.same nofun

theorem afterName (h : Relates R o o' b i) (s : State) :
    R (State.feedShortcut.afterName o b i s) (State.feedShortcut.afterName o' b i s) := by
  unfold State.feedShortcut.afterName
  split
  · exact h.same nofun
  split
  · exact h.same nofun
  · exact h.bind (s.endValue_failsInside _) (h.land _)

theorem feedShortcut (h : Relates R o o' b i) (hmode : s.mode ≠ .done) (part : ShortcutPart) :
    R (s.feedShortcut o part b i) (s.feedShortcut o' part b i) := by
  unfold State.feedShortcut
  cases part with
  | mark =>
    refine h.same ?_
    dsimp only
    split
    · exact nofun
    · exact s.refuse_goesOn b nofun
  | name =>
    dsimp only
    split
    · exact h.same hmode
    · exact h.afterName _
  | afterName => exact h.afterName s
  | afterBar =>
    refine h.same ?_
    dsimp only
    split
    · exact hmode
    split
    · exact nofun
    · exact s.refuse_goesOn b nofun

theorem feedHashes (h : Relates R o o' b i) (s : State) (count : Nat) :
    R (s.feedHashes o count b i) (s.feedHashes o' count b i) := by
  unfold State.feedHashes
  split
  · exact h.same nofun
  split
  · exact h.same (s.feedBlockComment_goesOn 0)
  · exact h.feedLineComment s

theorem feedNumber (h : Relates R o o' b i) (s : State) (part : NumberPart) :
    R (s.feedNumber o part b i) (s.feedNumber o' part b i) := by
  unfold State.feedNumber
  split
  · exact h.same nofun
  · next hint _ hhint =>
    have hdigits : hint ≠ .endOfSchema := by
      rintro rfl
      cases part <;> simp [NumberPart.refusal?] at hhint
    exact h.same (s.refuse_goesOn b hdigits)
  · exact h.bind (s.endValue_failsInside i) (h.land _)

theorem feedName (h : Relates R o o' b i) (hmode : s.mode ≠ .done) : R (s.feedName o b i) (s.feedName o' b i) := by
  unfold State.feedName
  split
  · exact h.same hmode
  · exact h.bind (s.endValue_failsInside i) (h.land _)

/-- **What relates the outcomes between tokens relates them for every byte.** -/
theorem feed (h : Relates R o o' b i) (hmode : s.mode ≠ .done) : R (s.feed o b i) (s.feed o' b i) := by
  unfold State.feed
  split
  · exact h.land _ s
  · next hdone => exact (hmode hdone).elim
  · exact h.same (State.feedString_goesOn hmode)
  · exact h.same (s.feedEscape_goesOn)
  · exact h.same (s.feedUnicode_goesOn _)
  · exact h.feedNumber s _
  · exact h.same (s.feedKeyword_goesOn ..)
  · exact h.feedShortcut hmode _
  · exact h.feedName hmode
  · exact h.feedName hmode
  · exact h.same s.feedKeyMark_goesOn
  · exact h.same s.feedCommentStart_goesOn
  · exact h.feedHashes s _
  · exact h.feedLineComment s
  · exact h.same (s.feedBlockComment_goesOn _)
  iterate 3 exact h.feedInline hmode
  iterate 2 exact h.same (State.feedBlockStart_goesOn hmode)
  · exact h.same s.feedBlockStartStar_goesOn
  · exact h.same (State.feedBlockText_goesOn _)
  · exact h.same (State.feedBlockTextStar_goesOn hmode)
  · exact h.same s.feedBlockAfterRulesStar_goesOn

end Relates

namespace State

/-! ## Measuring between tokens -/

theorem startValue_measuring : startValue .measuring = startValue {} := rfl

theorem startKey_measuring : startKey .measuring = startKey {} := rfl

/-- Only behind the value does a token make a difference. -/
theorem token_inStep {place : Place} (hmode : s.mode = .between place) :
    InStep b (s.token .measuring place b i) (s.token {} place b i) := by
  by_cases hplace : place = .finish
  · subst hplace
    refine .stopped ⟨s, rfl⟩ ?_
    change s.refuse b .endOfSchema = _
    rw [refuse, hmode]
    rfl
  · have hsame : s.token .measuring place b i = s.token {} place b i := by
      simp only [token, startValue_measuring, startKey_measuring]
      split
      · rfl
      · exact (hplace rfl).elim
      all_goals rfl
    refine .same hsame ?_
    unfold token
    split
    · exact startValue_goesOn s _
    · exact (hplace rfl).elim
    · exact finishValue_goesOn s _
    · exact startKey_goesOn s
    · exact refuse_goesOn s b nofun
    · exact startKey_goesOn s
    · exact nofun
    · exact refuse_goesOn s b nofun
    · exact startValue_goesOn _ _
    · exact nofun
    · exact finishValue_goesOn s _
    · exact refuse_goesOn s b nofun
    · exact finishValue_goesOn s _
    · exact startValue_goesOn _ _
    · exact refuse_goesOn s b nofun
    · exact startValue_goesOn _ _
    · exact nofun
    · exact finishValue_goesOn s _
    · exact refuse_goesOn s b nofun
    · exact nofun
    · exact refuse_goesOn s b nofun
    · exact nofun
    · exact nofun
    · exact refuse_goesOn s b nofun

theorem visit_inStep {place : Place} (hmode : s.mode = .between place) :
    InStep b (s.visit .measuring place b i) (s.visit {} place b i) := by
  unfold visit
  split
  · exact .of_goesOn (skipBlank_goesOn (by rw [hmode]; nofun))
  split
  · unfold commentMode?
    split
    · next mode hcomment =>
      refine .of_goesOn ?_
      split at hcomment
      · obtain rfl := Option.some.inj hcomment
        exact nofun
      · obtain rfl := Option.some.inj hcomment
        exact nofun
      · cases hcomment
    · exact token_inStep hmode
  · exact token_inStep hmode

/-- **A byte is measured as it is read**, unless it follows the document. -/
theorem feed_inStep (hmode : s.mode ≠ .done) (b : UInt8) (i : Nat) :
    InStep b (s.feed .measuring b i) (s.feed {} b i) :=
  Relates.feed ⟨.of_goesOn, .bind, visit_inStep⟩ hmode

/-- What is read is measured, and does not end the document. -/
theorem feed_measuring_of_feed (hmode : s.mode ≠ .done) {s' : State} (h : s.feed {} b i = .ok s') :
    s.feed .measuring b i = .ok s' ∧ s'.mode ≠ .done := by
  cases feed_inStep hmode b i with
  | same heq hgoes => exact ⟨heq.trans h, hgoes.of_ok h⟩
  | stopped hmeasured hwhole => cases hwhole.symm.trans h

/-- The end of the text is no byte that follows the document. -/
theorem land?_failsInside (length : Nat) (places : List Place) (s : State) : FailsInside (land? length places s) := by
  induction places generalizing s with
  | nil => exact nofun
  | cons place rest ih =>
    cases place with
    | finish => trivial
    | afterRules kind =>
      cases kind with
      | inline => exact (closeNote_failsInside s length).bind fun s _ => ih s
      | block => exact nofun
    | _ => exact nofun

theorem conclude_failsInside (s : State) (length : Nat) : FailsInside (s.conclude length) := by
  have hend (stop : Nat) : FailsInside (do land? length s.resume (← s.endValue stop)) :=
    (endValue_failsInside s stop).bind fun s _ => land?_failsInside length _ s
  have hnote : FailsInside (do land? length s.resume (← s.closeNote length)) :=
    (closeNote_failsInside s length).bind fun s _ => land?_failsInside length _ s
  have hearly : FailsInside (conclude.endsEarly s) := nofun
  unfold conclude
  split
  · trivial
  · exact land?_failsInside ..
  · exact .ite (hend length) hearly
  · exact hend length
  · exact hend s.nameEnd
  · exact land?_failsInside ..
  · exact .ite hearly (land?_failsInside ..)
  iterate 3 exact hnote
  · exact hearly

end State

/-! ## Texts -/

/-- **A text is measured as it is read**, or up to a byte that follows the document. -/
theorem run_inStep (s : State) (i : Nat) (text : Bytes) :
    (run .measuring s i text = run {} s i text ∧ ∀ f ∈ (run {} s i text).2, ¬ f.cause.IsLeftOver) ∨
      (run .measuring s i text).2 = none ∧ ∃ f ∈ (run {} s i text).2, f.cause.IsLeftOver := by
  induction text generalizing s i with
  | nil =>
    refine Or.inl ⟨rfl, ?_⟩
    rw [run]
    have hfails := State.conclude_failsInside s i
    cases hend : s.conclude i with
    | ok s' => rintro f ⟨⟩
    | error c =>
      rintro f ⟨⟩
      exact hfails.of_error hend
  | cons b rest ih =>
    rw [run, run]
    split
    · exact Or.inl ⟨rfl, by simp⟩
    next hmode =>
    cases State.feed_inStep hmode b i with
    | same heq hgoes =>
      rw [heq]
      cases hfeed : s.feed {} b i with
      | ok s' => exact ih s' (i + 1)
      | error c =>
        refine Or.inl ⟨rfl, ?_⟩
        rintro f ⟨⟩
        exact hgoes.of_error hfeed
    | stopped hmeasured hwhole =>
      obtain ⟨s', hmeasured⟩ := hmeasured
      rw [hmeasured, hwhole]
      have hdone : run .measuring s'.stop (i + 1) rest = (s'.stop, none) := run_of_done rfl (i + 1) rest
      exact Or.inr ⟨congrArg Prod.snd hdone, _, rfl, b, rfl⟩

/-- What is read without a failure is measured alike. -/
theorem read_measuring_of_read {text : Bytes} {events : List Event} (h : read {} text = ⟨events, none⟩) :
    read .measuring text = ⟨events, none⟩ := by
  have hnone : (run {} {} 0 text).2 = none := congrArg Reading.failure h
  rcases run_inStep {} 0 text with ⟨heq, -⟩ | ⟨-, f, hf, -⟩
  · rw [← h]
    exact congrArg (fun r : State × Option Failure => (⟨r.1.events, r.2⟩ : Reading)) heq
  · rw [hnone] at hf
    cases hf

/-- A scan that does not fail reports the end of the document last. -/
theorem exists_read_of_failure_eq_none {o : Options} {text : Bytes} (h : (read o text).failure = none) :
    ∃ before n, read o text = ⟨before ++ [⟨.endTop, n, n⟩], none⟩ ∧ ∀ e ∈ before, e.kind ≠ .endTop := by
  obtain ⟨opened, events, hhistory, hread⟩ := read_history o text
  rcases hread with ⟨-, -, n, hevents⟩ | ⟨hfailure, -⟩
  · refine ⟨events.reverse, n, ?_, fun e he => hhistory.kind_ne_endTop e (List.mem_reverse.1 he)⟩
    rw [← h, ← hevents]
  · exact (hfailure h).elim

/-- The length of a document is where it ends. -/
theorem length_eq_ok_iff {source : Source} {n : Nat} : length source = .ok n ↔
    ∃ before, read .measuring source.content = ⟨before ++ [⟨.endTop, n, n⟩], none⟩ := by
  cases hfailure : (read .measuring source.content).failure with
  | some f =>
    refine ⟨fun h => ?_, ?_⟩
    · rw [length, hfailure] at h
      cases h
    · rintro ⟨before, hread⟩
      rw [hread] at hfailure
      cases hfailure
  | none =>
    obtain ⟨before, m, hread, hbefore⟩ := exists_read_of_failure_eq_none hfailure
    have hfirst : before.find? (fun e => e.kind = .endTop) = none :=
      List.find?_eq_none.2 fun e he => by simpa using hbefore e he
    have hlength : length source = .ok m := by
      rw [length, hread]
      simp [hfirst]
    rw [hlength, hread]
    refine ⟨fun h => ⟨before, by rw [Except.ok.inj h]⟩, ?_⟩
    rintro ⟨before', h⟩
    have hlast := congrArg (fun r : Reading => r.events.getLast?) h
    simp only [List.getLast?_concat, Option.some.injEq, Event.mk.injEq] at hlast
    rw [hlast.2.1]

/-- **A document can be measured** if reading it fails for no other reason than what follows it. -/
theorem exists_length_iff (source : Source) : (∃ n, length source = .ok n) ↔
    ∀ f ∈ (read {} source.content).failure, f.cause.IsLeftOver := by
  have hmeasured : (∃ n, length source = .ok n) ↔ (read .measuring source.content).failure = none := by
    constructor
    · rintro ⟨n, h⟩
      obtain ⟨before, hread⟩ := length_eq_ok_iff.1 h
      rw [hread]
    · intro h
      obtain ⟨before, n, hread, -⟩ := exists_read_of_failure_eq_none h
      exact ⟨n, length_eq_ok_iff.2 ⟨before, hread⟩⟩
  rw [hmeasured]
  change (run .measuring {} 0 source.content).2 = none ↔ ∀ f ∈ (run {} {} 0 source.content).2, f.cause.IsLeftOver
  rcases run_inStep {} 0 source.content with ⟨heq, hinside⟩ | ⟨hnone, f, hf, hover⟩
  · rw [heq]
    constructor
    · intro hnone f hf
      rw [hnone] at hf
      cases hf
    · exact fun hover => Option.eq_none_iff_forall_not_mem.2 fun f hf => hinside f hf (hover f hf)
  · refine ⟨fun _ f' hf' => ?_, fun _ => hnone⟩
    obtain rfl := Option.some.inj (hf.symm.trans hf')
    exact hover

end Scan
end ExampleSchema
