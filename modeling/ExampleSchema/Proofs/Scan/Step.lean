import ExampleSchema.Proofs.Outcome
import ExampleSchema.Proofs.Scan.History
import ExampleSchema.Proofs.Scan.Shape
import ExampleSchema.Scan.Run

/-!
# What a step of a scan keeps

A state is `Sound` at an offset when its mode, places and open constructs fit and its events lead to what
is open, none of them beyond the offset.  `State.feed_goes` shows that a byte takes a sound state to a
sound state, unless it is refused with a cause of the layers that read documents, and
`State.conclude_concludes` shows the same of the end of the document.  There is one lemma for each function
that the two are made of.

The end of a shortcut and the end of the text of a note are found out later than they are passed, and a
note begins one byte before it is recognized as one.  `State.reach` is how far the events may reach so
that what is still to be reported about these bytes does not come too late.
-/

namespace ExampleSchema

/-- The cause is one that no document should have. -/
def Cause.IsFault (c : Cause) : Prop := c.code = .internal

/-- The cause is that the document ends too early. -/
def Cause.IsEarlyEnd (c : Cause) : Prop := c.code = .unexpectedEof ∨ c.code = .emptySchema

/-- Whether the code is of the layers that read documents: bytes, constraints and schemas. -/
def ErrorCode.isOfReading : ErrorCode → Bool
  | .invalidCharacter | .unexpectedEof | .emptySchema | .exponentNotAllowed | .invalidNumber | .invalidString
  | .nestingTooDeep | .invalidConstraintValue | .zeroPrecision | .invalidRegex | .invalidAllOfSchemaName
  | .duplicateEnumValue | .unknownRule | .invalidRuleValue | .duplicateRule | .duplicateKey
  | .keyShortcutNotAllowed | .annotationWithoutValue | .annotatedTwice | .unknownType | .invalidTypeName
  | .orItemWithoutType | .rulesNotAllowed => true
  | _ => false

theorem ErrorCode.isOfReading_iff (code : ErrorCode) : code.isOfReading = true ↔ code.layer ≤ 3 := by
  cases code <;> decide

/-- The cause is one that a byte can have. -/
def Cause.IsRefusal (c : Cause) : Prop := c.code.isOfReading = true ∧ ¬ c.IsEarlyEnd

/-- No broken promise is of the layers that read documents. -/
theorem ErrorCode.ne_internal_of_isOfReading {code : ErrorCode} (h : code.isOfReading = true) : code ≠ .internal := by
  rintro rfl
  cases h

theorem Cause.IsEarlyEnd.isOfReading {c : Cause} (h : c.IsEarlyEnd) : c.code.isOfReading = true := by
  rcases h with h | h <;> rw [h] <;> rfl

theorem Cause.isRefusal_of_code {c : Cause} (hreading : c.code.isOfReading = true)
    (heof : c.code ≠ .unexpectedEof) (hempty : c.code ≠ .emptySchema) : c.IsRefusal :=
  ⟨hreading, fun h => h.elim heof hempty⟩

namespace Scan

/-! ## Sound states -/

/-- The events lead to what is open and reach no further than some offset; some of them are past. -/
structure Recorded (past : List Event) (s : State) (reach : Nat) : Prop where
  history : History s.opened reach s.emitted
  past : past <:+ s.emitted

namespace State

/-- The open constructs, innermost first. -/
def constructs (s : State) : List Construct := s.opened.map Prod.fst

/-- How far the events may reach before the byte at offset `i`. -/
def reach (s : State) (i : Nat) : Nat :=
  match s.mode with
  | .commentStart | .blockStartStar => i - 1
  | .shortcut .afterName => s.nameEnd
  | .inlineText | .blockText | .blockTextStar => s.textEnd
  | _ => i

end State

/-- **What every state satisfies** before the byte at offset `i`. -/
inductive Sound (past : List Event) (i : Nat) (s : State) : Prop
  | running (hfits : s.mode.Fits s.resume s.constructs) (hrec : Recorded past s (s.reach i))
      (hle : s.reach i ≤ i)
  | ended (hmode : s.mode = .done) (n : Nat) (before : List Event)
      (hemitted : s.emitted = ⟨.endTop, n, n⟩ :: before) (hpast : past <:+ before)
      (hbefore : History [] i before)

/-- A step leads to a sound state or is refused. -/
def Goes (past : List Event) (i : Nat) (x : Verdict State) : Prop :=
  x.Meets (Sound past i) Cause.IsRefusal

variable {past : List Event} {o : Options} {s : State} {b : UInt8} {i : Nat}

/-- Where nothing is still to be reported about bytes before, the events reach up to here. -/
theorem Sound.of_reach (hreach : s.reach i = i) (hfits : s.mode.Fits s.resume s.constructs)
    (hrec : Recorded past s i) : Sound past i s :=
  .running hfits (hreach.symm ▸ hrec) (Nat.le_of_eq hreach)

namespace Recorded

variable {reach : Nat}

theorem mono (h : Recorded past s reach) {more : Nat} (hle : reach ≤ more) : Recorded past s more :=
  ⟨h.history.mono hle, h.past⟩

theorem newLine (h : Recorded past s i) : Recorded past (s.emit .newLine i (i + 1)) (i + 1) :=
  ⟨.newLine h.history (Nat.le_refl _), h.past.trans (List.suffix_cons _ _)⟩

theorem begin (h : Recorded past s i) (c : Construct) : Recorded past (s.begin c i) i :=
  ⟨.opening h.history (Nat.le_refl _), h.past.trans (List.suffix_cons _ _)⟩

end Recorded

namespace State

/-! ## Opening and closing -/

@[simp] theorem constructs_begin (s : State) (c : Construct) (start : Nat) :
    (s.begin c start).constructs = c :: s.constructs := rfl

@[simp] theorem resume_begin (s : State) (c : Construct) (start : Nat) :
    (s.begin c start).resume = s.resume := rfl

theorem inNote_iff (s : State) : s.inNote = true ↔ IsInNote s.constructs := by
  simp only [inNote, note?, IsInNote, constructs, List.isSome_findSome?, List.any_eq_true,
    List.mem_map]
  constructor
  · rintro ⟨o, ho, hnote⟩
    exact ⟨o.1, ⟨o, ho, rfl⟩, hnote⟩
  · rintro ⟨c, ⟨o, ho, rfl⟩, hnote⟩
    exact ⟨o, ho, hnote⟩

/-- The innermost construct can be closed. -/
theorem exists_close_eq_ok {c : Construct} {outer : List Construct} {stop : Nat}
    (hopened : s.constructs = c :: outer) (hrec : Recorded past s stop) :
    ∃ s', s.close stop = .ok s' ∧ s'.constructs = outer ∧ s'.resume = s.resume ∧
      Recorded past s' stop := by
  obtain ⟨⟨c, start⟩, rest, hs, -, rfl⟩ := List.map_eq_cons_iff.1 hopened
  have hhistory := hrec.history
  rw [hs] at hhistory
  refine ⟨{ s with opened := rest }.emit (.closing c) start stop, ?_, rfl, rfl, ?_, ?_⟩
  · rw [close, hs]
  · exact .closing hhistory (Nat.le_refl _)
  · exact hrec.past.trans (List.suffix_cons _ _)

/-- The innermost construct is closed if it is of some class. -/
theorem closeIf_eq {c : Construct} {outer : List Construct} (hopened : s.constructs = c :: outer)
    (select : Construct → Bool) (stop : Nat) :
    s.closeIf select stop = if select c then s.close stop else .ok s := by
  obtain ⟨o, rest, hs, rfl, -⟩ := List.map_eq_cons_iff.1 hopened
  rw [closeIf, hs]

theorem closeIf_eq_of_nil (hopened : s.constructs = []) (select : Construct → Bool) (stop : Nat) :
    s.closeIf select stop = .ok s := by
  rw [closeIf, List.map_eq_nil_iff.1 hopened]

@[simp] theorem constructs_settle (s : State) (stop : Nat) :
    (s.settle stop).constructs = s.constructs := by
  rw [settle]
  split <;> rfl

@[simp] theorem resume_settle (s : State) (stop : Nat) : (s.settle stop).resume = s.resume := by
  rw [settle]
  split <;> rfl

theorem recorded_settle {reach : Nat} (h : Recorded past s reach) (stop : Nat) :
    Recorded past (s.settle stop) reach := by
  rw [settle]
  split
  · exact ⟨h.history, h.past⟩
  · exact h

/-- No wrapper is left open inside the construct that a place fits. -/
theorem closeIf_isWrapper_eq {places : List Place} (h : Nested places s.constructs) (stop : Nat) :
    s.closeIf Construct.isWrapper stop = .ok s := by
  cases hopened : s.constructs with
  | nil => exact closeIf_eq_of_nil hopened _ _
  | cons c outer =>
    rw [hopened] at h
    rw [closeIf_eq hopened, h.isWrapper_eq_false]
    rfl

/-- The value or key that was opened last can be closed with what wraps it. -/
theorem exists_endValue_eq_ok {places : List Place} {stop : Nat} (hends : Ends places s.constructs)
    (hrec : Recorded past s stop) :
    ∃ s', s.endValue stop = .ok s' ∧ s'.resume = s.resume ∧ Nested places s'.constructs ∧
      Recorded past s' stop := by
  obtain ⟨c, outer, hnested, hopened | ⟨w, hw, hopened⟩⟩ := hends
  · obtain ⟨s₁, hclose, hopened₁, hresume₁, hrec₁⟩ := exists_close_eq_ok hopened hrec
    have hnested₁ : Nested places s₁.constructs := hopened₁ ▸ hnested
    refine ⟨s₁.settle stop, ?_, by simpa using hresume₁, ?_, recorded_settle hrec₁ stop⟩
    · rw [endValue, hclose, Except.ok_bind, closeIf_isWrapper_eq hnested₁]
      rfl
    · simpa using hnested₁
  · obtain ⟨s₁, hclose₁, hopened₁, hresume₁, hrec₁⟩ := exists_close_eq_ok hopened hrec
    obtain ⟨s₂, hclose₂, hopened₂, hresume₂, hrec₂⟩ := exists_close_eq_ok hopened₁ hrec₁
    have hresume : s₂.resume = s.resume := hresume₂.trans hresume₁
    refine ⟨s₂.settle stop, ?_, by simpa using hresume, ?_, recorded_settle hrec₂ stop⟩
    · rw [endValue, hclose₁, Except.ok_bind, closeIf_eq hopened₁, if_pos hw, hclose₂]
      rfl
    · simpa [hopened₂] using hnested

/-- A note without text can be closed. -/
theorem exists_closeNote_eq_ok {kind : NoteKind} {places : List Place} {stop : Nat}
    (hnote : ReadsNote kind [] places s.constructs) (hrec : Recorded past s stop) :
    ∃ s', s.closeNote stop = .ok s' ∧ s'.resume = s.resume ∧ ReadsComment places s'.constructs ∧
      Recorded past s' stop := by
  obtain ⟨outer, hopened, hcomment⟩ := hnote
  rw [List.nil_append] at hopened
  obtain ⟨s₁, hclose, hopened₁, hresume₁, hrec₁⟩ := exists_close_eq_ok hopened hrec
  refine ⟨s₁.settle stop, ?_, by simpa using hresume₁, ?_, recorded_settle hrec₁ stop⟩
  · have htext : Construct.isNoteText kind.construct = false := by cases kind <;> rfl
    rw [closeNote, closeIf_eq hopened, htext]
    change (do return (← s.close stop).settle stop) = _
    rw [hclose]
    rfl
  · simpa [hopened₁] using hcomment

/-- A note with text can be closed after the end of its text. -/
theorem exists_closeNote_eq_ok_of_text {kind : NoteKind} {places : List Place} {stop : Nat}
    (hnote : ReadsNote kind [kind.textConstruct] places s.constructs)
    (hrec : Recorded past s s.textEnd) (hle : s.textEnd ≤ stop) :
    ∃ s', s.closeNote stop = .ok s' ∧ s'.resume = s.resume ∧ ReadsComment places s'.constructs ∧
      Recorded past s' stop := by
  obtain ⟨outer, hopened, hcomment⟩ := hnote
  obtain ⟨s₁, hclose₁, hopened₁, hresume₁, hrec₁⟩ := exists_close_eq_ok hopened hrec
  obtain ⟨s₂, hclose₂, hopened₂, hresume₂, hrec₂⟩ := exists_close_eq_ok hopened₁ (hrec₁.mono hle)
  have hresume : s₂.resume = s.resume := hresume₂.trans hresume₁
  refine ⟨s₂.settle stop, ?_, by simpa using hresume, ?_, recorded_settle hrec₂ stop⟩
  · have htext : Construct.isNoteText kind.textConstruct = true := by cases kind <;> rfl
    rw [closeNote, closeIf_eq hopened, if_pos htext, hclose₁]
    change (do return (← s₁.close stop).settle stop) = _
    rw [hclose₂]
    rfl
  · simpa [hopened₂] using hcomment

/-! ## Going on -/

theorem refuse_goes (s : State) (b : UInt8) (hint : Hint) : Goes past i (s.refuse b hint) :=
  Cause.isRefusal_of_code rfl nofun nofun

/-- Going on in a mode in which nothing is still to be reported about bytes before. -/
theorem switch_goes {mode : Mode} (hreach : (s.switch mode).reach (i + 1) = i + 1)
    (hfits : mode.Fits s.resume s.constructs) (hrec : Recorded past s i) :
    Goes past (i + 1) (.ok (s.switch mode)) := by
  have hrec' := hrec.mono (Nat.le_succ i)
  exact Sound.of_reach hreach hfits ⟨hrec'.history, hrec'.past⟩

/-- Going on in the same mode. -/
theorem stay_goes (hreach : s.reach (i + 1) = i + 1) (hfits : s.mode.Fits s.resume s.constructs)
    (hrec : Recorded past s i) : Goes past (i + 1) (.ok s) :=
  Sound.of_reach hreach hfits (hrec.mono (Nat.le_succ i))

theorem resumeNext_goes (hnested : Nested s.resume s.constructs) (hrec : Recorded past s i) :
    Goes past i s.resumeNext := by
  obtain ⟨place, rest, hresume⟩ := hnested.exists_cons
  rw [hresume] at hnested
  rw [resumeNext, hresume]
  exact Sound.of_reach rfl hnested ⟨hrec.history, hrec.past⟩

theorem finishValue_goes (hends : Ends s.resume s.constructs) (hrec : Recorded past s i) :
    Goes past i (s.finishValue i) := by
  obtain ⟨s₁, hend, hresume, hnested, hrec₁⟩ := exists_endValue_eq_ok hends hrec
  rw [finishValue, hend]
  exact resumeNext_goes (hresume ▸ hnested) hrec₁

theorem finishNote_goes {kind : NoteKind} (hnote : ReadsNote kind [] s.resume s.constructs)
    (hrec : Recorded past s i) : Goes past i (s.finishNote i) := by
  obtain ⟨s₁, hclose, hresume, hcomment, hrec₁⟩ := exists_closeNote_eq_ok hnote hrec
  rw [finishNote, hclose]
  exact resumeNext_goes (hresume ▸ hcomment.1) hrec₁

theorem finishNote_goes_of_text {kind : NoteKind}
    (hnote : ReadsNote kind [kind.textConstruct] s.resume s.constructs)
    (hrec : Recorded past s s.textEnd) (hle : s.textEnd ≤ i) : Goes past i (s.finishNote i) := by
  obtain ⟨s₁, hclose, hresume, hcomment, hrec₁⟩ := exists_closeNote_eq_ok_of_text hnote hrec hle
  rw [finishNote, hclose]
  exact resumeNext_goes (hresume ▸ hcomment.1) hrec₁

/-! ## Between tokens -/

theorem skipBlank_goes {place : Place} (hmode : s.mode = .between place)
    (hnested : Nested (place :: s.resume) s.constructs) (hrec : Recorded past s i) :
    Goes past (i + 1) (s.skipBlank b i) := by
  have hreach : s.reach (i + 1) = i + 1 := by rw [reach, hmode]
  have hfits : s.mode.Fits s.resume s.constructs := by rw [hmode]; exact hnested
  have hstay : Goes past (i + 1) (.ok s) := stay_goes hreach hfits hrec
  rw [skipBlank]
  split
  · split
    · exact Sound.of_reach hreach hfits hrec.newLine
    · exact hstay
    · exact refuse_goes s b _
  · exact hstay

theorem openContainer_goes {construct : Construct} {inside next : Place} {outer : List Construct}
    (hinside : inside.container? = some construct) (hnext : next.followsValue = true)
    (hopened : s.constructs = next.wrapper ++ outer) (hnested : Nested (next :: s.resume) outer)
    (hrec : Recorded past s i) : Goes past (i + 1) (s.openContainer construct inside next i) := by
  rw [openContainer]
  split
  · have hfits := Nested.inside hinside hnext hnested
    rw [← hopened] at hfits
    have hrec' := (hrec.begin construct).mono (Nat.le_succ i)
    exact Sound.of_reach rfl hfits ⟨hrec'.history, hrec'.past⟩
  · exact Cause.isRefusal_of_code rfl nofun nofun

theorem startValue_goes {next : Place} {outer : List Construct} (hnext : next.followsValue = true)
    (hopened : s.constructs = next.wrapper ++ outer) (hnested : Nested (next :: s.resume) outer)
    (hrec : Recorded past s i) : Goes past (i + 1) (startValue o s next b i) := by
  have hreads : ∀ c : Construct, ReadsValue c (next :: s.resume) (c :: s.constructs) := fun c =>
    ⟨next, s.resume, outer, rfl, by rw [hopened], hnext, hnested⟩
  have hbegin : ∀ c : Construct, Recorded past (s.begin c i) (i + 1) := fun c =>
    (hrec.begin c).mono (Nat.le_succ i)
  have hliteral : ∀ mode : Mode,
      mode.Fits (next :: s.resume) (.literal :: s.constructs) →
      (s.switch mode).reach (i + 1) = i + 1 →
      Goes past (i + 1) (.ok ((s.begin .literal i).interrupt mode next)) := fun mode hfits hreach =>
    Sound.of_reach hreach hfits ⟨(hbegin .literal).history, (hbegin .literal).past⟩
  unfold startValue
  split
  · exact openContainer_goes rfl hnext hopened hnested hrec
  · exact openContainer_goes rfl hnext hopened hnested hrec
  · exact hliteral _ (Or.inl (hreads .literal)) rfl
  · exact hliteral _ (hreads .literal) rfl
  · exact hliteral _ (hreads .literal) rfl
  · exact hliteral _ (hreads .literal) rfl
  · exact hliteral _ (hreads .literal) rfl
  · exact hliteral _ (hreads .literal) rfl
  · split
    · exact hliteral _ (hreads .literal) rfl
    · split
      · refine Sound.of_reach rfl ?_ ⟨(hbegin _).history, (hbegin _).past⟩
        split
        · exact Or.inr (hreads .typesShortcut)
        · exact Or.inl (hreads .mixedValue)
      · exact refuse_goes s b _

theorem startKey_goes {place : Place} (hplace : place.container? = some .object)
    (hnested : Nested (place :: s.resume) s.constructs) (hrec : Recorded past s i) :
    Goes past (i + 1) (startKey o s b i) := by
  have hcolon : Nested (.objectColon :: s.resume) s.constructs := hnested.move hplace rfl
  have hkey := hrec.begin .objectKey
  have hreads : ReadsKey [] (.objectColon :: s.resume) (.objectKey :: s.constructs) :=
    ⟨s.resume, s.constructs, rfl, rfl, hcolon⟩
  unfold startKey
  split
  · have hrec' := hkey.mono (Nat.le_succ i)
    exact Sound.of_reach rfl (Or.inr hreads) ⟨hrec'.history, hrec'.past⟩
  split
  · split
    · exact Cause.isRefusal_of_code rfl nofun nofun
    split
    · have hrec' := hkey.mono (Nat.le_succ i)
      exact Sound.of_reach rfl hreads ⟨hrec'.history, hrec'.past⟩
    · exact refuse_goes s b _
  split
  · have hrec' := (hkey.begin .keyShortcut).mono (Nat.le_succ i)
    refine Sound.of_reach rfl ?_ ⟨hrec'.history, hrec'.past⟩
    exact ⟨s.resume, s.constructs, rfl, rfl, hcolon⟩
  · exact refuse_goes s b _

/-- Ending the document, where nothing is open any more. -/
theorem stop_sound {places : List Place} (hnested : Nested (.finish :: places) s.constructs)
    (hrec : Recorded past s i) : Sound past i s.stop := by
  have hopened : s.opened = [] := List.map_eq_nil_iff.1 hnested.opened_eq_nil
  have hhistory := hrec.history
  rw [hopened] at hhistory
  exact .ended rfl s.valueEnd s.emitted rfl hrec.past hhistory

theorem token_goes {place : Place} (hnested : Nested (place :: s.resume) s.constructs)
    (hrec : Recorded past s i) : Goes past (i + 1) (s.token o place b i) := by
  have hrec' := hrec.mono (Nat.le_succ i)
  have hmove : ∀ {place' : Place} {c : Construct}, place.container? = some c →
      place'.container? = some c → Goes past (i + 1) (.ok (s.switch (.between place'))) :=
    fun hplace hplace' => switch_goes rfl (hnested.move hplace hplace') hrec
  have hend : ∀ {c : Construct}, place.container? = some c →
      Goes past (i + 1) (s.finishValue (i + 1)) := fun hplace =>
    finishValue_goes (hnested.ends hplace) hrec'
  have hitem : place.container? = some .array →
      Goes past (i + 1) (startValue o (s.begin .arrayItem i) .arrayNext b i) := fun hplace =>
    startValue_goes rfl rfl (hnested.move hplace rfl) (hrec.begin .arrayItem)
  unfold token
  split
  · exact startValue_goes rfl rfl hnested.finish_of_start hrec
  · split
    · exact stop_sound hnested hrec'
    · exact refuse_goes s b _
  · exact hend rfl
  · exact startKey_goes rfl hnested hrec
  · exact refuse_goes s b _
  · exact startKey_goes rfl hnested hrec
  · exact hmove rfl rfl
  · exact refuse_goes s b _
  · exact startValue_goes rfl rfl (hnested.move rfl rfl) (hrec.begin .objectValue)
  · exact hmove rfl rfl
  · exact hend rfl
  · exact refuse_goes s b _
  · exact hend rfl
  · exact hitem rfl
  · exact refuse_goes s b _
  · exact hitem rfl
  · exact hmove rfl rfl
  · exact hend rfl
  · exact refuse_goes s b _
  · exact switch_goes rfl hnested.readsNote hrec
  · exact refuse_goes s b _
  · exact switch_goes rfl hnested.readsNote hrec
  · exact switch_goes rfl hnested.readsNote hrec
  · exact refuse_goes s b _

theorem visit_goes {place : Place} (hmode : s.mode = .between place)
    (hnested : Nested (place :: s.resume) s.constructs) (hrec : Recorded past s i) :
    Goes past (i + 1) (s.visit o place b i) := by
  rw [visit]
  split
  · exact skipBlank_goes hmode hnested hrec
  split
  · next hcomment =>
    have hnote : ¬ IsInNote s.constructs := by
      rw [← inNote_iff]
      simp at hcomment
      simp [hcomment]
    have hcomment : ReadsComment (place :: s.resume) s.constructs := ⟨hnested, hnote⟩
    unfold commentMode?
    split
    · next mode hmode =>
      split at hmode
      · cases hmode
        have hrec' := hrec.mono (Nat.le_succ i)
        exact Sound.of_reach rfl hcomment ⟨hrec'.history, hrec'.past⟩
      · cases hmode
        exact Sound.running hcomment ⟨hrec.history, hrec.past⟩ (Nat.le_succ i)
      · cases hmode
    · exact token_goes hnested hrec
  · exact token_goes hnested hrec

/-- Handing a byte to the places to resume. -/
theorem land_goes {places : List Place} (hnested : Nested places s.constructs)
    (hrec : Recorded past s i) : Goes past (i + 1) (land o b i places s) := by
  induction places generalizing s with
  | nil => cases hnested
  | cons place rest ih =>
    rw [land]
    split
    · next hinline =>
      -- The note ends with the line, and the line end goes on to the place it interrupted.
      obtain ⟨rfl, -⟩ := hinline
      obtain ⟨s₁, hclose, -, hcomment, hrec₁⟩ := exists_closeNote_eq_ok hnested.readsNote hrec
      rw [hclose]
      exact ih hcomment.1 hrec₁
    · exact visit_goes rfl hnested ⟨hrec.history, hrec.past⟩

/-- Ending a value or key before a byte, which is handed on. -/
theorem endValue_land_goes {stop : Nat} (hends : Ends s.resume s.constructs)
    (hrec : Recorded past s stop) (hle : stop ≤ i) :
    Goes past (i + 1) (do land o b i s.resume (← s.endValue stop)) := by
  obtain ⟨s₁, hend, -, hnested, hrec₁⟩ := exists_endValue_eq_ok hends hrec
  rw [hend]
  exact land_goes hnested (hrec₁.mono hle)

/-! ## Inside tokens -/

theorem feedString_goes (hmode : s.mode = .string) (hfits : Mode.string.Fits s.resume s.constructs)
    (hrec : Recorded past s i) : Goes past (i + 1) (s.feedString b i) := by
  unfold feedString
  split
  · exact finishValue_goes (hfits.elim ReadsValue.ends ReadsKey.ends) (hrec.mono (Nat.le_succ i))
  · exact switch_goes rfl hfits hrec
  · split
    · exact refuse_goes s b _
    · exact stay_goes (by rw [reach, hmode]) (hmode ▸ hfits) hrec

theorem feedEscape_goes (hfits : Mode.escape.Fits s.resume s.constructs)
    (hrec : Recorded past s i) : Goes past (i + 1) (s.feedEscape b) := by
  unfold feedEscape
  split
  iterate 8 exact switch_goes rfl hfits hrec
  · exact switch_goes rfl ⟨by decide, hfits⟩ hrec
  · exact refuse_goes s b _

theorem feedUnicode_goes {digits : Nat} (hfits : (Mode.unicode digits).Fits s.resume s.constructs)
    (hrec : Recorded past s i) : Goes past (i + 1) (s.feedUnicode digits b) := by
  obtain ⟨hdigits, hfits⟩ := hfits
  unfold feedUnicode
  split
  · split
    · exact switch_goes rfl hfits hrec
    · exact switch_goes rfl ⟨by omega, hfits⟩ hrec
  · exact refuse_goes s b _

theorem feedNumber_goes {part : NumberPart} (hfits : ReadsValue .literal s.resume s.constructs)
    (hrec : Recorded past s i) : Goes past (i + 1) (s.feedNumber o part b i) := by
  unfold feedNumber
  split
  · exact switch_goes rfl hfits hrec
  · exact refuse_goes s b _
  · exact endValue_land_goes hfits.ends hrec (Nat.le_refl i)

theorem feedKeyword_goes {word : Keyword} {next : UInt8} {rest : Bytes}
    (hfits : ReadsValue .literal s.resume s.constructs) (hrec : Recorded past s i) :
    Goes past (i + 1) (s.feedKeyword word next rest b i) := by
  unfold feedKeyword
  split
  · split
    · exact finishValue_goes hfits.ends (hrec.mono (Nat.le_succ i))
    · exact switch_goes rfl hfits hrec
  · exact refuse_goes s b _

/-- Reading a byte after a name, which ends with the shortcut unless a bar follows. -/
theorem afterName_goes (hfits : (Mode.shortcut .name).Fits s.resume s.constructs)
    (hrec : Recorded past s s.nameEnd) (hle : s.nameEnd ≤ i) :
    Goes past (i + 1) (feedShortcut.afterName o b i s) := by
  unfold feedShortcut.afterName
  split
  · exact Sound.running hfits ⟨hrec.history, hrec.past⟩ (Nat.le_succ_of_le hle)
  split
  · exact switch_goes rfl hfits (hrec.mono hle)
  · exact endValue_land_goes (hfits.elim ReadsValue.ends ReadsValue.ends) hrec hle

theorem feedShortcut_goes {part : ShortcutPart} (hmode : s.mode = .shortcut part)
    (hfits : (Mode.shortcut part).Fits s.resume s.constructs) (hrec : Recorded past s (s.reach i))
    (hle : s.reach i ≤ i) : Goes past (i + 1) (s.feedShortcut o part b i) := by
  have hrec' := hrec.mono hle
  cases part with
  | mark =>
    rw [feedShortcut]
    split
    · exact switch_goes rfl hfits hrec'
    · exact refuse_goes s b _
  | name =>
    rw [feedShortcut]
    split
    · exact stay_goes (by rw [reach, hmode]) (hmode ▸ hfits) hrec'
    · exact afterName_goes hfits ⟨hrec'.history, hrec'.past⟩ (Nat.le_refl i)
  | afterName =>
    rw [reach, hmode] at hrec hle
    exact afterName_goes hfits hrec hle
  | afterBar =>
    rw [feedShortcut]
    split
    · exact stay_goes (by rw [reach, hmode]) (hmode ▸ hfits) hrec'
    split
    · exact switch_goes rfl hfits hrec'
    · exact refuse_goes s b _

theorem feedName_goes (hreach : s.reach (i + 1) = i + 1)
    (hfits : s.mode.Fits s.resume s.constructs) (hends : Ends s.resume s.constructs)
    (hrec : Recorded past s i) : Goes past (i + 1) (s.feedName o b i) := by
  unfold feedName
  split
  · exact stay_goes hreach hfits hrec
  · exact endValue_land_goes hends hrec (Nat.le_refl i)

theorem feedKeyMark_goes (hfits : Mode.keyMark.Fits s.resume s.constructs)
    (hrec : Recorded past s i) : Goes past (i + 1) (s.feedKeyMark b) := by
  unfold feedKeyMark
  split
  · exact switch_goes rfl hfits hrec
  · exact refuse_goes s b _

/-! ## Inside comments -/

theorem feedCommentStart_goes (hcomment : ReadsComment s.resume s.constructs)
    (hrec : Recorded past s (i - 1)) : Goes past (i + 1) (s.feedCommentStart b i) := by
  have hle : i - 1 ≤ i + 1 := Nat.le_succ_of_le (Nat.sub_le i 1)
  unfold feedCommentStart
  split
  · have hrec' := (hrec.begin .inlineNote).mono hle
    exact Sound.of_reach rfl ⟨_, rfl, hcomment⟩ ⟨hrec'.history, hrec'.past⟩
  · have hrec' := (hrec.begin .blockNote).mono hle
    exact Sound.of_reach rfl ⟨_, rfl, hcomment⟩ ⟨hrec'.history, hrec'.past⟩
  · exact refuse_goes s b _

theorem feedLineComment_goes (hcomment : ReadsComment s.resume s.constructs)
    (hrec : Recorded past s i) : Goes past (i + 1) (s.feedLineComment o b i) := by
  unfold feedLineComment
  split
  · exact land_goes hcomment.1 hrec
  · exact switch_goes rfl hcomment hrec

theorem feedBlockComment_goes {hashes : Nat}
    (hfits : (Mode.blockComment hashes).Fits s.resume s.constructs) (hrec : Recorded past s i) :
    Goes past (i + 1) (s.feedBlockComment hashes b i) := by
  obtain ⟨hhashes, hcomment⟩ := hfits
  have hzero : (Mode.blockComment 0).Fits s.resume s.constructs := ⟨by decide, hcomment⟩
  unfold feedBlockComment
  split
  · split
    · exact resumeNext_goes hcomment.1 (hrec.mono (Nat.le_succ i))
    · exact switch_goes rfl ⟨by omega, hcomment⟩ hrec
  · exact Sound.of_reach rfl hzero ⟨hrec.newLine.history, hrec.newLine.past⟩
  · exact switch_goes rfl hzero hrec

theorem feedHashes_goes {count : Nat} (hcomment : ReadsComment s.resume s.constructs)
    (hrec : Recorded past s i) : Goes past (i + 1) (s.feedHashes o count b i) := by
  unfold feedHashes
  split
  · exact switch_goes rfl hcomment hrec
  split
  · exact feedBlockComment_goes ⟨by decide, hcomment⟩ hrec
  · exact feedLineComment_goes hcomment hrec

/-! ## Inside notes -/

/-- The text of a note is opened inside it, and may end where it begins. -/
theorem beginText_reads {kind : NoteKind} {start : Nat}
    (hnote : ReadsNote kind [] s.resume s.constructs) (hrec : Recorded past s start) :
    ReadsNote kind [kind.textConstruct] (s.beginText kind start).resume
        (s.beginText kind start).constructs ∧
      Recorded past (s.beginText kind start) start := by
  obtain ⟨outer, hopened, hcomment⟩ := hnote
  have hrec' := hrec.begin kind.textConstruct
  refine ⟨⟨outer, ?_, hcomment⟩, hrec'.history, hrec'.past⟩
  exact congrArg (kind.textConstruct :: ·) hopened

theorem feedInlineText_goes
    (hnote : ReadsNote .inline [.inlineNoteText] s.resume s.constructs)
    (hrec : Recorded past s s.textEnd) (hle : s.textEnd ≤ i) :
    Goes past (i + 1) (.ok (s.feedInlineText b i)) := by
  have hend : s.textEnd ≤ (s.feedInlineText b i).textEnd ∧ (s.feedInlineText b i).textEnd ≤ i + 1 := by
    unfold feedInlineText
    split <;> simp <;> omega
  have hrec' := hrec.mono hend.1
  exact Sound.running hnote ⟨hrec'.history, hrec'.past⟩ hend.2

/-- The text of an inline note ends before the line end. -/
theorem feedInline_goes_of_text (hmode : s.mode = .inlineText)
    (hnote : ReadsNote .inline [.inlineNoteText] s.resume s.constructs)
    (hrec : Recorded past s s.textEnd) (hle : s.textEnd ≤ i) :
    Goes past (i + 1) (s.feedInline o b i) := by
  rw [feedInline, hmode]
  split
  · obtain ⟨s₁, hclose, -, hcomment, hrec₁⟩ :=
      @exists_closeNote_eq_ok_of_text _ _ .inline _ _ hnote hrec hle
    rw [hclose]
    exact land_goes hcomment.1 hrec₁
  · exact feedInlineText_goes hnote hrec hle

/-- Outside its rules, an inline note goes on with its text or ends before the line end. -/
theorem feedInline_goes (hmode : s.mode = .inlineStart ∨ s.mode = .inlineDash)
    (hnote : ReadsNote .inline [] s.resume s.constructs) (hrec : Recorded past s i) :
    Goes past (i + 1) (s.feedInline o b i) := by
  have hreach : s.reach (i + 1) = i + 1 := by
    rcases hmode with hmode | hmode <;> rw [reach, hmode]
  have hfits : s.mode.Fits s.resume s.constructs := by
    rcases hmode with hmode | hmode <;> rw [hmode] <;> exact hnote
  have htext : Goes past (i + 1)
      (if Bytes.isSpace b then .ok s else .ok ((s.beginText .inline i).feedInlineText b i)) := by
    split
    · exact stay_goes hreach hfits hrec
    · obtain ⟨hreads, hrec'⟩ := beginText_reads hnote hrec
      exact feedInlineText_goes hreads hrec' (Nat.le_refl i)
  have hnested : Nested (.afterRules .inline :: s.resume) s.constructs := by
    obtain ⟨outer, hopened, hcomment⟩ := hnote
    rw [hopened]
    exact .afterRules hcomment.2 hcomment.1
  unfold feedInline
  split
  · obtain ⟨s₁, hclose, -, hcomment, hrec₁⟩ := exists_closeNote_eq_ok hnote hrec
    rw [hclose]
    exact land_goes hcomment.1 hrec₁
  · split
    · next hinline => rcases hmode with hmode | hmode <;> cases hmode.symm.trans hinline
    · exact openContainer_goes rfl rfl rfl hnested hrec
    · exact switch_goes rfl hnote hrec
    · exact htext

theorem feedBlockText_goes (hnote : ReadsNote .block [.blockNoteText] s.resume s.constructs)
    (hrec : Recorded past s s.textEnd) (hle : s.textEnd ≤ i) :
    Goes past (i + 1) (.ok (s.feedBlockText b i)) := by
  unfold feedBlockText
  split
  · exact Sound.running hnote ⟨hrec.history, hrec.past⟩ (Nat.le_succ_of_le hle)
  · have hend : s.textEnd ≤ (if Bytes.isSpace b then s.textEnd else i + 1) ∧
        (if Bytes.isSpace b then s.textEnd else i + 1) ≤ i + 1 := by
      split <;> omega
    have hrec' := hrec.mono hend.1
    exact Sound.running hnote ⟨hrec'.history, hrec'.past⟩ hend.2

theorem feedBlockTextStar_goes (hmode : s.mode = .blockTextStar)
    (hnote : ReadsNote .block [.blockNoteText] s.resume s.constructs)
    (hrec : Recorded past s s.textEnd) (hle : s.textEnd ≤ i) :
    Goes past (i + 1) (s.feedBlockTextStar b i) := by
  have hrec' := hrec.mono hle
  unfold feedBlockTextStar
  split
  · exact @finishNote_goes_of_text _ _ _ .block hnote hrec (Nat.le_succ_of_le hle)
  · refine Sound.running ?_ ?_ ?_
    · rw [hmode]
      exact hnote
    · rw [reach, hmode]
      exact ⟨hrec'.history, hrec'.past⟩
    · rw [reach, hmode]
      exact Nat.le_succ i
  · exact @feedBlockText_goes _ { s with textEnd := i } _ _ hnote ⟨hrec'.history, hrec'.past⟩
      (Nat.le_refl i)

theorem feedBlockStartStar_goes (hnote : ReadsNote .block [] s.resume s.constructs)
    (hrec : Recorded past s (i - 1)) : Goes past (i + 1) (s.feedBlockStartStar b i) := by
  have hle : i - 1 ≤ i := Nat.sub_le i 1
  unfold feedBlockStartStar
  split
  · exact finishNote_goes hnote (hrec.mono (Nat.le_succ_of_le hle))
  · obtain ⟨hreads, hrec'⟩ := beginText_reads hnote hrec
    have hrec'' := hrec'.mono hle
    exact @feedBlockText_goes _ { s.beginText .block (i - 1) with textEnd := i } _ _ hreads
      ⟨hrec''.history, hrec''.past⟩ (Nat.le_refl i)

theorem feedBlockStart_goes (hmode : s.mode = .blockStart ∨ s.mode = .blockDash)
    (hnote : ReadsNote .block [] s.resume s.constructs) (hrec : Recorded past s i) :
    Goes past (i + 1) (s.feedBlockStart b i) := by
  have hreach : s.reach (i + 1) = i + 1 := by
    rcases hmode with hmode | hmode <;> rw [reach, hmode]
  have hfits : s.mode.Fits s.resume s.constructs := by
    rcases hmode with hmode | hmode <;> rw [hmode] <;> exact hnote
  have hnested : Nested (.afterRules .block :: s.resume) s.constructs := by
    obtain ⟨outer, hopened, hcomment⟩ := hnote
    rw [hopened]
    exact .afterRules hcomment.2 hcomment.1
  unfold feedBlockStart
  split
  · exact openContainer_goes rfl rfl rfl hnested hrec
  · exact Sound.running hnote ⟨hrec.history, hrec.past⟩ (Nat.le_succ i)
  · exact switch_goes rfl hnote hrec
  · split
    · exact stay_goes hreach hfits hrec
    · obtain ⟨hreads, hrec'⟩ := beginText_reads hnote hrec
      exact feedBlockText_goes hreads hrec' (Nat.le_refl i)

theorem feedBlockAfterRulesStar_goes (hnote : ReadsNote .block [] s.resume s.constructs)
    (hrec : Recorded past s i) : Goes past (i + 1) (s.feedBlockAfterRulesStar b i) := by
  unfold feedBlockAfterRulesStar
  split
  · exact finishNote_goes hnote (hrec.mono (Nat.le_succ i))
  · exact refuse_goes s b _

/-! ## Every mode -/

/-- **A byte takes a sound state to a sound state or is refused.** -/
theorem feed_goes (o : Options) (b : UInt8) (h : Sound past i s) :
    Goes past (i + 1) (s.feed o b i) := by
  cases h with
  | ended hmode n before hemitted hpast hbefore =>
    rw [feed, hmode]
    exact Sound.ended hmode n before hemitted hpast (hbefore.mono (Nat.le_succ i))
  | running hfits hrec hle =>
    unfold feed
    cases hmode : s.mode <;> rw [hmode] at hfits <;> rw [reach, hmode] at hrec hle
    case between place => exact land_goes hfits hrec
    case done => exact hfits.elim
    case string => exact feedString_goes hmode hfits hrec
    case escape => exact feedEscape_goes hfits hrec
    case unicode digits => exact feedUnicode_goes hfits hrec
    case number part => exact feedNumber_goes hfits hrec
    case keyword word next rest => exact feedKeyword_goes hfits hrec
    case shortcut part =>
      refine feedShortcut_goes hmode hfits ?_ ?_ <;> rw [reach, hmode]
      · exact hrec
      · exact hle
    case ruleName =>
      exact feedName_goes (by rw [reach, hmode]) (by rw [hmode]; exact hfits) hfits.ends hrec
    case keyMark => exact feedKeyMark_goes hfits hrec
    case keyName =>
      exact feedName_goes (by rw [reach, hmode]) (by rw [hmode]; exact hfits) hfits.ends_shortcut hrec
    case commentStart => exact feedCommentStart_goes hfits hrec
    case hashes count => exact feedHashes_goes hfits hrec
    case lineComment => exact feedLineComment_goes hfits hrec
    case blockComment hashes => exact feedBlockComment_goes hfits hrec
    case inlineStart => exact feedInline_goes (Or.inl hmode) hfits hrec
    case inlineDash => exact feedInline_goes (Or.inr hmode) hfits hrec
    case inlineText => exact feedInline_goes_of_text hmode hfits hrec hle
    case blockStart => exact feedBlockStart_goes (Or.inl hmode) hfits hrec
    case blockStartStar => exact feedBlockStartStar_goes hfits hrec
    case blockDash => exact feedBlockStart_goes (Or.inr hmode) hfits hrec
    case blockText => exact feedBlockText_goes hfits hrec hle
    case blockTextStar => exact feedBlockTextStar_goes hmode hfits hrec hle
    case blockAfterRulesStar => exact feedBlockAfterRulesStar_goes hfits hrec

/-! ## The end of the document -/

/-- The document either ends in a sound state, or too early. -/
def Concludes (past : List Event) (length : Nat) (x : Verdict State) : Prop :=
  x.Meets (fun s => Sound past length s ∧ s.mode = .done) Cause.IsEarlyEnd

/-- Coming to the end of the document with some places to resume. -/
theorem land?_concludes {places : List Place} (hnested : Nested places s.constructs)
    (hrec : Recorded past s i) : Concludes past i (land? i places s) := by
  induction places generalizing s with
  | nil => cases hnested
  | cons place rest ih =>
    cases place with
    | finish =>
      rw [land?]
      exact ⟨stop_sound hnested hrec, rfl⟩
    | afterRules kind =>
      cases kind with
      | inline =>
        obtain ⟨s₁, hclose, -, hcomment, hrec₁⟩ := exists_closeNote_eq_ok hnested.readsNote hrec
        rw [land?, hclose]
        exact ih hcomment.1 hrec₁
      | block => exact Or.inl rfl
    | start => exact Or.inr rfl
    | _ => exact Or.inl rfl

theorem endsEarly_concludes (s : State) : Concludes past i (conclude.endsEarly s) := Or.inl rfl

/-- Ending a value or key at the end of the document. -/
theorem endValue_land?_concludes {stop : Nat} (hends : Ends s.resume s.constructs)
    (hrec : Recorded past s stop) (hle : stop ≤ i) :
    Concludes past i (do land? i s.resume (← s.endValue stop)) := by
  obtain ⟨s₁, hend, -, hnested, hrec₁⟩ := exists_endValue_eq_ok hends hrec
  rw [hend]
  exact land?_concludes hnested (hrec₁.mono hle)

/-- Ending an inline note at the end of the document. -/
theorem closeNote_land?_concludes (hclose : ∃ s', s.closeNote i = .ok s' ∧ s'.resume = s.resume ∧
      ReadsComment s.resume s'.constructs ∧ Recorded past s' i) :
    Concludes past i (do land? i s.resume (← s.closeNote i)) := by
  obtain ⟨s₁, hclose, -, hcomment, hrec₁⟩ := hclose
  rw [hclose]
  exact land?_concludes hcomment.1 hrec₁

/-- **The end of the document ends a sound state or is refused.** -/
theorem conclude_concludes (h : Sound past i s) : Concludes past i (s.conclude i) := by
  cases h with
  | ended hmode n before hemitted hpast hbefore =>
    rw [conclude, hmode]
    exact ⟨Sound.ended hmode n before hemitted hpast hbefore, hmode⟩
  | running hfits hrec hle =>
    unfold conclude
    cases hmode : s.mode <;> rw [hmode] at hfits <;> rw [reach, hmode] at hrec hle
    case between place => exact land?_concludes hfits hrec
    case done => exact hfits.elim
    case number part =>
      dsimp only
      split
      · exact endValue_land?_concludes hfits.ends hrec (Nat.le_refl i)
      · exact endsEarly_concludes s
    case shortcut part =>
      cases part with
      | name =>
        exact endValue_land?_concludes (hfits.elim ReadsValue.ends ReadsValue.ends) hrec (Nat.le_refl i)
      | afterName =>
        exact endValue_land?_concludes (hfits.elim ReadsValue.ends ReadsValue.ends) hrec hle
      | mark | afterBar => exact endsEarly_concludes s
    case hashes count =>
      dsimp only
      split
      · exact endsEarly_concludes s
      · exact land?_concludes hfits.1 hrec
    case lineComment => exact land?_concludes hfits.1 hrec
    case inlineStart | inlineDash =>
      exact closeNote_land?_concludes (exists_closeNote_eq_ok hfits hrec)
    case inlineText =>
      exact closeNote_land?_concludes
        (@exists_closeNote_eq_ok_of_text _ _ .inline _ _ hfits hrec hle)
    all_goals exact endsEarly_concludes s

end State

/-! ## Runs -/

/-- Past events stay. -/
theorem Sound.past_suffix (h : Sound past i s) : past <:+ s.emitted := by
  cases h with
  | running hfits hrec hle => exact hrec.past
  | ended hmode n before hemitted hpast hbefore =>
    rw [hemitted]
    exact hpast.trans (List.suffix_cons _ _)

/-- Whatever has been reported is past. -/
theorem Sound.refresh (h : Sound past i s) (hmode : s.mode ≠ .done) : Sound s.emitted i s := by
  cases h with
  | running hfits hrec hle => exact .running hfits ⟨hrec.history, List.suffix_rfl⟩ hle
  | ended hdone => exact (hmode hdone).elim

/-- A scan starts in a sound state. -/
theorem sound_start : Sound [] 0 {} :=
  .of_reach rfl Nested.start ⟨.start, List.suffix_rfl⟩

/-- What is sound at an offset is sound at any later one. -/
theorem Sound.mono (h : Sound past i s) {more : Nat} (hle : i ≤ more) : Sound past more s := by
  cases h with
  | running hfits hrec hreach =>
    have hmore : s.reach i ≤ s.reach more ∧ s.reach more ≤ more := by
      unfold State.reach at hreach ⊢
      split at hreach <;> omega
    exact .running hfits (hrec.mono hmore.1) hmore.2
  | ended hmode n before hemitted hpast hbefore =>
    exact .ended hmode n before hemitted hpast (hbefore.mono hle)

/-- **A run keeps the state sound.**  It fails in the layers that read documents, and it does not fail exactly when
the document has ended. -/
theorem run_sound (o : Options) {text : Bytes} (h : Sound past i s) :
    Sound past (i + text.length) (run o s i text).1 ∧
      ((run o s i text).2 = none ↔ (run o s i text).1.mode = .done) ∧
      ∀ f ∈ (run o s i text).2, f.cause.code.isOfReading = true := by
  induction text generalizing s i with
  | nil =>
    have hconclude := State.conclude_concludes h
    rw [run]
    cases hend : s.conclude i with
    | ok s' =>
      rw [hend] at hconclude
      exact ⟨hconclude.1, by simpa using hconclude.2, by simp⟩
    | error cause =>
      have hmode : s.mode ≠ .done := fun hmode => by
        rw [State.conclude, hmode] at hend
        cases hend
      rw [hend] at hconclude
      refine ⟨h, by simpa using hmode, ?_⟩
      rintro f ⟨⟩
      exact hconclude.isOfReading
  | cons b rest ih =>
    have hlength : i + (b :: rest).length = i + 1 + rest.length := by
      rw [List.length_cons]
      omega
    have hstay : Sound past (i + (b :: rest).length) s := h.mono (Nat.le_add_right i _)
    rw [run]
    split
    · next hmode => exact ⟨hstay, by simpa using hmode, by simp⟩
    · next hmode =>
      have hfeed := State.feed_goes o b h
      cases hstep : s.feed o b i with
      | ok s' =>
        rw [hstep] at hfeed
        rw [hlength]
        exact ih hfeed
      | error cause =>
        rw [hstep] at hfeed
        refine ⟨hstay, by simpa using hmode, ?_⟩
        rintro f ⟨⟩
        exact hfeed.1

theorem run_of_done {o : Options} {s : State} (hmode : s.mode = .done) (i : Nat) (text : Bytes) :
    run o s i text = (s, none) := by
  cases text with
  | nil => rw [run, State.conclude, hmode]
  | cons b rest => rw [run, if_pos hmode]

/-- What has been reported stays reported. -/
theorem Sound.emitted_suffix_run (h : Sound past i s) (o : Options) (text : Bytes) :
    s.emitted <:+ (run o s i text).1.emitted := by
  by_cases hdone : s.mode = .done
  · simp only [run_of_done hdone, List.suffix_rfl]
  · exact (run_sound o (h.refresh hdone)).1.past_suffix

end Scan
end ExampleSchema
