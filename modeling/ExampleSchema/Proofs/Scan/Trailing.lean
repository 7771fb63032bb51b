import ExampleSchema.Proofs.Scan.Measure

/-!
# What follows a document

An object, an array and a string end with their last byte.  Where such a value ends a document, the scan waits behind
it: whatever comes next is a blank, a comment or a note of the value, or it is ignored when the document is measured.
So what follows can only be in the way of measuring if it begins like a comment.

* `Scan.ClosesItself`: a document that ends with the last byte of its value.
* `Scan.exists_passes_of_closesItself`: a scan of it waits at the end.
* `Scan.State.At.run_told`: the scan skips blanks there.
* `Scan.length_of_closesItself`: what the length of a text is that begins with such a document.
-/

namespace ExampleSchema
namespace Scan

variable {text rest : Bytes} {s s' u r : State} {b : UInt8} {i n stop : Nat} {o : Options} {places : List Place}
  {kind : NoteKind} {inside outer : List Construct} {c : Construct}

/-! ## Values that end with their last byte -/

/-- A byte that closes an object, an array or a string, where it closes anything. -/
inductive IsClosing : UInt8 → Prop
  | brace : IsClosing (Char.toUInt8 '}')
  | bracket : IsClosing (Char.toUInt8 ']')
  | quote : IsClosing (Char.toUInt8 '"')

/-- Only the byte behind it shows where what is being read ends. -/
def Mode.isOpenEnded : Mode → Bool
  | .number _ | .shortcut _ => true
  | _ => false

/-- A step leads to nothing of which only the byte behind it shows where it ends. -/
abbrev Closes (x : Verdict State) : Prop := x.Meets (fun s => s.mode.isOpenEnded = false) fun _ => True

namespace IsClosing

theorem isSpace_eq (h : IsClosing b) : Bytes.isSpace b = false := by
  cases h <;> rfl

theorem isNewLine_eq (h : IsClosing b) : Bytes.isNewLine b = false := by
  cases h <;> rfl

theorem isNameChar_eq (h : IsClosing b) : Bytes.isNameChar b = false := by
  cases h <;> rfl

theorem commentMode?_eq (h : IsClosing b) : State.commentMode? b = none := by
  cases h <;> rfl

theorem next?_eq (h : IsClosing b) (part : NumberPart) : part.next? b = none := by
  cases h <;> cases part <;> rfl

end IsClosing

namespace State

theorem resumeNext_closes (s : State) : Closes s.resumeNext := by
  unfold resumeNext
  split
  · trivial
  · rfl

theorem finishValue_closes (s : State) (stop : Nat) : Closes (s.finishValue stop) :=
  .bind ((endValue_failsInside s stop).imp (fun _ => id) fun _ _ => trivial) fun s _ => resumeNext_closes s

theorem finishNote_closes (s : State) (stop : Nat) : Closes (s.finishNote stop) :=
  .bind ((closeNote_failsInside s stop).imp (fun _ => id) fun _ _ => trivial) fun s _ => resumeNext_closes s

theorem startValue_closes (s : State) (next : Place) (hb : IsClosing b) : Closes (startValue o s next b i) := by
  cases hb with
  | brace | bracket => trivial
  | quote => rfl

theorem startKey_closes (s : State) (hb : IsClosing b) : Closes (startKey o s b i) := by
  cases hb with
  | brace | bracket =>
    unfold startKey
    dsimp only
    split
    · rfl
    split
    · split
      · trivial
      · exact .ite rfl trivial
    · split
      · rfl
      · trivial
  | quote => rfl

theorem token_closes (s : State) (place : Place) (hb : IsClosing b) : Closes (s.token o place b i) := by
  unfold token
  split
  case h_1 | h_9 | h_14 | h_16 => exact startValue_closes _ _ hb
  case h_4 | h_6 => exact startKey_closes s hb
  case h_3 | h_11 | h_13 | h_18 => exact finishValue_closes s _
  case h_2 => exact .ite rfl trivial
  case h_7 | h_10 | h_17 | h_20 | h_22 | h_23 => rfl
  all_goals trivial

theorem land_closes (s : State) (hb : IsClosing b) : Closes (land o b i places s) := by
  cases places with
  | nil => trivial
  | cons place rest =>
    rw [land, hb.isNewLine_eq, if_neg (fun h => Bool.false_ne_true h.2), visit, hb.isSpace_eq, if_neg Bool.false_ne_true,
      hb.commentMode?_eq]
    exact .ite (token_closes _ place hb) (token_closes _ place hb)

theorem endValue_land_closes (s : State) (stop : Nat) (hb : IsClosing b) :
    Closes (do land o b i s.resume (← s.endValue stop)) :=
  .bind ((endValue_failsInside s stop).imp (fun _ => id) fun _ _ => trivial) fun s _ => land_closes s hb

theorem feedShortcut_closes (s : State) (part : ShortcutPart) (hb : IsClosing b) :
    Closes (s.feedShortcut o part b i) := by
  have hafter (s : State) : Closes (feedShortcut.afterName o b i s) := by
    rw [feedShortcut.afterName, isInnerBlank, hb.isSpace_eq, Bool.false_and, if_neg Bool.false_ne_true]
    cases hb <;> exact endValue_land_closes s _ (by constructor)
  cases part with
  | mark =>
    rw [feedShortcut, hb.isNameChar_eq]
    trivial
  | name =>
    rw [feedShortcut, hb.isNameChar_eq]
    exact hafter _
  | afterName => exact hafter s
  | afterBar =>
    rw [feedShortcut, isInnerBlank, hb.isSpace_eq]
    cases hb <;> trivial

theorem feedInline_closes (s : State) (hb : IsClosing b) : Closes (s.feedInline o b i) := by
  rw [feedInline, hb.isNewLine_eq, if_neg Bool.false_ne_true]
  split
  · rfl
  · next hchar => cases hb <;> cases hchar
  · rfl
  · rw [hb.isSpace_eq]
    rfl

theorem feedBlockText_closes (s : State) : (s.feedBlockText b i).mode.isOpenEnded = false := by
  unfold feedBlockText
  split
  · rfl
  · rfl

theorem feedBlockStart_closes (s : State) (hb : IsClosing b) : Closes (s.feedBlockStart b i) := by
  unfold feedBlockStart
  split
  · next hchar => cases hb <;> cases hchar
  · rfl
  · rfl
  · rw [hb.isSpace_eq]
    exact feedBlockText_closes _

theorem feedBlockComment_closes (s : State) (count : Nat) : Closes (s.feedBlockComment count b i) := by
  unfold feedBlockComment
  split
  · exact .ite (resumeNext_closes s) rfl
  · rfl
  · rfl

/-- **A byte that may close a value** leads to nothing of which only the byte behind it shows where it ends. -/
theorem feed_closes (s : State) (hb : IsClosing b) (hmode : s.mode ≠ .done) : Closes (s.feed o b i) := by
  unfold feed
  split
  · exact land_closes s hb
  · next hdone => exact (hmode hdone).elim
  · next hstring =>
    unfold feedString
    split
    · exact finishValue_closes s _
    · rfl
    · refine .ite trivial ?_
      rw [Except.meets_ok, hstring]
      rfl
  · unfold feedEscape
    split
    iterate 9 rfl
    trivial
  · unfold feedUnicode
    refine .ite ?_ trivial
    rw [Except.meets_ok]
    split <;> rfl
  · rw [feedNumber, hb.next?_eq]
    split
    · contradiction
    · trivial
    · exact endValue_land_closes s _ hb
  · unfold feedKeyword
    refine .ite ?_ trivial
    split
    · exact finishValue_closes s _
    · rfl
  · exact feedShortcut_closes s _ hb
  iterate 2
    · rw [feedName, hb.isNameChar_eq]
      exact endValue_land_closes s _ hb
  · rw [feedKeyMark, hb.isNameChar_eq]
    trivial
  · unfold feedCommentStart
    split
    · rfl
    · rfl
    · trivial
  · unfold feedHashes
    refine .ite rfl (.ite (feedBlockComment_closes s 0) ?_)
    rw [feedLineComment, hb.isNewLine_eq]
    rfl
  · rw [feedLineComment, hb.isNewLine_eq]
    rfl
  · exact feedBlockComment_closes s _
  iterate 3 exact feedInline_closes s hb
  iterate 2 exact feedBlockStart_closes s hb
  · exact .ite (finishNote_closes s _) (feedBlockText_closes _)
  · exact feedBlockText_closes s
  · next htext =>
    unfold feedBlockTextStar
    split
    · exact finishNote_closes s _
    · exact congrArg Mode.isOpenEnded htext
    · exact feedBlockText_closes _
  · exact .ite (finishNote_closes s _) trivial

/-! ## Notes that end with the text -/

theorem emitted_of_close (hopened : s.constructs = c :: outer) (h : s.close stop = .ok u) :
    u.constructs = outer ∧ ∃ start, u.emitted = ⟨.closing c, start, stop⟩ :: s.emitted := by
  obtain ⟨⟨c, start⟩, rest, hs, rfl, rfl⟩ := List.map_eq_cons_iff.1 hopened
  rw [close, hs] at h
  obtain rfl := Except.ok.inj h
  exact ⟨rfl, start, rfl⟩

theorem emitted_settle (s : State) (stop : Nat) : (s.settle stop).emitted = s.emitted := by
  unfold settle
  split <;> rfl

/-- A note that is closed is reported last. -/
theorem emitted_of_closeNote (hnote : ReadsNote kind inside places s.constructs)
    (hinside : inside = [] ∨ inside = [kind.textConstruct]) (h : s.closeNote stop = .ok u) :
    ReadsComment places u.constructs ∧ ∃ start before, u.emitted = ⟨.closing kind.construct, start, stop⟩ :: before := by
  obtain ⟨s₁, htext, h⟩ := Except.bind_eq_ok_iff.1 h
  obtain ⟨s₂, hclose, h⟩ := Except.bind_eq_ok_iff.1 h
  obtain rfl := Except.ok.inj h
  obtain ⟨outer, hopened, hcomment⟩ := hnote
  have hopened₁ : s₁.constructs = kind.construct :: outer := by
    rcases hinside with rfl | rfl
    · have hselect : Construct.isNoteText kind.construct = false := by cases kind <;> rfl
      rw [closeIf_eq hopened, hselect] at htext
      obtain rfl := Except.ok.inj htext
      exact hopened
    · have hselect : Construct.isNoteText kind.textConstruct = true := by cases kind <;> rfl
      rw [closeIf_eq hopened, if_pos hselect] at htext
      exact (emitted_of_close hopened htext).1
  obtain ⟨rfl, start, hemitted⟩ := emitted_of_close hopened₁ hclose
  rw [constructs_settle, emitted_settle]
  exact ⟨hcomment, start, _, hemitted⟩

/-- The end of the document is reported, right after that of a note which the end of the text ends. -/
def EndsNote (stop : Nat) (r : State) : Prop :=
  ∃ n start before, r.emitted = ⟨.endTop, n, n⟩ :: ⟨.closing .inlineNote, start, stop⟩ :: before

/-- Where the text ends between tokens, the value is passed, or a note ends. -/
theorem endsNote_of_land? (hnested : Nested places s.constructs) (h : land? stop places s = .ok r) :
    (∃ rest, places = .finish :: rest) ∧ r = s.stop ∨ EndsNote stop r := by
  induction places generalizing s with
  | nil => cases hnested
  | cons place rest ih =>
    cases place with
    | finish => exact Or.inl ⟨⟨rest, rfl⟩, (Except.ok.inj h).symm⟩
    | afterRules kind =>
      cases kind with
      | block => cases h
      | inline =>
        obtain ⟨u, hclose, h⟩ := Except.bind_eq_ok_iff.1 h
        obtain ⟨hcomment, start, before, hemitted⟩ := emitted_of_closeNote hnested.readsNote (Or.inl rfl) hclose
        obtain ⟨-, rfl⟩ | hnote := ih hcomment.1 h
        · exact Or.inr ⟨_, start, before, congrArg _ hemitted⟩
        · exact Or.inr hnote
    | _ => cases h

theorem endsNote_of_closeNote (hnote : ReadsNote .inline inside s.resume s.constructs)
    (hinside : inside = [] ∨ inside = [NoteKind.textConstruct .inline])
    (h : (do land? stop s.resume (← s.closeNote stop)) = .ok r) : EndsNote stop r := by
  obtain ⟨u, hclose, h⟩ := Except.bind_eq_ok_iff.1 h
  obtain ⟨hcomment, start, before, hemitted⟩ := emitted_of_closeNote hnote hinside hclose
  obtain ⟨-, rfl⟩ | hends := endsNote_of_land? hcomment.1 h
  · exact ⟨_, start, before, congrArg _ hemitted⟩
  · exact hends

/-- Where the end of the text is not needed to show that the value has ended, it ends a comment or a note at most. -/
theorem endsNote_of_conclude (hsound : Sound [] stop s) (hdone : s.mode ≠ .done) (hopen : s.mode.isOpenEnded = false)
    (h : s.conclude stop = .ok r) : s.waiting = [.finish] ∧ r = s.stop ∨ EndsNote stop r := by
  have hwaiting {places : List Place} (heq : s.waiting = places) (hnested : Nested places s.constructs)
      (h : land? stop places s = .ok r) : s.waiting = [.finish] ∧ r = s.stop ∨ EndsNote stop r := by
    refine (endsNote_of_land? hnested h).imp_left ?_
    rintro ⟨⟨rest, rfl⟩, hr⟩
    obtain rfl := hnested.rest_eq_nil
    exact ⟨heq, hr⟩
  cases hsound with
  | ended hmode => exact (hdone hmode).elim
  | running hfits hrec hle =>
    unfold conclude at h
    cases hmode : s.mode <;> rw [hmode] at hfits hopen h
    case between place => exact hwaiting (by rw [waiting, hmode]) hfits h
    case done => exact hfits.elim
    case number | shortcut => cases hopen
    case hashes count =>
      dsimp only at h
      split at h
      · cases h
      · exact hwaiting (by rw [waiting, hmode]) hfits.1 h
    case lineComment => exact hwaiting (by rw [waiting, hmode]) hfits.1 h
    case inlineStart | inlineDash => exact Or.inr (endsNote_of_closeNote hfits (Or.inl rfl) h)
    case inlineText => exact Or.inr (endsNote_of_closeNote hfits (Or.inr rfl) h)
    all_goals cases h

end State

/-! ## Documents that close themselves -/

/-- A scan comes to a state behind some bytes and goes on from there. -/
structure Passes (text : Bytes) (s : State) : Prop extends Reaches text s where
  sound : Sound [] text.length s
  measured : Measured text s
  running : s.mode ≠ .done

theorem passes_nil : Passes [] {} := ⟨reaches_nil, sound_start, measured_start, nofun⟩

theorem Passes.feed (h : Passes text s) (hfeed : s.feed {} b text.length = .ok s') : Passes (text ++ [b]) s' := by
  obtain ⟨hmeasuring, hrunning⟩ := State.feed_measuring_of_feed h.running hfeed
  obtain ⟨hmeasured, hreach⟩ := State.feed_measured h.toReaches h.sound h.measured h.running hmeasuring
  refine ⟨hreach hrunning, ?_, hmeasured, hrunning⟩
  rw [List.length_append]
  exact (State.feed_goes {} b h.sound).of_ok hfeed

/-- Nothing is open behind the value. -/
theorem Passes.opened_eq_nil (h : Passes text s) (hmode : s.mode = .between .finish) : s.opened = [] := by
  cases h.sound with
  | ended hdone => exact (h.running hdone).elim
  | running hfits hrec hle =>
    rw [hmode] at hfits
    exact State.opened_eq_nil_of_constructs (Nested.opened_eq_nil hfits)

/-- What is read without a failure is passed byte by byte. -/
theorem Passes.exists_feed (h : Passes text s) (hrun : (run {} s text.length (b :: rest)).2 = none) :
    ∃ s', s.feed {} b text.length = .ok s' ∧ Passes (text ++ [b]) s' ∧
      (run {} s' (text ++ [b]).length rest).2 = none := by
  rw [run, if_neg h.running] at hrun
  split at hrun
  · next s' hfeed =>
    rw [List.length_append]
    exact ⟨s', hfeed, h.feed hfeed, hrun⟩
  · cases hrun

theorem Passes.exists_of_run (h : Passes text s) {before : Bytes} (hrun : (run {} s text.length (before ++ rest)).2 = none) :
    ∃ s', Passes (text ++ before) s' ∧ (run {} s' (text ++ before).length rest).2 = none := by
  induction before generalizing text s with
  | nil =>
    rw [List.append_nil]
    exact ⟨s, h, hrun⟩
  | cons b before ih =>
    obtain ⟨s', -, h', hrun'⟩ := h.exists_feed hrun
    rw [List.append_cons]
    exact ih h' hrun'

/-- A text is a document that ends with the last byte of its value, which is an object, an array or a string. -/
def ClosesItself (text : Bytes) : Prop :=
  (∃ before c start, (c = .object ∨ c = .array ∨ c = .literal) ∧ read {} text =
    ⟨before ++ [⟨.closing c, start, text.length⟩, ⟨.endTop, text.length, text.length⟩], none⟩) ∧
  ∃ b ∈ text.getLast?, IsClosing b

/-- **Behind such a document a scan waits** for a comment or a note of the value. -/
theorem exists_passes_of_closesItself (h : ClosesItself text) :
    ∃ s, Passes text s ∧ s.At .finish ∧ s.valueEnd = text.length ∧
      ∃ c start before, s.emitted = ⟨.closing c, start, text.length⟩ :: before := by
  obtain ⟨⟨before, c, start, hc, hread⟩, b, hlast, hb⟩ := h
  have hrun : (run {} {} 0 text).2 = none := congrArg Reading.failure hread
  obtain ⟨first, rfl⟩ : ∃ first, text = first ++ [b] := ⟨_, (List.dropLast_append_getLast? b hlast).symm⟩
  obtain ⟨s₀, h₀, hrun₀⟩ := passes_nil.exists_of_run hrun
  rw [List.nil_append] at h₀ hrun₀
  obtain ⟨s, hfeed, hs, hrun⟩ := h₀.exists_feed hrun₀
  have hopen : s.mode.isOpenEnded = false := (State.feed_closes s₀ hb h₀.running).of_ok hfeed
  generalize first ++ [b] = text at *
  refine ⟨s, hs, ?_⟩
  rw [run] at hrun
  split at hrun
  next r hconclude =>
    have hemitted : r.emitted = ⟨.endTop, text.length, text.length⟩ :: ⟨.closing c, start, text.length⟩ ::
        before.reverse := by
      have hevents := congrArg Reading.events ((hs.read_eq hconclude).symm.trans hread)
      simpa [State.events] using congrArg List.reverse hevents
    obtain ⟨hwaiting, rfl⟩ | ⟨n, start', before', hnote⟩ :=
      State.endsNote_of_conclude hs.sound hs.running hopen hconclude
    · obtain ⟨hend, hbefore⟩ := List.cons.inj hemitted
      obtain ⟨-, hvalueEnd, -⟩ := Event.mk.inj hend
      obtain hmode | hlt := hs.measured.comment hwaiting
      · refine ⟨⟨hmode, ?_, ?_⟩, hvalueEnd, c, start, _, hbefore⟩ <;>
          · have hopened := hs.opened_eq_nil hmode
            simp [hopened, State.note?, Place.container?]
      · exact (Nat.ne_of_lt hlt hvalueEnd).elim
    · have hkind := (List.cons.inj (List.cons.inj (hemitted.symm.trans hnote)).2).1
      rcases hc with rfl | rfl | rfl <;> cases hkind
  · cases hrun

/-! ## Behind the document -/

namespace State

/-- A blank there is skipped, and line ends are reported. -/
theorem At.feed_blank (h : s.At .finish) (hb : Bytes.isSpace b = true) :
    ∃ events, s.feed o b i = .ok (s.told events) := by
  rw [h.feed_eq nofun, visit, if_pos hb, skipBlank, h.note]
  split
  · exact ⟨[⟨.newLine, i, i + 1⟩], rfl⟩
  · exact ⟨[], rfl⟩

/-- **Blanks are skipped** behind a document. -/
theorem At.run_eq_run_dropWhile (h : s.At .finish) (o : Options) (i : Nat) (rest : Bytes) :
    ∃ events j, run o s i rest = run o (s.told events) j (rest.dropWhile Bytes.isSpace) := by
  induction rest generalizing s i with
  | nil => exact ⟨[], i, rfl⟩
  | cons b rest ih =>
    cases hb : Bytes.isSpace b with
    | true =>
      obtain ⟨events, hfeed⟩ := h.feed_blank hb
      obtain ⟨events', j, hrun⟩ := ih (h.told events) (i + 1)
      refine ⟨events ++ events', j, ?_⟩
      rw [run, if_neg h.ne_done, hfeed, List.dropWhile_cons_of_pos hb, told_append]
      exact hrun
    | false => exact ⟨[], i, by rw [List.dropWhile_cons_of_neg (by rw [hb]; exact Bool.false_ne_true)]; rfl⟩

end State

/-- After blanks, some bytes begin like a comment or a note. -/
def OpensComment (rest : Bytes) : Prop :=
  ∃ b ∈ (rest.dropWhile Bytes.isSpace).head?, Bytes.char b = '#' ∨ Bytes.char b = '/'

/-- After blanks, some bytes begin with a slash that opens no note. -/
def BeginsWithSlash (rest : Bytes) : Prop :=
  ∃ more, rest.dropWhile Bytes.isSpace = Char.toUInt8 '/' :: more ∧
    ∀ b ∈ more.head?, Bytes.char b ≠ '/' ∧ Bytes.char b ≠ '*'

namespace State

/-- Behind a document, what opens no comment is ignored when the document is measured. -/
theorem At.run_measuring (h : s.At .finish) (hrest : ¬ OpensComment rest) (i : Nat) :
    ∃ events, run .measuring s i rest = ((s.told events).stop, none) := by
  obtain ⟨events, j, hrun⟩ := h.run_eq_run_dropWhile .measuring i rest
  refine ⟨events, hrun.trans ?_⟩
  have h' := h.told events
  cases hmore : rest.dropWhile Bytes.isSpace with
  | nil =>
    rw [run, conclude, h'.mode]
    rfl
  | cons b more =>
    have hspace : Bytes.isSpace b = false := by
      simpa [hmore] using List.head?_dropWhile_not Bytes.isSpace rest
    have hcomment : commentMode? b = none := by
      unfold commentMode?
      split
      · next hchar => exact (hrest ⟨b, by rw [hmore]; rfl, Or.inl hchar⟩).elim
      · next hchar => exact (hrest ⟨b, by rw [hmore]; rfl, Or.inr hchar⟩).elim
      · rfl
    have hfeed : (s.told events).feed .measuring b j = .ok (s.told events).stop := by
      rw [h'.feed_eq (by simp), visit_eq_token hspace hcomment]
      rfl
    rw [run, if_neg h'.ne_done, hfeed]
    exact run_of_done rfl _ more

/-- Behind a document, a slash that opens no note makes the text unreadable. -/
theorem At.run_slash (h : s.At .finish) (hrest : BeginsWithSlash rest) (i : Nat) :
    ∃ f ∈ (run {} s i rest).2, ¬ f.cause.IsLeftOver := by
  obtain ⟨more, hmore, hhead⟩ := hrest
  obtain ⟨events, j, hrun⟩ := h.run_eq_run_dropWhile {} i rest
  have h' := h.told events
  have hfeed : (s.told events).feed {} (Char.toUInt8 '/') j = .ok ((s.told events).interrupt .commentStart .finish) := by
    rw [h'.feed_eq (by simp), visit, inNote, h'.note]
    rfl
  rw [hrun, hmore, run, if_neg h'.ne_done, hfeed]
  dsimp only
  cases more with
  | nil => exact ⟨_, rfl, by simp [Cause.IsLeftOver]⟩
  | cons b more =>
    obtain ⟨hslash, hstar⟩ := hhead b rfl
    have hnext : ((s.told events).interrupt .commentStart .finish).feed {} b (j + 1) =
        ((s.told events).interrupt .commentStart .finish).refuse b .commentKind := by
      change feedCommentStart _ _ _ = _
      unfold feedCommentStart
      split
      · next hchar => exact (hslash hchar).elim
      · next hchar => exact (hstar hchar).elim
      · rfl
    rw [run, if_neg (by simp [interrupt]), hnext]
    exact ⟨_, rfl, by simp [Cause.IsLeftOver]⟩

end State

/-! ## What follows the document -/

/-- Where a document cannot be measured, the scan that measures it fails. -/
theorem exists_failure_of_length_eq_error {source : Source} {p : Problem} (h : length source = .error p) :
    ∃ f, (read .measuring source.content).failure = some f ∧ p = f.problem source := by
  cases hfailure : (read .measuring source.content).failure with
  | some f =>
    rw [length, hfailure] at h
    exact ⟨f, rfl, (Except.error.inj h).symm⟩
  | none =>
    obtain ⟨before, n, hread, -⟩ := exists_read_of_failure_eq_none hfailure
    cases h.symm.trans (length_eq_ok_iff.2 ⟨before, hread⟩)

/-- A run stops no earlier than it begins. -/
theorem le_offset_of_run {f : Failure} (h : (run o s i rest).2 = some f) : i ≤ f.offset := by
  induction rest generalizing s i with
  | nil =>
    rw [run] at h
    split at h
    · cases h
    · obtain rfl := Option.some.inj h
      exact Nat.le_refl i
  | cons b rest ih =>
    rw [run] at h
    split at h
    · cases h
    split at h
    · exact Nat.le_of_succ_le (ih h)
    · obtain rfl := Option.some.inj h
      exact Nat.le_refl i

/-- What is measured is no less than the document that the text begins with. -/
theorem length_le_of_closesItself (h : ClosesItself text) {name : String}
    (hlength : length ⟨name, text ++ rest⟩ = .ok n) : text.length ≤ n := by
  obtain ⟨s, hs, -, -, c, start, before, hemitted⟩ := exists_passes_of_closesItself h
  obtain ⟨hle, hread⟩ := read_take_of_length hlength
  let closing : Event := ⟨.closing c, start, text.length⟩
  have hsuffix : s.emitted <:+ (run .measuring s text.length rest).1.emitted :=
    hs.sound.emitted_suffix_run .measuring rest
  have hmem : closing ∈ (read .measuring (text ++ rest)).events := by
    change closing ∈ (run .measuring {} 0 (text ++ rest)).1.emitted.reverse
    rw [hs.measuring, List.mem_reverse]
    refine hsuffix.subset ?_
    rw [hemitted]
    exact List.mem_cons_self
  have htake : closing ∈ (read {} ((text ++ rest).take n)).events := by
    rw [hread]
    refine List.mem_append_left _ (List.mem_filter.2 ⟨hmem, ?_⟩)
    exact decide_eq_true ⟨nofun, nofun⟩
  have hwithin := (read_isOrderly {} ((text ++ rest).take n)).1.within closing htake nofun
  rwa [List.length_take_of_le hle] at hwithin

/-- What opens no comment is ignored. -/
theorem length_of_not_opensComment (h : ClosesItself text) (hrest : ¬ OpensComment rest) (name : String) :
    length ⟨name, text ++ rest⟩ = .ok text.length := by
  obtain ⟨s, hs, hfinish, hvalueEnd, -⟩ := exists_passes_of_closesItself h
  obtain ⟨events, hrun⟩ := hfinish.run_measuring hrest text.length
  rw [← hs.measuring] at hrun
  refine length_eq_ok_iff.2 ⟨(s.told events).events, ?_⟩
  rw [read, hrun, ← hvalueEnd]
  exact congrArg (Reading.mk · none) (List.reverse_cons ..)

/-- **What follows a document** that ends with the last byte of its value never takes from its length, and where it makes
the text impossible to measure, it begins like a comment, and the problem is located in it.  A text can be measured if
reading it fails for no other reason than what follows a document.  So what does not begin like a comment is ignored,
but a slash that opens no note is not. -/
theorem length_of_closesItself (h : ClosesItself text) (rest : Bytes) (name : String) :
    (∀ n, length ⟨name, text ++ rest⟩ = .ok n → text.length ≤ n) ∧
    (∀ p, length ⟨name, text ++ rest⟩ = .error p → OpensComment rest ∧
      ∃ offset, p.location = some ⟨⟨name, text ++ rest⟩, offset⟩ ∧ text.length ≤ offset) ∧
    ((∃ n, length ⟨name, text ++ rest⟩ = .ok n) ↔ ∀ f ∈ (read {} (text ++ rest)).failure, f.cause.IsLeftOver) ∧
    (¬ OpensComment rest → length ⟨name, text ++ rest⟩ = .ok text.length) ∧
    (BeginsWithSlash rest → ¬ ∃ n, length ⟨name, text ++ rest⟩ = .ok n) := by
  obtain ⟨s, hs, hfinish, -⟩ := exists_passes_of_closesItself h
  have hiff := exists_length_iff ⟨name, text ++ rest⟩
  refine ⟨fun n => length_le_of_closesItself h, fun p hp => ⟨?_, ?_⟩, hiff,
    fun hrest => length_of_not_opensComment h hrest name, fun hrest hlength => ?_⟩
  · by_contra hrest
    cases hp.symm.trans (length_of_not_opensComment h hrest name)
  · obtain ⟨f, hf, rfl⟩ := exists_failure_of_length_eq_error hp
    have hrun : (run .measuring s text.length rest).2 = some f :=
      (congrArg Prod.snd (hs.measuring rest)).symm.trans hf
    exact ⟨f.offset, rfl, le_offset_of_run hrun⟩
  · obtain ⟨f, hf, hcause⟩ := hfinish.run_slash hrest text.length
    rw [← hs.reading] at hf
    exact hcause (hiff.1 hlength f hf)

/-- The empty object ends with its brace. -/
theorem closesItself_object : ClosesItself (Bytes.ofString "{}") :=
  ⟨⟨[⟨.opening .object, 0, 0⟩], .object, 0, Or.inl rfl, by decide +kernel⟩, _, rfl, .brace⟩

/-- A path follows an object. -/
theorem length_before_path : ClosesItself (Bytes.ofString "{}") ∧ BeginsWithSlash (Bytes.ofString " /x") ∧
    ¬ ∃ n, length ⟨"text", Bytes.ofString "{}" ++ Bytes.ofString " /x"⟩ = .ok n := by
  have hslash : BeginsWithSlash (Bytes.ofString " /x") := by
    refine ⟨[Char.toUInt8 'x'], by decide +kernel, ?_⟩
    rintro b ⟨⟩
    decide
  exact ⟨closesItself_object, hslash, (length_of_closesItself closesItself_object _ "text").2.2.2.2 hslash⟩

/-- **Not everything that may follow is ignored.** -/
theorem path_not_ignored : ¬ ∀ (text rest : Bytes) (name : String), ClosesItself text →
    ∃ n, length ⟨name, text ++ rest⟩ = .ok n := by
  intro h
  obtain ⟨n, hn⟩ := h (Bytes.ofString "{}") (Bytes.ofString " /x") "text" closesItself_object
  have hfails : (length ⟨"text", Bytes.ofString "{}" ++ Bytes.ofString " /x"⟩).isOk = false := by decide +kernel
  rw [hn] at hfails
  cases hfails

end Scan
end ExampleSchema
