import ExampleSchema.Proofs.Scan.Continue

/-!
# Scans at other offsets

A scan only copies offsets into its events.  If the same bytes are read at other offsets, it goes the same way, and
its events are the same up to these offsets.

* `Scan.Shift`: other offsets, told apart by what begins or ends there.
* `Scan.Shift.Moves`: a byte is read at another offset; `Scan.Shift.MovesAll`: also when something ends right before it.
* `Scan.State.feed_shift`, `Scan.State.conclude_shift`: a byte, and the end of the document.
* `Scan.run_shift`: a text; `Scan.run_shift_of_between`: a text from a place between tokens on.
-/

namespace ExampleSchema

/-- Other offsets for the events of a scan. -/
structure Scan.Shift where
  /-- Where constructs begin. -/
  opening : Construct → Nat → Nat
  /-- Where the ends of lines begin. -/
  line : Nat → Nat
  /-- Where anything ends. -/
  stop : Nat → Nat
  /-- Events that come before all others, as they are. -/
  past : List Event := []

/-- The event at its other offsets. -/
def Event.shift (sh : Scan.Shift) (e : Event) : Event :=
  match e.kind with
  | .opening c => ⟨.opening c, sh.opening c e.start, sh.opening c e.stop⟩
  | .closing c => ⟨.closing c, sh.opening c e.start, sh.stop e.stop⟩
  | .newLine => ⟨.newLine, sh.line e.start, sh.stop e.stop⟩
  | .endTop => ⟨.endTop, sh.stop e.start, sh.stop e.stop⟩

@[simp] theorem Event.kind_shift (sh : Scan.Shift) (e : Event) : (e.shift sh).kind = e.kind := by
  obtain ⟨kind, start, stop⟩ := e
  cases kind <;> rfl

namespace Scan

namespace Shift

/-- The byte at offset `i` is read at offset `j`. -/
structure Moves (sh : Shift) (i j : Nat) : Prop where
  opening : ∀ c, sh.opening c i = j
  line : sh.line i = j
  stop : sh.stop (i + 1) = j + 1

/-- The byte at offset `i` is read at offset `j`, and so is what ends before it or begins with the byte before it. -/
structure MovesAll (sh : Shift) (i j : Nat) : Prop extends sh.Moves i j where
  back : ∀ c, sh.opening c (i - 1) = j - 1
  here : sh.stop i = j

end Shift

namespace State

/-- The state at the other offsets. -/
def shift (sh : Shift) (s : State) : State where
  mode := s.mode
  resume := s.resume
  opened := s.opened.map fun o => (o.1, sh.opening o.1 o.2)
  nameEnd := sh.stop s.nameEnd
  textEnd := sh.stop s.textEnd
  valueEnd := sh.stop s.valueEnd
  emitted := s.emitted.map (Event.shift sh) ++ sh.past

variable {sh : Shift} {o : Options} {s : State} {b : UInt8} {i j : Nat}

@[simp] theorem mode_shift : (s.shift sh).mode = s.mode := rfl

@[simp] theorem resume_shift : (s.shift sh).resume = s.resume := rfl

@[simp] theorem note?_shift : (s.shift sh).note? = s.note? := List.findSome?_map

@[simp] theorem inNote_shift : (s.shift sh).inNote = s.inNote := congrArg Option.isSome note?_shift

@[simp] theorem depth_shift : (s.shift sh).depth = s.depth := List.countP_map

/-! ## Opening and closing -/

theorem close_shift (stop : Nat) : (s.shift sh).close (sh.stop stop) = shift sh <$> s.close stop := by
  obtain ⟨mode, resume, opened, nameEnd, textEnd, valueEnd, emitted⟩ := s
  cases opened <;> rfl

theorem closeIf_shift (select : Construct → Bool) (stop : Nat) :
    (s.shift sh).closeIf select (sh.stop stop) = shift sh <$> s.closeIf select stop := by
  have hclose : (s.shift sh).close (sh.stop stop) = shift sh <$> s.close stop := close_shift stop
  obtain ⟨mode, resume, opened, nameEnd, textEnd, valueEnd, emitted⟩ := s
  cases opened with
  | nil => rfl
  | cons top rest =>
    change (if select top.1 then _ else _) = shift sh <$> if select top.1 then _ else _
    split
    · exact hclose
    · rfl

theorem settle_shift (stop : Nat) : (s.shift sh).settle (sh.stop stop) = (s.settle stop).shift sh := by
  obtain ⟨mode, resume, opened, nameEnd, textEnd, valueEnd, emitted⟩ := s
  cases opened <;> rfl

theorem endValue_shift (stop : Nat) : (s.shift sh).endValue (sh.stop stop) = shift sh <$> s.endValue stop :=
  Except.bind_eq_map_bind (close_shift stop) fun _ _ => Except.bind_eq_map_bind (closeIf_shift _ stop)
    fun _ _ => congrArg Except.ok (settle_shift stop)

theorem closeNote_shift (stop : Nat) : (s.shift sh).closeNote (sh.stop stop) = shift sh <$> s.closeNote stop :=
  Except.bind_eq_map_bind (closeIf_shift _ s.textEnd) fun _ _ => Except.bind_eq_map_bind (close_shift stop)
    fun _ _ => congrArg Except.ok (settle_shift stop)

theorem resumeNext_shift : (s.shift sh).resumeNext = shift sh <$> s.resumeNext := by
  rw [resumeNext, resumeNext, resume_shift]
  split <;> rfl

theorem finishValue_shift (stop : Nat) :
    (s.shift sh).finishValue (sh.stop stop) = shift sh <$> s.finishValue stop :=
  Except.bind_eq_map_bind (endValue_shift stop) fun _ _ => resumeNext_shift

theorem finishNote_shift (stop : Nat) :
    (s.shift sh).finishNote (sh.stop stop) = shift sh <$> s.finishNote stop :=
  Except.bind_eq_map_bind (closeNote_shift stop) fun _ _ => resumeNext_shift

theorem begin_shift {c : Construct} (h : sh.opening c i = j) :
    (s.shift sh).begin c j = (s.begin c i).shift sh := by
  subst h
  rfl

theorem newLine_shift (h : sh.Moves i j) :
    (s.shift sh).emit .newLine j (j + 1) = (s.emit .newLine i (i + 1)).shift sh := by
  rw [← h.stop, ← h.line]
  rfl

/-! ## Between tokens -/

theorem skipBlank_shift (h : sh.Moves i j) : (s.shift sh).skipBlank b j = shift sh <$> s.skipBlank b i := by
  rw [skipBlank, skipBlank, note?_shift]
  split
  · split
    · exact congrArg Except.ok (newLine_shift h)
    · rfl
    · rfl
  · rfl

theorem openContainer_shift (h : sh.Moves i j) (c : Construct) (inside next : Place) :
    (s.shift sh).openContainer c inside next j = shift sh <$> s.openContainer c inside next i := by
  rw [openContainer, openContainer, depth_shift, begin_shift (h.opening c)]
  split <;> rfl

theorem startValue_shift (h : sh.Moves i j) (next : Place) :
    startValue o (s.shift sh) next b j = shift sh <$> startValue o s next b i := by
  rw [startValue, startValue]
  simp only [inNote_shift, openContainer_shift h, begin_shift (h.opening _)]
  split
  case h_9 =>
    split
    · rfl
    · split <;> rfl
  all_goals rfl

theorem startKey_shift (h : sh.Moves i j) : startKey o (s.shift sh) b j = shift sh <$> startKey o s b i := by
  rw [startKey, startKey]
  simp only [inNote_shift, begin_shift (h.opening _)]
  split
  · rfl
  · split
    · split
      · rfl
      · split <;> rfl
    · split <;> rfl

theorem token_shift (h : sh.Moves i j) (place : Place) :
    token o (s.shift sh) place b j = shift sh <$> token o s place b i := by
  have hvalue (next : Place) : startValue o (s.shift sh) next b j = shift sh <$> startValue o s next b i :=
    startValue_shift h next
  have hpart (c : Construct) (next : Place) :
      startValue o ((s.shift sh).begin c j) next b j = shift sh <$> startValue o (s.begin c i) next b i := by
    rw [begin_shift (h.opening c)]
    exact startValue_shift h next
  have hkey : startKey o (s.shift sh) b j = shift sh <$> startKey o s b i := startKey_shift h
  have hend : (s.shift sh).finishValue (j + 1) = shift sh <$> s.finishValue (i + 1) :=
    h.stop ▸ finishValue_shift (i + 1)
  rw [token.eq_def, token.eq_def]
  simp only [hvalue, hpart, hkey, hend]
  split
  case h_2 => split <;> rfl
  all_goals rfl

theorem visit_shift (h : sh.Moves i j) (place : Place) :
    visit o (s.shift sh) place b j = shift sh <$> visit o s place b i := by
  rw [visit, visit, inNote_shift]
  split
  · exact skipBlank_shift h
  · split
    · split
      · rfl
      · exact token_shift h place
    · exact token_shift h place

theorem land_shift (h : sh.MovesAll i j) (places : List Place) :
    land o b j places (s.shift sh) = shift sh <$> land o b i places s := by
  induction places generalizing s with
  | nil => rfl
  | cons place rest ih =>
    rw [land, land]
    split
    · exact Except.bind_eq_map_bind (h.here ▸ closeNote_shift i) fun _ _ => ih
    · exact visit_shift (s := { s with mode := .between place, resume := rest }) h.toMoves place

theorem land?_shift (h : sh.stop i = j) (places : List Place) :
    land? j places (s.shift sh) = shift sh <$> land? i places s := by
  induction places generalizing s with
  | nil => rfl
  | cons place rest ih =>
    cases place with
    | afterRules kind =>
      cases kind with
      | inline => exact Except.bind_eq_map_bind (h ▸ closeNote_shift i) fun _ _ => ih
      | block => rfl
    | _ => rfl

/-! ## Inside tokens -/

theorem endValue_land_shift (h : sh.MovesAll i j) {stop stop' : Nat} (hstop : sh.stop stop = stop') :
    (do land o b j s.resume (← (s.shift sh).endValue stop')) =
      shift sh <$> (do land o b i s.resume (← s.endValue stop)) := by
  subst hstop
  exact Except.bind_eq_map_bind (endValue_shift stop) fun _ _ => land_shift h s.resume

theorem closeNote_land_shift (h : sh.MovesAll i j) :
    (do land o b j s.resume (← (s.shift sh).closeNote j)) =
      shift sh <$> (do land o b i s.resume (← s.closeNote i)) :=
  Except.bind_eq_map_bind (h.here ▸ closeNote_shift i) fun _ _ => land_shift h s.resume

theorem feedString_shift (h : sh.Moves i j) : (s.shift sh).feedString b j = shift sh <$> s.feedString b i := by
  rw [feedString, feedString, ← h.stop, finishValue_shift]
  split
  · rfl
  · rfl
  · split <;> rfl

theorem feedEscape_shift : (s.shift sh).feedEscape b = shift sh <$> s.feedEscape b := by
  rw [feedEscape, feedEscape]
  split <;> rfl

theorem feedUnicode_shift (digits : Nat) : (s.shift sh).feedUnicode digits b = shift sh <$> s.feedUnicode digits b := by
  rw [feedUnicode, feedUnicode]
  split <;> rfl

theorem feedNumber_shift (h : sh.MovesAll i j) (part : NumberPart) :
    feedNumber o (s.shift sh) part b j = shift sh <$> feedNumber o s part b i := by
  rw [feedNumber, feedNumber]
  split
  · rfl
  · rfl
  · exact endValue_land_shift h h.here

theorem feedKeyword_shift (h : sh.Moves i j) (word : Keyword) (next : UInt8) (rest : Bytes) :
    (s.shift sh).feedKeyword word next rest b j = shift sh <$> s.feedKeyword word next rest b i := by
  rw [feedKeyword.eq_def, feedKeyword.eq_def, ← h.stop, finishValue_shift]
  split
  · split <;> rfl
  · rfl

theorem afterName_shift (h : sh.MovesAll i j) :
    feedShortcut.afterName o b j (s.shift sh) = shift sh <$> feedShortcut.afterName o b i s := by
  rw [feedShortcut.afterName, feedShortcut.afterName]
  split
  · rfl
  · split
    · rfl
    · exact endValue_land_shift h rfl

theorem feedShortcut_shift (h : sh.MovesAll i j) (part : ShortcutPart) :
    feedShortcut o (s.shift sh) part b j = shift sh <$> feedShortcut o s part b i := by
  rw [feedShortcut.eq_def, feedShortcut.eq_def]
  split
  · split <;> rfl
  · split
    · rfl
    · have hnamed : { s.shift sh with nameEnd := j } = shift sh { s with nameEnd := i } := by
        rw [← h.here]
        rfl
      rw [hnamed]
      exact afterName_shift h
  · exact afterName_shift h
  · split
    · rfl
    · split <;> rfl

theorem feedName_shift (h : sh.MovesAll i j) : feedName o (s.shift sh) b j = shift sh <$> feedName o s b i := by
  rw [feedName, feedName]
  split
  · rfl
  · exact endValue_land_shift h h.here

theorem feedKeyMark_shift : (s.shift sh).feedKeyMark b = shift sh <$> s.feedKeyMark b := by
  rw [feedKeyMark, feedKeyMark]
  split <;> rfl

/-! ## Inside comments -/

theorem feedCommentStart_shift (h : sh.MovesAll i j) :
    (s.shift sh).feedCommentStart b j = shift sh <$> s.feedCommentStart b i := by
  rw [feedCommentStart, feedCommentStart]
  simp only [begin_shift (h.back _)]
  split <;> rfl

theorem feedLineComment_shift (h : sh.MovesAll i j) :
    feedLineComment o (s.shift sh) b j = shift sh <$> feedLineComment o s b i := by
  rw [feedLineComment, feedLineComment]
  split
  · exact land_shift h s.resume
  · rfl

theorem feedBlockComment_shift (h : sh.Moves i j) (hashes : Nat) :
    (s.shift sh).feedBlockComment hashes b j = shift sh <$> s.feedBlockComment hashes b i := by
  rw [feedBlockComment, feedBlockComment, newLine_shift h, resumeNext_shift]
  split
  · split <;> rfl
  · rfl
  · rfl

theorem feedHashes_shift (h : sh.MovesAll i j) (count : Nat) :
    feedHashes o (s.shift sh) count b j = shift sh <$> feedHashes o s count b i := by
  rw [feedHashes, feedHashes]
  split
  · rfl
  · split
    · exact feedBlockComment_shift h.toMoves 0
    · exact feedLineComment_shift h

/-! ## Inside notes -/

/-- The text of a note begins here or one byte before. -/
theorem beginText_shift {kind : NoteKind} {start start' : Nat} (hopening : sh.opening kind.textConstruct start = start')
    (hstop : sh.stop i = j) : { (s.shift sh).beginText kind start' with textEnd := j } =
      shift sh { s.beginText kind start with textEnd := i } := by
  subst hopening hstop
  rfl

theorem feedInlineText_shift (h : sh.Moves i j) :
    (s.shift sh).feedInlineText b j = (s.feedInlineText b i).shift sh := by
  rw [feedInlineText, feedInlineText, shift, ← h.stop]
  split <;> rfl

theorem feedInline_shift (h : sh.MovesAll i j) :
    feedInline o (s.shift sh) b j = shift sh <$> feedInline o s b i := by
  rw [feedInline, feedInline, mode_shift]
  split
  · exact closeNote_land_shift h
  · split
    · exact congrArg Except.ok (feedInlineText_shift h.toMoves)
    · exact openContainer_shift h.toMoves _ _ _
    · rfl
    · split
      · rfl
      · have hbegun : (s.shift sh).beginText .inline j = (s.beginText .inline i).shift sh :=
          beginText_shift (h.opening _) h.here
        rw [hbegun]
        exact congrArg Except.ok (feedInlineText_shift h.toMoves)

theorem feedBlockText_shift (h : sh.Moves i j) :
    (s.shift sh).feedBlockText b j = (s.feedBlockText b i).shift sh := by
  rw [feedBlockText, feedBlockText, ← h.stop]
  split
  · rfl
  · split <;> rfl

theorem feedBlockTextStar_shift (h : sh.MovesAll i j) :
    (s.shift sh).feedBlockTextStar b j = shift sh <$> s.feedBlockTextStar b i := by
  have hstar : { s.shift sh with textEnd := j } = shift sh { s with textEnd := i } := by
    rw [← h.here]
    rfl
  rw [feedBlockTextStar, feedBlockTextStar, hstar, ← h.stop, finishNote_shift]
  split
  · rfl
  · rfl
  · exact congrArg Except.ok (feedBlockText_shift h.toMoves)

theorem feedBlockStartStar_shift (h : sh.MovesAll i j) :
    (s.shift sh).feedBlockStartStar b j = shift sh <$> s.feedBlockStartStar b i := by
  rw [feedBlockStartStar, feedBlockStartStar, beginText_shift (h.back _) h.here, ← h.stop, finishNote_shift]
  split
  · rfl
  · exact congrArg Except.ok (feedBlockText_shift h.toMoves)

theorem feedBlockStart_shift (h : sh.MovesAll i j) :
    (s.shift sh).feedBlockStart b j = shift sh <$> s.feedBlockStart b i := by
  rw [feedBlockStart, feedBlockStart, mode_shift]
  split
  · exact openContainer_shift h.toMoves _ _ _
  · rfl
  · rfl
  · split
    · rfl
    · have hbegun : (s.shift sh).beginText .block j = (s.beginText .block i).shift sh :=
        beginText_shift (h.opening _) h.here
      rw [hbegun]
      exact congrArg Except.ok (feedBlockText_shift h.toMoves)

theorem feedBlockAfterRulesStar_shift (h : sh.Moves i j) :
    (s.shift sh).feedBlockAfterRulesStar b j = shift sh <$> s.feedBlockAfterRulesStar b i := by
  rw [feedBlockAfterRulesStar, feedBlockAfterRulesStar, ← h.stop, finishNote_shift]
  split <;> rfl

/-! ## Every mode -/

/-- **A byte is read at another offset** and leads to the same state. -/
theorem feed_shift (h : sh.MovesAll i j) : (s.shift sh).feed o b j = shift sh <$> s.feed o b i := by
  rw [feed, feed, mode_shift]
  split
  · exact land_shift h _
  · rfl
  · exact feedString_shift h.toMoves
  · exact feedEscape_shift
  · exact feedUnicode_shift _
  · exact feedNumber_shift h _
  · exact feedKeyword_shift h.toMoves _ _ _
  · exact feedShortcut_shift h _
  · exact feedName_shift h
  · exact feedName_shift h
  · exact feedKeyMark_shift
  · exact feedCommentStart_shift h
  · exact feedHashes_shift h _
  · exact feedLineComment_shift h
  · exact feedBlockComment_shift h.toMoves _
  · exact feedInline_shift h
  · exact feedInline_shift h
  · exact feedInline_shift h
  · exact feedBlockStart_shift h
  · exact feedBlockStart_shift h
  · exact feedBlockStartStar_shift h
  · exact congrArg Except.ok (feedBlockText_shift h.toMoves)
  · exact feedBlockTextStar_shift h
  · exact feedBlockAfterRulesStar_shift h.toMoves

/-- **The document ends at another offset.** -/
theorem conclude_shift (h : sh.stop i = j) : (s.shift sh).conclude j = shift sh <$> s.conclude i := by
  have hvalue (stop : Nat) : (do land? j s.resume (← (s.shift sh).endValue (sh.stop stop))) =
      shift sh <$> (do land? i s.resume (← s.endValue stop)) :=
    Except.bind_eq_map_bind (endValue_shift stop) fun _ _ => land?_shift h s.resume
  have hnote : (do land? j s.resume (← (s.shift sh).closeNote j)) =
      shift sh <$> (do land? i s.resume (← s.closeNote i)) :=
    Except.bind_eq_map_bind (h ▸ closeNote_shift i) fun _ _ => land?_shift h s.resume
  rw [conclude.eq_def, conclude.eq_def, mode_shift]
  split
  · rfl
  · exact land?_shift h _
  · split
    · exact h ▸ hvalue i
    · rfl
  · exact h ▸ hvalue i
  · exact hvalue s.nameEnd
  · exact land?_shift h s.resume
  · split
    · rfl
    · exact land?_shift h s.resume
  · exact hnote
  · exact hnote
  · exact hnote
  · rfl

/-! ## Between tokens, at the place where the offsets part -/

variable {place : Place}

/-- At a place, what ends before the byte does not count, unless an inline note may end there. -/
theorem feed_shift_of_between (h : sh.Moves i j) (hmode : s.mode = .between place)
    (hplace : place ≠ .afterRules .inline) : (s.shift sh).feed o b j = shift sh <$> s.feed o b i := by
  rw [feed_eq_visit hmode hplace, feed_eq_visit (s := s.shift sh) hmode hplace]
  exact visit_shift h place

/-- At a place, the document ends in the same way at any offset. -/
theorem conclude_shift_of_between (hmode : s.mode = .between place) (hplace : place ≠ .afterRules .inline) (i j : Nat) :
    (s.shift sh).conclude j = shift sh <$> s.conclude i := by
  rw [conclude, conclude, mode_shift, hmode]
  cases place with
  | afterRules kind =>
    cases kind with
    | inline => exact (hplace rfl).elim
    | block => rfl
  | _ => rfl

end State

/-! ## The rest of a text -/

/-- The failure as many bytes later. -/
def Failure.later (n : Nat) (f : Failure) : Failure := { f with offset := f.offset + n }

variable {sh : Shift} {o : Options} {s : State} {i n : Nat} {text : Bytes}

/-- What a scan comes to, at the other offsets. -/
abbrev Shift.outcome (sh : Shift) (n : Nat) : State × Option Failure → State × Option Failure :=
  Prod.map (State.shift sh) (Option.map (Failure.later n))

/-- The end of the text, at another offset. -/
theorem run_nil_shift (h : (s.shift sh).conclude (i + n) = State.shift sh <$> s.conclude i) :
    run o (s.shift sh) (i + n) [] = sh.outcome n (run o s i []) := by
  rw [run, run, h]
  cases s.conclude i <;> rfl

/-- One byte, and then the rest of the text, at other offsets. -/
theorem run_cons_shift {b : UInt8} (h : (s.shift sh).feed o b (i + n) = State.shift sh <$> s.feed o b i)
    (hrest : ∀ s : State, run o (s.shift sh) (i + 1 + n) text = sh.outcome n (run o s (i + 1) text)) :
    run o (s.shift sh) (i + n) (b :: text) = sh.outcome n (run o s i (b :: text)) := by
  rw [run, run, State.mode_shift, h]
  split
  · rfl
  · cases s.feed o b i with
    | ok next => exact Nat.add_right_comm i 1 n ▸ hrest next
    | error cause => rfl

/-- **A text is read at other offsets**, and the scan goes the same way. -/
theorem run_shift (h : ∀ k, i ≤ k → sh.MovesAll k (k + n)) (s : State) :
    run o (s.shift sh) (i + n) text = sh.outcome n (run o s i text) := by
  induction text generalizing s i with
  | nil => exact run_nil_shift (State.conclude_shift (h i (Nat.le_refl i)).here)
  | cons b rest ih =>
    exact run_cons_shift (State.feed_shift (h i (Nat.le_refl i))) fun next =>
      ih (fun k hk => h k (Nat.le_of_succ_le hk)) next

/-- **A text is read at other offsets from a place on**, and the scan goes the same way. -/
theorem run_shift_of_between {place : Place} (hmode : s.mode = .between place) (hplace : place ≠ .afterRules .inline)
    (hhere : sh.Moves i (i + n)) (hlater : ∀ k, i < k → sh.MovesAll k (k + n)) :
    run o (s.shift sh) (i + n) text = sh.outcome n (run o s i text) := by
  cases text with
  | nil => exact run_nil_shift (State.conclude_shift_of_between hmode hplace i (i + n))
  | cons b rest =>
    exact run_cons_shift (State.feed_shift_of_between hhere hmode hplace) fun next => run_shift hlater next

end Scan
end ExampleSchema
