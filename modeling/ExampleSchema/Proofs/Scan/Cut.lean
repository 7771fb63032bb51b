import ExampleSchema.Proofs.Scan.Continue
import ExampleSchema.Proofs.Scan.Lockstep

/-!
# Cutting a text behind its document

What closes a document may be a byte of it, as the brace of an object, or the byte behind it, as with a number.  If
the text is cut there, the end of the text closes it instead.  Both ways lead to the same state, so at each byte
that may follow the value, what has been reported up to the end of the value is what a scan of the bytes up to there
reports.  The name of a type is the exception: blanks may follow it before it turns out that no bar does, so the scan
has to be followed back to the end of the name.

* `Scan.Reaches`: what state some bytes lead to, whatever follows them.
* `Scan.IsCut`: the first bytes of a text are a document with the events of a longer one.
* `Scan.Measured`: what every state satisfies on the way.
* `Scan.State.hasEnded_of_conclude`: then the document has been reported up to its end wherever the text may end.
-/

namespace ExampleSchema
namespace Scan

variable {text : Bytes} {past : List Event} {s s' u w r : State} {b : UInt8} {i n stop : Nat}
  {mode : Mode} {places : List Place} {emitted : List Event} {o : Options}

/-! ## Reaching a state -/

/-- A scan of any text that begins with these bytes comes to a state behind them, whether it reads the text or
measures it. -/
structure Reaches (text : Bytes) (s : State) : Prop where
  reading : ∀ more, run {} {} 0 (text ++ more) = run {} s text.length more
  measuring : ∀ more, run .measuring {} 0 (text ++ more) = run .measuring s text.length more

theorem reaches_nil : Reaches [] {} := ⟨fun _ => rfl, fun _ => rfl⟩

theorem Reaches.feed (h : Reaches text s) (hmode : s.mode ≠ .done) (hfeed : s.feed {} b text.length = .ok s') :
    Reaches (text ++ [b]) s' where
  reading more := by
    rw [List.append_assoc, List.singleton_append, h.reading, run, if_neg hmode, hfeed, List.length_append]
    rfl
  measuring more := by
    rw [List.append_assoc, List.singleton_append, h.measuring, run, if_neg hmode,
      (State.feed_measuring_of_feed hmode hfeed).1, List.length_append]
    rfl

/-- Where the document may end, the bytes are a document. -/
theorem Reaches.read_eq (h : Reaches text s) (hend : s.conclude text.length = .ok r) :
    read {} text = ⟨r.events, none⟩ := by
  have hrun := h.reading []
  rw [List.append_nil, run, hend] at hrun
  rw [read, hrun]

/-! ## Cutting a text -/

/-- The first bytes of a text are a document.  Its events are the events of a longer one, except for line ends that
follow it. -/
structure IsCut (text : Bytes) (n : Nat) (emitted : List Event) : Prop where
  le : n ≤ text.length
  kept : ∃ blanks before, emitted = blanks ++ before ∧ (∀ e ∈ blanks, e.kind = .newLine ∧ n ≤ e.start) ∧
    read {} (text.take n) = ⟨before.reverse ++ [⟨.endTop, n, n⟩], none⟩

theorem IsCut.append (h : IsCut text n emitted) (more : Bytes) : IsCut (text ++ more) n emitted := by
  refine ⟨Nat.le_trans h.le (by simp), ?_⟩
  rw [List.take_append_of_le_length h.le]
  exact h.kept

theorem IsCut.newLine (h : IsCut text n emitted) (hle : n ≤ i) :
    IsCut text n (⟨.newLine, i, i + 1⟩ :: emitted) := by
  obtain ⟨blanks, before, rfl, hblanks, hread⟩ := h.kept
  exact ⟨h.le, _ :: blanks, before, rfl, List.forall_mem_cons.2 ⟨⟨rfl, hle⟩, hblanks⟩, hread⟩

/-- The end of the document has been reported, and before it what the document reports by itself. -/
def HasEnded (text : Bytes) (emitted : List Event) : Prop :=
  ∃ n before, emitted = ⟨.endTop, n, n⟩ :: before ∧ IsCut text n before

theorem HasEnded.append (h : HasEnded text emitted) (more : Bytes) : HasEnded (text ++ more) emitted := by
  obtain ⟨n, before, hemitted, hcut⟩ := h
  exact ⟨n, before, hemitted, hcut.append more⟩

theorem hasEnded_stop_iff : HasEnded text s.stop.emitted ↔ IsCut text s.valueEnd s.emitted := by
  constructor
  · rintro ⟨n, before, hemitted, hcut⟩
    obtain ⟨hend, rfl⟩ := List.cons.inj hemitted
    obtain ⟨-, rfl, -⟩ := Event.mk.inj hend
    exact hcut
  · exact fun hcut => ⟨_, _, rfl, hcut⟩

/-- What ends with the text is a document. -/
theorem Reaches.isCut (h : Reaches text s) (hend : s.conclude text.length = .ok w.stop)
    (hvalueEnd : w.valueEnd = text.length) : IsCut text w.valueEnd w.emitted := by
  refine ⟨Nat.le_of_eq hvalueEnd, [], w.emitted, rfl, nofun, ?_⟩
  rw [hvalueEnd, List.take_length, h.read_eq hend, ← hvalueEnd]
  exact congrArg (Reading.mk · none) (List.reverse_cons ..)

/-- Behind the value there is no other place to resume. -/
theorem Nested.rest_eq_nil {opened : List Construct} (h : Nested (.finish :: places) opened) : places = [] := by
  cases h with
  | finish => rfl
  | inside hplace => cases hplace

namespace State

/-! ## Where a document ends -/

theorem valueEnd_of_settle (hopened : (s.settle stop).opened = []) : (s.settle stop).valueEnd = stop := by
  rw [opened_settle] at hopened
  rw [settle, hopened]
  rfl

theorem valueEnd_of_endValue (h : s.endValue stop = .ok u) (hopened : u.opened = []) : u.valueEnd = stop := by
  obtain ⟨s₁, -, h⟩ := Except.bind_eq_ok_iff.1 h
  obtain ⟨s₂, -, h⟩ := Except.bind_eq_ok_iff.1 h
  obtain rfl := Except.ok.inj h
  exact valueEnd_of_settle hopened

theorem valueEnd_of_closeNote (h : s.closeNote stop = .ok u) (hopened : u.opened = []) : u.valueEnd = stop := by
  obtain ⟨s₁, -, h⟩ := Except.bind_eq_ok_iff.1 h
  obtain ⟨s₂, -, h⟩ := Except.bind_eq_ok_iff.1 h
  obtain rfl := Except.ok.inj h
  exact valueEnd_of_settle hopened

theorem opened_eq_nil_of_constructs (h : s.constructs = []) : s.opened = [] := List.map_eq_nil_iff.1 h

/-- At the end of the text the document ends as it is, or a note ends with it. -/
theorem exists_of_land?_eq_ok (hnested : Nested places s.constructs) (hrec : Recorded past s stop)
    (h : land? stop places s = .ok r) :
    ∃ w, r = w.stop ∧ ((∃ rest, places = .finish :: rest) ∧ w = s ∨ w.valueEnd = stop) := by
  induction places generalizing s with
  | nil => cases hnested
  | cons place rest ih =>
    cases place with
    | finish => exact ⟨s, (Except.ok.inj h).symm, Or.inl ⟨⟨rest, rfl⟩, rfl⟩⟩
    | afterRules kind =>
      cases kind with
      | block => cases h
      | inline =>
        obtain ⟨s₁, hclose, -, hcomment, hrec₁⟩ := exists_closeNote_eq_ok hnested.readsNote hrec
        rw [land?, hclose] at h
        obtain ⟨w, hw, ⟨⟨rest', rfl⟩, rfl⟩ | hend⟩ := ih hcomment.1 hrec₁ h
        · have hopened := opened_eq_nil_of_constructs hcomment.1.opened_eq_nil
          exact ⟨w, hw, Or.inr (valueEnd_of_closeNote hclose hopened)⟩
        · exact ⟨w, hw, Or.inr hend⟩
    | _ => cases h

/-! ## The end of a name -/

/-- The same state in another mode, and behind another name. -/
def onward (s : State) (mode : Mode) (nameEnd : Nat) : State := { s with mode, nameEnd }

theorem close_onward (s : State) (mode : Mode) (n stop : Nat) :
    (s.onward mode n).close stop = (s.close stop).map fun u => u.onward mode n := by
  unfold close onward
  dsimp only
  split <;> rfl

theorem closeIf_onward (s : State) (mode : Mode) (n : Nat) (select : Construct → Bool) (stop : Nat) :
    (s.onward mode n).closeIf select stop = (s.closeIf select stop).map fun u => u.onward mode n := by
  have hopened : (s.onward mode n).opened = s.opened := rfl
  rw [closeIf, closeIf, hopened]
  cases s.opened with
  | nil => rfl
  | cons o rest =>
    dsimp only
    split
    · exact close_onward s mode n stop
    · rfl

theorem settle_onward (s : State) (mode : Mode) (n stop : Nat) :
    (s.onward mode n).settle stop = (s.settle stop).onward mode n := by
  unfold settle
  change (if s.opened.isEmpty then { s.onward mode n with valueEnd := stop } else s.onward mode n) = _
  split <;> rfl

theorem endValue_onward (s : State) (mode : Mode) (n stop : Nat) :
    (s.onward mode n).endValue stop = (s.endValue stop).map fun u => u.onward mode n := by
  rw [endValue, endValue, close_onward]
  cases s.close stop with
  | error c => rfl
  | ok s₁ =>
    change ((s₁.onward mode n).closeIf _ stop >>= fun s => return s.settle stop) = Except.map _ (s₁.closeIf _ stop >>= _)
    rw [closeIf_onward]
    cases s₁.closeIf Construct.isWrapper stop with
    | error c => rfl
    | ok s₂ => exact congrArg Except.ok (settle_onward s₂ mode n stop)

theorem closeNote_onward (s : State) (mode : Mode) (n stop : Nat) :
    (s.onward mode n).closeNote stop = (s.closeNote stop).map fun u => u.onward mode n := by
  rw [closeNote, closeNote, closeIf_onward]
  change _ = Except.map _ (s.closeIf _ s.textEnd >>= _)
  change Except.bind (Except.map _ (s.closeIf _ s.textEnd)) _ = _
  cases s.closeIf Construct.isNoteText s.textEnd with
  | error c => rfl
  | ok s₁ =>
    change ((s₁.onward mode n).close stop >>= fun s => return s.settle stop) = Except.map _ (s₁.close stop >>= _)
    rw [close_onward]
    cases s₁.close stop with
    | error c => rfl
    | ok s₂ => exact congrArg Except.ok (settle_onward s₂ mode n stop)

theorem land?_onward (length : Nat) (places : List Place) (s : State) (mode : Mode) (n : Nat) :
    land? length places (s.onward mode n) = (land? length places s).map fun r => r.onward .done n := by
  induction places generalizing s with
  | nil => rfl
  | cons place rest ih =>
    cases place with
    | afterRules kind =>
      cases kind with
      | block => rfl
      | inline =>
        rw [land?, land?, closeNote_onward]
        cases s.closeNote length with
        | error c => rfl
        | ok u => exact ih u
    | _ => rfl

/-! ## What every state satisfies -/

/-- The places to resume when nothing is being read but a comment, from the place that is next. -/
def waiting (s : State) : List Place :=
  match s.mode with
  | .between place => place :: s.resume
  | .commentStart | .hashes _ | .lineComment | .blockComment _ => s.resume
  | _ => []

end State

/-- Neither the document has ended nor the name of a type. -/
def Mode.isGoing : Mode → Bool
  | .done | .shortcut .afterName => false
  | _ => true

theorem Mode.ne_of_isGoing {mode : Mode} (h : mode.isGoing = true) : mode ≠ .shortcut .afterName ∧ mode ≠ .done := by
  constructor
  · rintro rfl
    cases h
  · rintro rfl
    cases h

/-- Nothing is known of the state: the value is being read, and not the blanks behind the name of a type. -/
structure State.IsBusy (s : State) : Prop where
  waiting : s.waiting ≠ [.finish]
  isGoing : s.mode.isGoing = true

/-- **What every state satisfies** behind some bytes: where the value is passed, what has been reported is what the
bytes up to its end report by themselves, and where the name of a type is passed, the scan has come from its end. -/
structure Measured (text : Bytes) (s : State) : Prop where
  past : s.waiting = [.finish] → IsCut text s.valueEnd s.emitted
  comment : s.waiting = [.finish] → s.mode = .between .finish ∨ s.valueEnd < text.length
  named : s.mode = .shortcut .afterName → ∃ before after s₀, text = before ++ after ∧ before.length = s.nameEnd ∧
    Reaches before s₀ ∧ s₀.mode = .shortcut .name ∧ s = s₀.onward (.shortcut .afterName) s.nameEnd
  ended : s.mode = .done → HasEnded text s.emitted

/-- Nothing has been read. -/
theorem measured_start : Measured [] {} := ⟨nofun, nofun, nofun, nofun⟩

namespace State

theorem IsBusy.measured (h : s.IsBusy) (text : Bytes) : Measured text s where
  past hwaiting := (h.waiting hwaiting).elim
  comment hwaiting := (h.waiting hwaiting).elim
  named hmode := ((Mode.ne_of_isGoing h.isGoing).1 hmode).elim
  ended hmode := ((Mode.ne_of_isGoing h.isGoing).2 hmode).elim

/-- In most modes a value or a note is being read. -/
theorem isBusy_of_mode (hwaiting : s.waiting = []) (hmode : s.mode.isGoing = true) : s.IsBusy := by
  refine ⟨fun h => ?_, hmode⟩
  cases hwaiting.symm.trans h

theorem measured_of_mode (hwaiting : s.waiting = []) (hmode : s.mode.isGoing = true) : Measured text s :=
  (isBusy_of_mode hwaiting hmode).measured text

/-- A byte that leaves the value passed adds a line end at most. -/
theorem measured_of_isCut (hcut : s.waiting = [.finish] → IsCut text s.valueEnd emitted)
    (hemitted : s.emitted = emitted ∨ s.emitted = ⟨.newLine, text.length, text.length + 1⟩ :: emitted)
    (hmode : s.mode.isGoing = true) : Measured (text ++ [b]) s where
  past hwaiting := by
    have hcut := hcut hwaiting
    rcases hemitted with hemitted | hemitted
    · rw [hemitted]
      exact hcut.append [b]
    · rw [hemitted]
      exact (hcut.newLine hcut.le).append [b]
  comment hwaiting := by
    have hle := (hcut hwaiting).le
    rw [List.length_append, List.length_singleton]
    exact Or.inr (Nat.lt_succ_of_le hle)
  named hname := ((Mode.ne_of_isGoing hmode).1 hname).elim
  ended hdone := ((Mode.ne_of_isGoing hmode).2 hdone).elim

/-- A byte that ends a value or a note is the last one of a document, if nothing is open any more. -/
theorem measured_of_resumeNext (h : u.resumeNext = .ok s) (hvalueEnd : u.opened = [] → u.valueEnd = text.length)
    (hsound : Sound [] text.length s) (hreach : s.mode ≠ .done → Reaches text s) : Measured text s := by
  unfold resumeNext at h
  split at h
  · cases h
  · next place rest hplaces =>
    obtain rfl := Except.ok.inj h
    refine ⟨fun hwaiting => ?_, fun hwaiting => ?_, nofun, nofun⟩
    · obtain ⟨rfl, rfl⟩ := List.cons.inj hwaiting
      cases hsound with
      | ended hmode => cases hmode
      | running hfits hrec hle =>
        exact (hreach nofun).isCut rfl (hvalueEnd (opened_eq_nil_of_constructs (Nested.opened_eq_nil hfits)))
    · obtain ⟨rfl, -⟩ := List.cons.inj hwaiting
      exact Or.inl rfl

theorem finishValue_measured (h : s.finishValue text.length = .ok s') (hsound : Sound [] text.length s')
    (hreach : s'.mode ≠ .done → Reaches text s') : Measured text s' := by
  obtain ⟨u, hend, hresume⟩ := Except.bind_eq_ok_iff.1 h
  exact measured_of_resumeNext hresume (valueEnd_of_endValue hend) hsound hreach

theorem finishNote_measured (h : s.finishNote text.length = .ok s') (hsound : Sound [] text.length s')
    (hreach : s'.mode ≠ .done → Reaches text s') : Measured text s' := by
  obtain ⟨u, hclose, hresume⟩ := Except.bind_eq_ok_iff.1 h
  exact measured_of_resumeNext hresume (valueEnd_of_closeNote hclose) hsound hreach

/-! ## The end of the text -/

/-- Where the name of a type is passed, the document ended with the name. -/
theorem isCut_of_named (h : Measured text s) (hmode : s.mode = .shortcut .afterName) (hresume : s.resume = [.finish])
    (hend : s.endValue s.nameEnd = .ok u) (hopened : u.opened = []) : IsCut text u.valueEnd u.emitted := by
  obtain ⟨before, after, s₀, rfl, hlength, hreach, hmode₀, heq⟩ := h.named hmode
  rw [heq, endValue_onward] at hend
  obtain ⟨u₀, hend₀, rfl⟩ := Except.map_eq_ok_iff.1 hend
  have hresume₀ : s₀.resume = [.finish] := by
    rw [heq] at hresume
    exact hresume
  have hnameEnd : (s₀.onward (.shortcut .afterName) s.nameEnd).nameEnd = before.length := hlength.symm
  rw [hnameEnd] at hend₀
  have hconclude : s₀.conclude before.length = .ok u₀.stop := by
    rw [conclude, hmode₀, hresume₀]
    dsimp only
    rw [hend₀]
    rfl
  exact (hreach.isCut hconclude (valueEnd_of_endValue hend₀ hopened)).append after

/-- Where the text ends between tokens, the value is passed, or it ends with the text, or a note does. -/
theorem hasEnded_of_land? (hreach : Reaches text s) (hconclude : s.conclude text.length = .ok r)
    (hland : land? text.length places u = .ok r) (hnested : Nested places u.constructs)
    (hrec : Recorded past u text.length)
    (hcut : places = [.finish] → u.opened = [] → u.valueEnd = text.length ∨ IsCut text u.valueEnd u.emitted) :
    HasEnded text r.emitted := by
  obtain ⟨w, rfl, ⟨⟨rest, rfl⟩, rfl⟩ | hvalueEnd⟩ := exists_of_land?_eq_ok hnested hrec hland
  · obtain rfl := hnested.rest_eq_nil
    refine hasEnded_stop_iff.2 ?_
    exact (hcut rfl (opened_eq_nil_of_constructs hnested.opened_eq_nil)).elim (hreach.isCut hconclude) id
  · exact hasEnded_stop_iff.2 (hreach.isCut hconclude hvalueEnd)

/-- Where the text ends with a value, or behind the name of a type. -/
theorem hasEnded_of_endValue (hreach : Reaches text s) (hconclude : s.conclude text.length = .ok r)
    (hend : (do land? text.length s.resume (← s.endValue stop)) = .ok r) (hends : Ends s.resume s.constructs)
    (hrec : Recorded past s stop) (hle : stop ≤ text.length)
    (hcut : ∀ u, s.endValue stop = .ok u → s.resume = [.finish] → u.opened = [] →
      u.valueEnd = text.length ∨ IsCut text u.valueEnd u.emitted) : HasEnded text r.emitted := by
  obtain ⟨u, hu, -, hnested, hrec'⟩ := exists_endValue_eq_ok hends hrec
  rw [hu] at hend
  exact hasEnded_of_land? hreach hconclude hend hnested (hrec'.mono hle) (hcut u hu)

/-- Where a note ends with the text. -/
theorem hasEnded_of_closeNote (hreach : Reaches text s) (hconclude : s.conclude text.length = .ok r)
    (hend : (do land? text.length s.resume (← s.closeNote text.length)) = .ok r)
    (hclose : ∃ u, s.closeNote text.length = .ok u ∧ u.resume = s.resume ∧ ReadsComment s.resume u.constructs ∧
      Recorded past u text.length) : HasEnded text r.emitted := by
  obtain ⟨u, hu, -, hcomment, hrec⟩ := hclose
  rw [hu] at hend
  exact hasEnded_of_land? hreach hconclude hend hcomment.1 hrec fun _ hopened =>
    Or.inl (valueEnd_of_closeNote hu hopened)

/-- **Where the text may end**, the document has been reported up to its end. -/
theorem hasEnded_of_conclude (hreach : Reaches text s) (hsound : Sound [] text.length s) (h : Measured text s)
    (hconclude : s.conclude text.length = .ok r) : HasEnded text r.emitted := by
  have hend := hconclude
  unfold conclude at hend
  cases hsound with
  | ended hmode n before hemitted hpast hbefore =>
    rw [hmode] at hend
    obtain rfl := Except.ok.inj hend
    exact h.ended hmode
  | running hfits hrec hle =>
    have hpast (hwaiting : s.waiting = [.finish]) : s.valueEnd = text.length ∨ IsCut text s.valueEnd s.emitted :=
      Or.inr (h.past hwaiting)
    cases hmode : s.mode <;> rw [hmode] at hfits hend <;> rw [reach, hmode] at hrec hle
    case between place =>
      exact hasEnded_of_land? hreach hconclude hend hfits hrec fun hplaces _ =>
        hpast (by rw [waiting, hmode]; exact hplaces)
    case done => exact hfits.elim
    case number part =>
      dsimp only at hend
      split at hend
      · exact hasEnded_of_endValue hreach hconclude hend hfits.ends hrec (Nat.le_refl _) fun u hu _ hopened =>
          Or.inl (valueEnd_of_endValue hu hopened)
      · cases hend
    case shortcut part =>
      cases part with
      | name =>
        exact hasEnded_of_endValue hreach hconclude hend (hfits.elim ReadsValue.ends ReadsValue.ends) hrec
          (Nat.le_refl _) fun u hu _ hopened => Or.inl (valueEnd_of_endValue hu hopened)
      | afterName =>
        exact hasEnded_of_endValue hreach hconclude hend (hfits.elim ReadsValue.ends ReadsValue.ends) hrec hle
          fun u hu hresume hopened => Or.inr (isCut_of_named h hmode hresume hu hopened)
      | mark | afterBar => cases hend
    case hashes count =>
      dsimp only at hend
      split at hend
      · cases hend
      · exact hasEnded_of_land? hreach hconclude hend hfits.1 hrec fun hplaces _ =>
          hpast (by rw [waiting, hmode]; exact hplaces)
    case lineComment =>
      exact hasEnded_of_land? hreach hconclude hend hfits.1 hrec fun hplaces _ =>
        hpast (by rw [waiting, hmode]; exact hplaces)
    case inlineStart | inlineDash =>
      exact hasEnded_of_closeNote hreach hconclude hend (exists_closeNote_eq_ok hfits hrec)
    case inlineText =>
      exact hasEnded_of_closeNote hreach hconclude hend (@exists_closeNote_eq_ok_of_text _ _ .inline _ _ hfits hrec hle)
    all_goals cases hend

end State
end Scan
end ExampleSchema
