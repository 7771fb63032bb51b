import ExampleSchema.Proofs.Json.Refusal
import ExampleSchema.Proofs.Scan.Lockstep

/-!
# Plain JSON and the whole notation

Whether only plain JSON may be read is asked for in a few places of a step.  There a scan of plain JSON refuses a byte
with which a comment, a note or a shortcut would begin; everywhere else it goes the same way as a scan of the whole
notation.  So a text of plain JSON has the same events in both, and a text of the whole notation is one of plain JSON
unless something has begun in it that plain JSON does not have.

* `Mode.isComment`, `State.IsExtended`: what plain JSON does not have.
* `Scan.Parts`: plain JSON and the whole notation have the same outcome, or plain JSON is left.
* `State.feed_parts`: so it is for a byte.
* `passed`: the states that a scan passes through.
* `run_eq_of_json`, `run_json_eq`: the rest of a text, from plain JSON to the whole notation and back.
* `read_extends_json`: whole texts.
-/

namespace ExampleSchema
namespace Scan

/-- Reads plain JSON only. -/
abbrev Options.json : Options := { plain := true }

/-- A comment is being read, from its first number sign on. -/
def Mode.isComment : Mode → Bool
  | .hashes _ | .lineComment | .blockComment _ => true
  | _ => false

/-- Something has begun that plain JSON does not have: a comment, a note or a shortcut. -/
def State.IsExtended (s : State) : Prop :=
  s.mode.isComment = true ∨ s.mode = .commentStart ∨ ∃ e ∈ s.emitted, e.kind.isPlain = false

/-- **Plain JSON and the whole notation go the same way**, or plain JSON is left: then one is refused, and something
has begun in the other. -/
inductive Parts (json whole : Verdict State) : Prop
  | same (heq : json = whole)
  | apart (hjson : ∃ cause, json = .error cause) (hwhole : ∃ s, whole = .ok s ∧ s.IsExtended)

variable {past : List Event} {s : State} {b : UInt8} {i : Nat}

theorem Parts.bind {x : Verdict State} {f g : State → Verdict State} (h : ∀ s, Parts (f s) (g s)) :
    Parts (x >>= f) (x >>= g) := by
  cases x with
  | ok s => exact h s
  | error cause => exact .same rfl

namespace State

/-! ## Where shortcuts begin -/

/-- What a step opens has begun. -/
theorem isExtended_of_mem {e : Event} (hmem : e ∈ s.emitted) (h : e.kind.isPlain = false) : s.IsExtended :=
  Or.inr (Or.inr ⟨e, hmem, h⟩)

theorem startValue_parts (s : State) (next : Place) :
    Parts (startValue .json s next b i) (startValue {} s next b i) := by
  by_cases hb : Bytes.char b = '@'
  · have hjson : startValue .json s next b i = s.refuse b .value := by
      rw [startValue, hb]
      rfl
    have hwhole : startValue {} s next b i = .ok ((s.begin
        (if s.inNote then Construct.typesShortcut else Construct.mixedValue) i).interrupt (.shortcut .mark) next) := by
      rw [startValue, hb]
      rfl
    refine .apart ⟨_, hjson⟩ ⟨_, hwhole, isExtended_of_mem (List.mem_cons_self ..) ?_⟩
    dsimp only
    split <;> rfl
  · refine .same ?_
    simp only [startValue]
    split
    iterate 8 rfl
    · simp [hb]

theorem startKey_parts (s : State) : Parts (startKey .json s b i) (startKey {} s b i) := by
  unfold startKey
  split
  · exact .same rfl
  split
  · exact .same rfl
  · by_cases hb : (Bytes.char b == '@') = true
    · rw [if_neg (by simp), if_pos (by simpa using hb)]
      exact .apart ⟨_, rfl⟩ ⟨_, rfl, isExtended_of_mem (List.mem_cons_self ..) rfl⟩
    · rw [if_neg (by simp), if_neg (by simpa using hb)]
      exact .same rfl

theorem token_parts (s : State) (place : Place) : Parts (s.token .json place b i) (s.token {} place b i) := by
  simp only [token]
  split
  · exact startValue_parts s _
  · exact .same rfl
  · exact .same rfl
  · exact startKey_parts s
  · exact .same rfl
  · exact startKey_parts s
  · exact .same rfl
  · exact .same rfl
  · exact startValue_parts _ _
  iterate 4 exact .same rfl
  · exact startValue_parts _ _
  · exact .same rfl
  · exact startValue_parts _ _
  all_goals exact .same rfl

/-! ## Where comments and notes begin -/

/-- In plain JSON, a byte that would begin a comment is no token. -/
theorem token_json_eq_error {place : Place} (hnote : s.inNote = false) (hplace : place.allowsComment b = true)
    (hb : Bytes.char b = '#' ∨ Bytes.char b = '/') : ∃ cause, s.token .json place b i = .error cause := by
  have hvalue : ∀ (s : State) (next : Place), startValue .json s next b i = s.refuse b .value := by
    intro s next
    rcases hb with hb | hb <;> rw [startValue, hb] <;> rfl
  have hkey : startKey .json s b i = s.refuse b .objectKey := by
    rcases hb with hb | hb <;> rw [startKey, hb, hnote] <;> rfl
  cases place with
  | start => exact ⟨_, hvalue s _⟩
  | finish => exact ⟨_, rfl⟩
  | objectStart | objectKey =>
    refine ⟨_, Eq.trans ?_ hkey⟩
    rcases hb with hb | hb <;> rw [token.eq_def, hb] <;> rfl
  | arrayStart | arrayItem =>
    refine ⟨_, Eq.trans ?_ (hvalue (s.begin .arrayItem i) .arrayNext)⟩
    rcases hb with hb | hb <;> rw [token.eq_def, hb] <;> rfl
  | objectNext =>
    refine ⟨_, show _ = s.refuse b .commaOrBrace from ?_⟩
    rcases hb with hb | hb <;> rw [token.eq_def, hb] <;> rfl
  | arrayNext =>
    refine ⟨_, show _ = s.refuse b .commaOrBracket from ?_⟩
    rcases hb with hb | hb <;> rw [token.eq_def, hb] <;> rfl
  | objectColon | objectValue | afterRules => cases hplace

theorem visit_parts (s : State) (place : Place) : Parts (s.visit .json place b i) (s.visit {} place b i) := by
  unfold visit
  split
  · exact .same rfl
  rw [if_neg (by simp)]
  split
  · next hallows =>
    simp only [Bool.and_eq_true, Bool.not_eq_true'] at hallows
    obtain ⟨⟨-, hnote⟩, hplace⟩ := hallows
    unfold commentMode?
    split
    · next mode hmode =>
      split at hmode
      · next hb =>
        obtain rfl := Option.some.inj hmode
        exact .apart (token_json_eq_error hnote hplace (Or.inl hb)) ⟨_, rfl, Or.inl rfl⟩
      · next hb =>
        obtain rfl := Option.some.inj hmode
        exact .apart (token_json_eq_error hnote hplace (Or.inr hb)) ⟨_, rfl, Or.inr (Or.inl rfl)⟩
      · cases hmode
    · exact token_parts s place
  · exact token_parts s place

/-- **A byte of plain JSON is read alike** in the whole notation, and it leaves plain JSON if something begins with it
that plain JSON does not have. -/
theorem feed_parts (hmode : s.mode ≠ .done) (b : UInt8) (i : Nat) : Parts (s.feed .json b i) (s.feed {} b i) :=
  Relates.feed ⟨fun _ => .same rfl, fun _ => .bind, fun _ => visit_parts _ _⟩ hmode

end State

/-! ## Texts -/

variable {o : Options} {text : Bytes}

/-- The states that a scan of the rest of a text passes through, before the end of the text. -/
def passed (o : Options) (s : State) (i : Nat) : Bytes → List State
  | [] => [s]
  | b :: rest =>
    match s.feed o b i with
    | .ok next => s :: passed o next (i + 1) rest
    | .error _ => [s]

theorem mem_passed_self (o : Options) (s : State) (i : Nat) (text : Bytes) : s ∈ passed o s i text := by
  cases text with
  | nil => exact List.mem_singleton_self s
  | cons b rest =>
    rw [passed]
    split
    · exact List.mem_cons_self
    · exact List.mem_singleton_self s

/-- **Plain JSON is read alike** in the whole notation. -/
theorem run_eq_of_json (h : (run .json s i text).2 = none) : run {} s i text = run .json s i text := by
  induction text generalizing s i with
  | nil => rfl
  | cons b rest ih =>
    rw [run] at h ⊢
    rw [run]
    split at h
    · next hdone => rw [if_pos hdone, if_pos hdone]
    next hmode =>
    rw [if_neg hmode, if_neg hmode]
    cases State.feed_parts hmode b i with
    | same heq =>
      rw [heq] at h ⊢
      cases hfeed : s.feed {} b i with
      | ok next =>
        rw [hfeed] at h
        exact ih h
      | error cause => rfl
    | apart hjson =>
      obtain ⟨cause, hjson⟩ := hjson
      rw [hjson] at h
      cases h

/-- A slash leads to a note, or to a failure. -/
theorem exists_note_of_commentStart (h : Sound past i s) (hmode : s.mode = .commentStart)
    (hrun : (run {} s i text).2 = none) : ∃ e ∈ (run {} s i text).1.emitted, e.kind.isPlain = false := by
  cases text with
  | nil =>
    rw [run, State.conclude, hmode] at hrun
    cases hrun
  | cons b rest =>
    have hsound := State.feed_goes {} b h
    rw [run, if_neg (by rw [hmode]; decide)] at hrun ⊢
    cases hfeed : s.feed {} b i with
    | error cause =>
      rw [hfeed] at hrun
      cases hrun
    | ok next =>
      rw [hfeed] at hsound
      have hbegun : ∃ e ∈ next.emitted, e.kind.isPlain = false := by
        rw [State.feed, hmode] at hfeed
        change s.feedCommentStart b i = _ at hfeed
        unfold State.feedCommentStart at hfeed
        split at hfeed
        · cases hfeed
          exact ⟨_, List.mem_cons_self, rfl⟩
        · cases hfeed
          exact ⟨_, List.mem_cons_self, rfl⟩
        · cases hfeed
      obtain ⟨e, he, hplain⟩ := hbegun
      exact ⟨e, (Sound.emitted_suffix_run hsound {} rest).subset he, hplain⟩

/-- Nothing has begun that plain JSON does not have, if the rest of the text ends well without any event of it and
without a comment. -/
theorem not_isExtended (h : Sound past i s) (hrun : (run {} s i text).2 = none)
    (hplain : Event.ArePlain (run {} s i text).1.emitted) (hcomment : s.mode.isComment = false) : ¬ s.IsExtended := by
  have hnone : ¬ ∃ e ∈ (run {} s i text).1.emitted, e.kind.isPlain = false := by
    rintro ⟨e, he, hkind⟩
    rw [hplain e he] at hkind
    cases hkind
  rintro (hmode | hmode | ⟨e, he, hkind⟩)
  · rw [hmode] at hcomment
    cases hcomment
  · exact hnone (exists_note_of_commentStart h hmode hrun)
  · exact hnone ⟨e, (h.emitted_suffix_run {} text).subset he, hkind⟩

/-- **What is read in the whole notation is plain JSON** if it ends well without any event of notes and shortcuts, and
without a comment. -/
theorem run_json_eq (h : Sound past i s) (hrun : (run {} s i text).2 = none)
    (hplain : Event.ArePlain (run {} s i text).1.emitted)
    (hcomment : ∀ state ∈ passed {} s i text, state.mode.isComment = false) : run .json s i text = run {} s i text := by
  induction text generalizing past s i with
  | nil => rfl
  | cons b rest ih =>
    have hsound := State.feed_goes {} b h
    rw [run] at hrun hplain ⊢
    rw [run]
    split at hrun
    · next hdone => rw [if_pos hdone, if_pos hdone]
    next hmode =>
    rw [if_neg hmode] at hplain ⊢
    rw [if_neg hmode]
    rw [passed] at hcomment
    cases hfeed : s.feed {} b i with
    | error cause =>
      rw [hfeed] at hrun
      cases hrun
    | ok next =>
      rw [hfeed] at hrun hplain hcomment hsound
      have hrest := (List.forall_mem_cons.1 hcomment).2
      cases State.feed_parts hmode b i with
      | same heq =>
        rw [heq, hfeed]
        exact ih hsound hrun hplain hrest
      | apart _ hwhole =>
        obtain ⟨next', hnext, hextended⟩ := hwhole
        obtain rfl := Except.ok.inj (hfeed.symm.trans hnext)
        exact (not_isExtended hsound hrun hplain (hrest _ (mem_passed_self ..)) hextended).elim

/-- **The notation extends plain JSON and changes nothing about it.**  What is read as plain JSON is read in the whole
notation with the same events.  What is read in the whole notation without any event of a note, of a key or of a value
that is a shortcut, and without passing through a comment, is read as plain JSON with the same events. -/
theorem read_extends_json (text : Bytes) (events : List Event) :
    (read .json text = ⟨events, none⟩ → read {} text = ⟨events, none⟩) ∧
    (read {} text = ⟨events, none⟩ → Event.ArePlain events →
      (∀ s ∈ passed {} {} 0 text, s.mode.isComment = false) → read .json text = ⟨events, none⟩) := by
  constructor
  · intro h
    have hrun : (run .json {} 0 text).2 = none := congrArg Reading.failure h
    rw [← h, read, read, run_eq_of_json hrun]
  · intro h hplain hcomment
    have hrun : (run {} {} 0 text).2 = none := congrArg Reading.failure h
    have hevents : (run {} {} 0 text).1.events = events := congrArg Reading.events h
    have hplain : Event.ArePlain (run {} {} 0 text).1.emitted := fun e he =>
      hplain e (hevents ▸ List.mem_reverse.2 he)
    rw [← h, read, read, run_json_eq sound_start hrun hplain hcomment]

/-- What would begin a note, a comment or a shortcut, in strings and names. -/
def signsInStrings : Bytes := Bytes.ofString "\x7b\"@a\": [\"#\", \"//\"]\x7d\n"

/-- In strings and names the signs begin nothing, and the text is plain JSON. -/
theorem signsInStrings_isJson :
    (read {} signsInStrings).failure = none ∧ Event.ArePlain (read {} signsInStrings).events ∧
      (∀ s ∈ passed {} {} 0 signsInStrings, s.mode.isComment = false) ∧
      read .json signsInStrings = read {} signsInStrings := by
  have hread : read {} signsInStrings = ⟨(read {} signsInStrings).events, none⟩ := by rfl
  have hplain : Event.ArePlain (read {} signsInStrings).events := by unfold Event.ArePlain; decide +kernel
  have hcomment : ∀ s ∈ passed {} {} 0 signsInStrings, s.mode.isComment = false := by decide +kernel
  exact ⟨by rfl, hplain, hcomment, ((read_extends_json signsInStrings _).2 hread hplain hcomment).trans hread.symm⟩

end Scan
end ExampleSchema
