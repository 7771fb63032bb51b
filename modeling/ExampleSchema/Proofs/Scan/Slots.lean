import ExampleSchema.Proofs.Scan.Step

/-!
# What the events of a scan fill

Whoever builds something from the events of a document keeps a stack of what is still to be filled: the
objects and arrays that are open, and the note that is being read.  `Slot.take` is what such a stack has to
go through with one event.  It has no answer to an end without a beginning, to a property without a name
and to a note inside of a note.

No scan asks for such an answer, not even one that fails later: what is on the stack can be told from what
is being read and the places to resume.

* `Mode.slots`: what is being filled, as told from the state.
* `State.feed_keeps`, `State.conclude_keeps`: a byte keeps this, and so does the end of the document.
* `exists_takeAll_read`: the events of a scan can all be taken.
* `foldMarks_meets`: from one event to a fold over all events of a document.
-/

namespace ExampleSchema
namespace Scan

/-! ## Stacks -/

/-- Something that is being filled. -/
inductive Slot where
  /-- An object, which may have the name of its next property. -/
  | object (isNamed : Bool)
  | array
  | note
  deriving DecidableEq

namespace Slot

/-- A value is put where it belongs.  An object uses up a name. -/
def fill : List Slot → Option (List Slot)
  | .object false :: _ => none
  | .object true :: rest => some (.object false :: rest)
  | slots => some slots

/-- What is being filled after an event. -/
def take (slots : List Slot) (kind : EventKind) : Option (List Slot) :=
  match kind, slots with
  | .opening .object, slots => some (.object false :: slots)
  | .opening .array, slots => some (.array :: slots)
  | .opening .inlineNote, slots | .opening .blockNote, slots =>
    if .note ∈ slots then none else some (.note :: slots)
  | .closing .objectKey, .object _ :: rest => some (.object true :: rest)
  | .closing .literal, slots | .closing .mixedValue, slots | .closing .typesShortcut, slots => fill slots
  | .closing .object, .object _ :: rest | .closing .array, .array :: rest => fill rest
  | .closing .inlineNote, .note :: rest | .closing .blockNote, .note :: rest => some rest
  | .closing .objectKey, _ | .closing .object, _ | .closing .array, _ | .closing .inlineNote, _
  | .closing .blockNote, _ => none
  | _, slots => some slots

/-- What is being filled after some events. -/
def takeAll (events : List Event) : Option (List Slot) :=
  events.foldlM (fun slots e => take slots e.kind) []

theorem takeAll_append_singleton {events : List Event} {slots : List Slot}
    (h : takeAll events = some slots) (e : Event) : takeAll (events ++ [e]) = take slots e.kind := by
  rw [takeAll, List.foldlM_append]
  change (takeAll events >>= _) = _
  rw [h]
  exact bind_pure (take slots e.kind)

end Slot

/-! ## Places -/

/-- The container that is being filled at a place of it. -/
def Place.slot (place : Place) : Slot :=
  if place.container? = some .array then .array else .object place.followsName

/-- What is being filled at a place with some places to resume.  The value or the name that ends before a
place to resume is not there yet, whereas a note interrupts the place itself. -/
def slotsAt : Place → List Place → List Slot
  | .start, _ | .finish, _ => []
  | .afterRules _, [] => [.note]
  | .afterRules _, next :: rest => .note :: slotsAt next rest
  | place, [] => [place.slot]
  | place, next :: rest => place.slot :: slotsAt next.before rest

/-- What is being filled when the innermost of some places is resumed. -/
def slotsOf : List Place → List Slot
  | [] => []
  | place :: rest => slotsAt place rest

/-- What is being filled while the value or the name is read that ends before the innermost of some
places. -/
def slotsBefore : List Place → List Slot
  | [] => []
  | place :: rest => slotsAt place.before rest

/-- What is being filled while something is read, with some places to resume. -/
def Mode.slots (mode : Mode) (places : List Place) : List Slot :=
  match mode with
  | .between place => slotsAt place places
  | .done => []
  | .string | .escape | .unicode _ | .number _ | .keyword _ _ _ | .shortcut _ | .ruleName | .keyMark
  | .keyName => slotsBefore places
  | .commentStart | .hashes _ | .lineComment | .blockComment _ => slotsOf places
  | .inlineStart | .inlineDash | .inlineText | .blockStart | .blockStartStar | .blockDash
  | .blockText | .blockTextStar | .blockAfterRulesStar => .note :: slotsOf places

@[simp] theorem slotsAt_finish (places : List Place) : slotsAt .finish places = [] := by
  cases places <;> rfl

theorem slotsAt_afterRules (kind : NoteKind) (places : List Place) :
    slotsAt (.afterRules kind) places = .note :: slotsOf places := by
  cases places <;> rfl

theorem slotsAt_of_container {place : Place} {c : Construct} (h : place.container? = some c)
    (places : List Place) : slotsAt place places = place.slot :: slotsBefore places := by
  cases place <;> cases h <;> cases places <;> rfl

/-- A value that ends before a place is put where it belongs. -/
theorem fill_slotsAt_before {next : Place} (h : next.followsValue = true) (rest : List Place) :
    Slot.fill (slotsAt next.before rest) = some (slotsAt next rest) := by
  cases next with
  | finish | objectNext | arrayNext | afterRules => cases rest <;> rfl
  | _ => cases h

theorem note_mem_slotsAt_before {next : Place} {rest : List Place} :
    Slot.note ∈ slotsAt next.before rest ↔ Slot.note ∈ slotsAt next rest := by
  cases next with
  | finish => cases rest <;> rfl
  | objectColon | objectNext | arrayNext =>
    rw [Place.before, slotsAt_of_container rfl, slotsAt_of_container rfl]
    simp [Place.slot, Place.container?]
  | _ => rfl

/-- A note is being filled only while one is open. -/
theorem Nested.isInNote_of_note_mem {places : List Place} {opened : List Construct}
    (h : Nested places opened) (hnote : Slot.note ∈ slotsOf places) : IsInNote opened := by
  induction h with
  | start | finish => cases hnote
  | @inside place next container places opened hplace hnext _ ih =>
    rw [slotsOf, slotsAt_of_container hplace, slotsBefore] at hnote
    have hslot : Slot.note ≠ place.slot := by
      rw [Place.slot]
      split <;> nofun
    have hrest := (List.mem_cons.1 hnote).resolve_left hslot
    obtain ⟨c, hc, hkind⟩ := ih (note_mem_slotsAt_before.1 hrest)
    exact ⟨c, List.mem_cons_of_mem _ (List.mem_append_right _ hc), hkind⟩
  | @afterRules kind places opened _ _ ih =>
    exact ⟨kind.construct, List.mem_cons_self .., by cases kind <;> rfl⟩

namespace State

variable {s : State} {o : Options} {b : UInt8} {i : Nat} {slots slots' : List Slot}

/-! ## States -/

/-- What is being filled after the events of the state. -/
def HasSlots (s : State) (slots : List Slot) : Prop := Slot.takeAll s.events = some slots

/-- A step leads to a state whose events fill what can be told from it, if it leads on at all. -/
def Keeps (x : Verdict State) : Prop :=
  x.Meets (fun s => s.HasSlots (s.mode.slots s.resume)) fun _ => True

theorem HasSlots.emit (h : s.HasSlots slots) {kind : EventKind}
    (htake : Slot.take slots kind = some slots') (start stop : Nat) :
    (s.emit kind start stop).HasSlots slots' := by
  have hevents : (s.emit kind start stop).events = s.events ++ [⟨kind, start, stop⟩] :=
    List.reverse_cons
  rw [HasSlots, hevents, Slot.takeAll_append_singleton h, htake]

theorem HasSlots.begin (h : s.HasSlots slots) {c : Construct}
    (htake : Slot.take slots (.opening c) = some slots') (start : Nat) :
    (s.begin c start).HasSlots slots' := h.emit htake start start

/-- The innermost construct is closed. -/
theorem HasSlots.close (h : s.HasSlots slots) {c : Construct} {outer : List Construct}
    (hopened : s.constructs = c :: outer) (htake : Slot.take slots (.closing c) = some slots')
    (stop : Nat) : (s.close stop).Meets
      (fun s' => s'.HasSlots slots' ∧ s'.resume = s.resume ∧ s'.constructs = outer) fun _ => True := by
  obtain ⟨⟨c, start⟩, rest, hs, rfl, rfl⟩ := List.map_eq_cons_iff.1 hopened
  rw [State.close, hs]
  exact ⟨@HasSlots.emit { s with opened := rest } _ _ h _ htake _ _, rfl, rfl⟩

/-- What is open after a value or a name is open still when its end is noted. -/
theorem settle_meets {places : List Place} {outer : List Construct}
    (h : s.HasSlots slots ∧ s.resume = places ∧ s.constructs = outer) (stop : Nat) :
    (s.settle stop).HasSlots slots ∧ (s.settle stop).resume = places ∧
      (s.settle stop).constructs = outer := by
  rw [settle]
  split <;> exact h

/-- What wraps a value or a name ends with it. -/
def WrapperTakes (wrapper : List Construct) (slots slots' : List Slot) : Prop :=
  wrapper = [] ∧ slots = slots' ∨
    ∃ w : Construct, wrapper = [w] ∧ w.isWrapper = true ∧ Slot.take slots (.closing w) = some slots'

/-- What was opened last ends, with what wraps it. -/
theorem HasSlots.endValue (h : s.HasSlots slots) {c : Construct} {wrapper outer : List Construct}
    {places : List Place} {middle : List Slot} (hopened : s.constructs = c :: (wrapper ++ outer))
    (hnested : Nested places outer) (htake : Slot.take slots (.closing c) = some middle)
    (hwrapper : WrapperTakes wrapper middle slots') (stop : Nat) :
    (s.endValue stop).Meets
      (fun s' => s'.HasSlots slots' ∧ s'.resume = s.resume ∧ s'.constructs = outer) fun _ => True := by
  refine Except.Meets.bind (h.close hopened htake stop) fun s₁ h₁ => ?_
  obtain ⟨hslots, hresume, hopened₁⟩ := h₁
  rcases hwrapper with ⟨rfl, rfl⟩ | ⟨w, rfl, hw, htake'⟩
  · have hnested₁ : Nested places s₁.constructs := hopened₁ ▸ hnested
    rw [closeIf_isWrapper_eq hnested₁]
    exact settle_meets ⟨hslots, hresume, hopened₁⟩ stop
  · rw [closeIf_eq hopened₁, if_pos hw]
    refine Except.Meets.bind (hslots.close hopened₁ htake' stop) fun s₂ h₂ => ?_
    obtain ⟨hslots₂, hresume₂, hopened₂⟩ := h₂
    exact settle_meets ⟨hslots₂, hresume₂.trans hresume, hopened₂⟩ stop

/-! ## Values, names and notes that end -/

/-- What was opened last can end, and what is filled then fits the places to resume. -/
def MayEnd (s : State) : Prop :=
  ∀ stop, (s.endValue stop).Meets (fun s' => s'.HasSlots (slotsOf s.resume) ∧ s'.resume = s.resume ∧
    Nested s.resume s'.constructs) fun _ => True

theorem mayEnd {c : Construct} {wrapper outer : List Construct} {middle : List Slot}
    (h : s.HasSlots slots) (hopened : s.constructs = c :: (wrapper ++ outer))
    (hnested : Nested s.resume outer) (htake : Slot.take slots (.closing c) = some middle)
    (hwrapper : WrapperTakes wrapper middle (slotsOf s.resume)) : MayEnd s := by
  intro stop
  refine (h.endValue hopened hnested htake hwrapper stop).imp ?_ fun _ => id
  rintro s' ⟨hslots, hresume, hopened'⟩
  exact ⟨hslots, hresume, hopened' ▸ hnested⟩

/-- What wraps a value has nothing to do with what is filled. -/
theorem wrapperTakes_of_followsValue {next : Place} (h : next.followsValue = true)
    (slots : List Slot) : WrapperTakes next.wrapper slots slots := by
  cases next with
  | finish | afterRules => exact Or.inl ⟨rfl, rfl⟩
  | objectNext | arrayNext => exact Or.inr ⟨_, rfl, rfl, rfl⟩
  | _ => cases h

/-- A value without parts can end. -/
theorem mayEnd_of_readsValue {c : Construct} (hreads : ReadsValue c s.resume s.constructs)
    (hc : ∀ slots, Slot.take slots (.closing c) = Slot.fill slots)
    (h : s.HasSlots (slotsBefore s.resume)) : MayEnd s := by
  obtain ⟨next, rest, outer, hresume, hopened, hnext, hnested⟩ := hreads
  refine mayEnd h hopened hnested ?_ (wrapperTakes_of_followsValue hnext _)
  rw [hc, hresume]
  exact fill_slotsAt_before hnext rest

/-- A name can end, which may be that of a type. -/
theorem mayEnd_of_readsKey {inside : List Construct} (hreads : ReadsKey inside s.resume s.constructs)
    (hinside : inside = [] ∨ inside = [.keyShortcut]) (h : s.HasSlots (slotsBefore s.resume)) :
    MayEnd s := by
  obtain ⟨rest, outer, hresume, hopened, hnested⟩ := hreads
  rw [hresume, slotsBefore, Place.before, slotsAt_of_container rfl] at h
  have hslots : slotsOf s.resume = .object true :: slotsBefore rest := by
    rw [hresume, slotsOf, slotsAt_of_container rfl]
    rfl
  rcases hinside with rfl | rfl
  · exact @mayEnd _ _ .objectKey [] outer _ h hopened hnested rfl (Or.inl ⟨rfl, hslots.symm⟩)
  · exact @mayEnd _ _ .keyShortcut [.objectKey] outer _ h hopened hnested rfl
      (Or.inr ⟨_, rfl, rfl, by rw [hslots]; rfl⟩)

/-- A container can end. -/
theorem mayEnd_of_container {place : Place} {c : Construct} (hplace : place.container? = some c)
    (hnested : Nested (place :: s.resume) s.constructs)
    (h : s.HasSlots (slotsAt place s.resume)) : MayEnd s := by
  rw [slotsAt_of_container hplace] at h
  generalize hopened : s.constructs = opened at hnested
  generalize hresume : s.resume = places at hnested h
  cases hnested with
  | start | finish | afterRules => cases hplace
  | @inside _ next container rest outer hcontainer hnext hrest =>
    have htake : Slot.take (place.slot :: slotsAt next.before rest) (.closing container) =
        some (slotsAt next rest) := by
      rw [← fill_slotsAt_before hnext rest]
      cases place <;> cases hcontainer <;> rfl
    exact mayEnd h hopened (hresume ▸ hrest) (by rw [hresume]; exact htake) (wrapperTakes_of_followsValue hnext _)

theorem resumeNext_keeps (h : s.HasSlots (slotsOf s.resume)) : Keeps s.resumeNext := by
  unfold resumeNext
  split
  · trivial
  · next place rest hresume =>
    rw [hresume] at h
    exact h

theorem finishValue_keeps (h : MayEnd s) (stop : Nat) : Keeps (s.finishValue stop) := by
  refine Except.Meets.bind (h stop) fun s₁ h₁ => ?_
  obtain ⟨hslots, hresume, -⟩ := h₁
  exact resumeNext_keeps (hresume ▸ hslots)

/-- The open note ends, with its text if it has one. -/
theorem closeNote_meets {kind : NoteKind} {inside : List Construct} {places : List Place}
    (hnote : ReadsNote kind inside places s.constructs)
    (hinside : inside = [] ∨ inside = [kind.textConstruct])
    (h : s.HasSlots (.note :: slots)) (stop : Nat) :
    (s.closeNote stop).Meets (fun s' => s'.HasSlots slots ∧ s'.resume = s.resume ∧
      ReadsComment places s'.constructs) fun _ => True := by
  obtain ⟨outer, hopened, hcomment⟩ := hnote
  have hclose {s₁ : State} (h₁ : s₁.HasSlots (.note :: slots)) (hresume₁ : s₁.resume = s.resume)
      (hopened₁ : s₁.constructs = kind.construct :: outer) :
      Except.Meets (do let s₂ ← s₁.close stop; return s₂.settle stop : Verdict State)
        (fun s' => s'.HasSlots slots ∧ s'.resume = s.resume ∧ ReadsComment places s'.constructs)
        fun _ => True := by
    have htake : Slot.take (.note :: slots) (.closing kind.construct) = some slots := by
      cases kind <;> rfl
    refine Except.Meets.bind (h₁.close hopened₁ htake stop) fun s₂ h₂ => ?_
    obtain ⟨hslots, hresume, hopened₂⟩ := settle_meets h₂ stop
    exact ⟨hslots, hresume.trans hresume₁, hopened₂ ▸ hcomment⟩
  rcases hinside with rfl | rfl
  · have htext : Construct.isNoteText kind.construct = false := by cases kind <;> rfl
    rw [closeNote, closeIf_eq hopened, htext]
    exact hclose h rfl hopened
  · have htext : Construct.isNoteText kind.textConstruct = true := by cases kind <;> rfl
    have htake : Slot.take (.note :: slots) (.closing kind.textConstruct) = some (.note :: slots) := by
      cases kind <;> rfl
    rw [closeNote, closeIf_eq hopened, if_pos htext]
    refine Except.Meets.bind (h.close hopened htake s.textEnd) fun s₁ h₁ => ?_
    exact hclose h₁.1 h₁.2.1 h₁.2.2

theorem finishNote_keeps {kind : NoteKind} {inside : List Construct}
    (hnote : ReadsNote kind inside s.resume s.constructs)
    (hinside : inside = [] ∨ inside = [kind.textConstruct])
    (h : s.HasSlots (.note :: slotsOf s.resume)) (stop : Nat) : Keeps (s.finishNote stop) := by
  refine Except.Meets.bind (closeNote_meets hnote hinside h stop) fun s₁ h₁ => ?_
  obtain ⟨hslots, hresume, -⟩ := h₁
  exact resumeNext_keeps (hresume ▸ hslots)

/-! ## Between tokens -/

theorem skipBlank_keeps {place : Place} (hmode : s.mode = .between place)
    (h : s.HasSlots (slotsAt place s.resume)) : Keeps (s.skipBlank b i) := by
  have hstay : s.HasSlots (s.mode.slots s.resume) := by
    rw [hmode]
    exact h
  rw [skipBlank]
  split
  · split
    · exact hstay.emit rfl i (i + 1)
    · exact hstay
    · trivial
  · exact hstay

theorem openContainer_keeps {construct : Construct} {inside next : Place}
    (htake : Slot.take (slotsAt next.before s.resume) (.opening construct) =
      some (slotsAt inside (next :: s.resume)))
    (h : s.HasSlots (slotsAt next.before s.resume)) :
    Keeps (s.openContainer construct inside next i) := by
  rw [openContainer]
  split
  · exact h.begin htake i
  · trivial

/-- A value begins where the one that ends before the next place begins. -/
theorem startValue_keeps {next : Place} (h : s.HasSlots (slotsAt next.before s.resume)) :
    Keeps (startValue o s next b i) := by
  have hliteral : (s.begin .literal i).HasSlots (slotsAt next.before s.resume) := h.begin rfl i
  unfold startValue
  split
  · exact openContainer_keeps rfl h
  · exact openContainer_keeps rfl h
  iterate 6 exact hliteral
  split
  · exact hliteral
  split
  · split
    · exact h.begin rfl i
    · exact h.begin rfl i
  · trivial

/-- A name begins. -/
theorem startKey_keeps (h : s.HasSlots (slotsAt .objectKey s.resume)) : Keeps (startKey o s b i) := by
  have hkey : (s.begin .objectKey i).HasSlots (slotsAt .objectKey s.resume) := h.begin rfl i
  unfold startKey
  split
  · exact hkey
  split
  · split
    · trivial
    split
    · exact hkey
    · trivial
  split
  · exact hkey.begin rfl i
  · trivial

/-- The document ends, and nothing is filled any more. -/
theorem stop_keeps {places : List Place} (h : s.HasSlots (slotsAt .finish places)) :
    Keeps (.ok s.stop) := by
  rw [slotsAt_finish] at h
  exact @HasSlots.emit { s with mode := .done } _ _ h _ rfl s.valueEnd s.valueEnd

theorem token_keeps {place : Place} (hnested : Nested (place :: s.resume) s.constructs)
    (h : s.HasSlots (slotsAt place s.resume)) : Keeps (s.token o place b i) := by
  have hend {c : Construct} (hplace : place.container? = some c) : Keeps (s.finishValue (i + 1)) :=
    finishValue_keeps (mayEnd_of_container hplace hnested h) (i + 1)
  have hmove {place' : Place} {c : Construct} (hplace : place.container? = some c)
      (hplace' : place'.container? = some c) (hslot : place.slot = place'.slot) :
      s.HasSlots (slotsAt place' s.resume) := by
    rw [slotsAt_of_container hplace']
    rw [slotsAt_of_container hplace, hslot] at h
    exact h
  have hitem (hplace : place.container? = some .array) (hslot : place.slot = Place.arrayItem.slot) :
      Keeps (startValue o (s.begin .arrayItem i) .arrayNext b i) :=
    @startValue_keeps (s.begin .arrayItem i) _ _ _ .arrayNext ((hmove hplace rfl hslot).begin rfl i)
  unfold token
  split
  · exact @startValue_keeps _ _ _ _ .finish h
  · split
    · exact stop_keeps h
    · trivial
  · exact hend rfl
  · exact startKey_keeps (hmove rfl rfl rfl)
  · trivial
  · exact startKey_keeps h
  · exact hmove rfl rfl rfl
  · trivial
  · exact @startValue_keeps (s.begin .objectValue i) _ _ _ .objectNext (h.begin rfl i)
  · exact hmove rfl rfl rfl
  · exact hend rfl
  · trivial
  · exact hend rfl
  · exact hitem rfl rfl
  · trivial
  · exact hitem rfl rfl
  · exact hmove rfl rfl rfl
  · exact hend rfl
  · trivial
  · rw [slotsAt_afterRules] at h
    exact h
  · trivial
  · rw [slotsAt_afterRules] at h
    exact h
  · rw [slotsAt_afterRules] at h
    exact h
  · trivial

theorem visit_keeps {place : Place} (hmode : s.mode = .between place)
    (hnested : Nested (place :: s.resume) s.constructs)
    (h : s.HasSlots (slotsAt place s.resume)) : Keeps (s.visit o place b i) := by
  rw [visit]
  split
  · exact skipBlank_keeps hmode h
  split
  · unfold commentMode?
    split
    · next mode hcomment =>
      split at hcomment <;> cases hcomment <;> exact h
    · exact token_keeps hnested h
  · exact token_keeps hnested h

/-- Handing a byte to the places to resume. -/
theorem land_keeps {places : List Place} (hnested : Nested places s.constructs)
    (h : s.HasSlots (slotsOf places)) : Keeps (land o b i places s) := by
  induction places generalizing s with
  | nil => cases hnested
  | cons place rest ih =>
    rw [land]
    split
    · next hinline =>
      obtain ⟨rfl, -⟩ := hinline
      rw [slotsOf, slotsAt_afterRules] at h
      refine Except.Meets.bind (closeNote_meets hnested.readsNote (Or.inl rfl) h i) ?_
      rintro s₁ ⟨hslots, -, hcomment⟩
      exact ih hcomment.1 hslots
    · exact visit_keeps rfl hnested h

/-- Ending a value or name before a byte, which is handed on. -/
theorem endValue_land_keeps (h : MayEnd s) (stop : Nat) :
    Keeps (do land o b i s.resume (← s.endValue stop)) := by
  refine Except.Meets.bind (h stop) fun s₁ h₁ => ?_
  obtain ⟨hslots, -, hnested⟩ := h₁
  exact land_keeps hnested hslots

/-- Ending an inline note before the end of the line, which is handed on. -/
theorem closeNote_land_keeps {kind : NoteKind} {inside : List Construct}
    (hnote : ReadsNote kind inside s.resume s.constructs)
    (hinside : inside = [] ∨ inside = [kind.textConstruct])
    (h : s.HasSlots (.note :: slotsOf s.resume)) :
    Keeps (do land o b i s.resume (← s.closeNote i)) := by
  refine Except.Meets.bind (closeNote_meets hnote hinside h i) fun s₁ h₁ => ?_
  obtain ⟨hslots, -, hcomment⟩ := h₁
  exact land_keeps hcomment.1 hslots

/-! ## Inside tokens -/

theorem feedString_keeps (hmode : s.mode = .string) (hends : MayEnd s)
    (h : s.HasSlots (slotsBefore s.resume)) : Keeps (s.feedString b i) := by
  unfold feedString
  split
  · exact finishValue_keeps hends (i + 1)
  · exact h
  · split
    · trivial
    · change s.HasSlots (s.mode.slots s.resume)
      rw [hmode]
      exact h

theorem feedEscape_keeps (h : s.HasSlots (slotsBefore s.resume)) : Keeps (s.feedEscape b) := by
  unfold feedEscape
  split
  iterate 9 exact h
  trivial

theorem feedUnicode_keeps {digits : Nat} (h : s.HasSlots (slotsBefore s.resume)) :
    Keeps (s.feedUnicode digits b) := by
  unfold feedUnicode
  split
  · split <;> exact h
  · trivial

theorem feedNumber_keeps {part : NumberPart} (hends : MayEnd s)
    (h : s.HasSlots (slotsBefore s.resume)) : Keeps (s.feedNumber o part b i) := by
  unfold feedNumber
  split
  · exact h
  · trivial
  · exact endValue_land_keeps hends i

theorem feedKeyword_keeps {word : Keyword} {next : UInt8} {rest : Bytes} (hends : MayEnd s)
    (h : s.HasSlots (slotsBefore s.resume)) : Keeps (s.feedKeyword word next rest b i) := by
  unfold feedKeyword
  split
  · split
    · exact finishValue_keeps hends (i + 1)
    · exact h
  · trivial

/-- Reading a byte after a name, which ends with the shortcut unless a bar follows. -/
theorem afterName_keeps (hfits : (Mode.shortcut .name).Fits s.resume s.constructs)
    (h : s.HasSlots (slotsBefore s.resume)) : Keeps (feedShortcut.afterName o b i s) := by
  have hends : MayEnd s := hfits.elim (mayEnd_of_readsValue · (fun _ => rfl) h)
    (mayEnd_of_readsValue · (fun _ => rfl) h)
  unfold feedShortcut.afterName
  split
  · exact h
  split
  · exact h
  · exact endValue_land_keeps hends s.nameEnd

theorem feedShortcut_keeps {part : ShortcutPart} (hmode : s.mode = .shortcut part)
    (hfits : (Mode.shortcut part).Fits s.resume s.constructs)
    (h : s.HasSlots (slotsBefore s.resume)) : Keeps (s.feedShortcut o part b i) := by
  have hstay : s.HasSlots (s.mode.slots s.resume) := by
    rw [hmode]
    exact h
  unfold feedShortcut
  split
  · exact .ite h trivial
  · exact .ite hstay (@afterName_keeps { s with nameEnd := i } _ _ _ hfits h)
  · exact afterName_keeps hfits h
  · exact .ite hstay (.ite h trivial)

theorem feedName_keeps (hmode : s.mode = .ruleName ∨ s.mode = .keyName) (hends : MayEnd s)
    (h : s.HasSlots (slotsBefore s.resume)) : Keeps (s.feedName o b i) := by
  unfold feedName
  split
  · change s.HasSlots (s.mode.slots s.resume)
    rcases hmode with hmode | hmode <;> rw [hmode] <;> exact h
  · exact endValue_land_keeps hends i

theorem feedKeyMark_keeps (h : s.HasSlots (slotsBefore s.resume)) : Keeps (s.feedKeyMark b) := by
  unfold feedKeyMark
  split
  · exact h
  · trivial

/-! ## Inside comments -/

/-- A note begins, and no other one is open. -/
theorem feedCommentStart_keeps (hcomment : ReadsComment s.resume s.constructs)
    (h : s.HasSlots (slotsOf s.resume)) : Keeps (s.feedCommentStart b i) := by
  have hfree : Slot.note ∉ slotsOf s.resume := fun hnote =>
    hcomment.2 (hcomment.1.isInNote_of_note_mem hnote)
  unfold feedCommentStart
  split
  · exact @HasSlots.begin _ _ (.note :: slotsOf s.resume) h .inlineNote (if_neg hfree) (i - 1)
  · exact @HasSlots.begin _ _ (.note :: slotsOf s.resume) h .blockNote (if_neg hfree) (i - 1)
  · trivial

theorem feedLineComment_keeps (hcomment : ReadsComment s.resume s.constructs)
    (h : s.HasSlots (slotsOf s.resume)) : Keeps (s.feedLineComment o b i) := by
  unfold feedLineComment
  split
  · exact land_keeps hcomment.1 h
  · exact h

theorem feedBlockComment_keeps {count : Nat} (h : s.HasSlots (slotsOf s.resume)) :
    Keeps (s.feedBlockComment count b i) := by
  unfold feedBlockComment
  split
  · split
    · exact resumeNext_keeps h
    · exact h
  · exact h.emit rfl i (i + 1)
  · exact h

theorem feedHashes_keeps {count : Nat} (hcomment : ReadsComment s.resume s.constructs)
    (h : s.HasSlots (slotsOf s.resume)) : Keeps (s.feedHashes o count b i) := by
  unfold feedHashes
  split
  · exact h
  split
  · exact feedBlockComment_keeps h
  · exact feedLineComment_keeps hcomment h

/-! ## Inside notes -/

theorem beginText_hasSlots (h : s.HasSlots slots) (kind : NoteKind) (start : Nat) :
    (s.beginText kind start).HasSlots slots := by
  cases kind <;> exact h.begin rfl start

theorem feedInline_keeps {inside : List Construct}
    (hnote : ReadsNote .inline inside s.resume s.constructs)
    (hmode : (s.mode = .inlineStart ∨ s.mode = .inlineDash) ∧ inside = [] ∨
      s.mode = .inlineText ∧ inside = [.inlineNoteText])
    (h : s.HasSlots (.note :: slotsOf s.resume)) : Keeps (s.feedInline o b i) := by
  have hstay : s.HasSlots (s.mode.slots s.resume) := by
    rcases hmode with ⟨hmode | hmode, -⟩ | ⟨hmode, -⟩ <;> rw [hmode] <;> exact h
  unfold feedInline
  split
  · exact closeNote_land_keeps hnote (hmode.imp And.right And.right) h
  · split
    · exact h
    · rw [← slotsAt_afterRules .inline] at h
      exact openContainer_keeps rfl h
    · exact h
    · exact .ite hstay (beginText_hasSlots h .inline i)

theorem feedBlockText_keeps (h : s.HasSlots (.note :: slotsOf s.resume)) :
    Keeps (.ok (s.feedBlockText b i)) := by
  unfold feedBlockText
  split <;> exact h

theorem feedBlockTextStar_keeps (hmode : s.mode = .blockTextStar)
    (hnote : ReadsNote .block [.blockNoteText] s.resume s.constructs)
    (h : s.HasSlots (.note :: slotsOf s.resume)) : Keeps (s.feedBlockTextStar b i) := by
  unfold feedBlockTextStar
  split
  · exact finishNote_keeps hnote (Or.inr rfl) h (i + 1)
  · change s.HasSlots (s.mode.slots s.resume)
    rw [hmode]
    exact h
  · exact @feedBlockText_keeps { s with textEnd := i } _ _ h

theorem feedBlockStartStar_keeps (hnote : ReadsNote .block [] s.resume s.constructs)
    (h : s.HasSlots (.note :: slotsOf s.resume)) : Keeps (s.feedBlockStartStar b i) := by
  unfold feedBlockStartStar
  split
  · exact finishNote_keeps hnote (Or.inl rfl) h (i + 1)
  · exact @feedBlockText_keeps { s.beginText .block (i - 1) with textEnd := i } _ _
      (beginText_hasSlots h .block (i - 1))

theorem feedBlockStart_keeps (hmode : s.mode = .blockStart ∨ s.mode = .blockDash)
    (h : s.HasSlots (.note :: slotsOf s.resume)) : Keeps (s.feedBlockStart b i) := by
  have hstay : s.HasSlots (s.mode.slots s.resume) := by
    rcases hmode with hmode | hmode <;> rw [hmode] <;> exact h
  unfold feedBlockStart
  split
  · rw [← slotsAt_afterRules .block] at h
    exact openContainer_keeps rfl h
  · exact h
  · exact h
  · exact .ite hstay (@feedBlockText_keeps (s.beginText .block i) _ _ (beginText_hasSlots h .block i))

theorem feedBlockAfterRulesStar_keeps (hnote : ReadsNote .block [] s.resume s.constructs)
    (h : s.HasSlots (.note :: slotsOf s.resume)) : Keeps (s.feedBlockAfterRulesStar b i) := by
  unfold feedBlockAfterRulesStar
  split
  · exact finishNote_keeps hnote (Or.inl rfl) h (i + 1)
  · trivial

/-! ## Every mode -/

/-- **A byte keeps that what is filled can be told from the state.** -/
theorem feed_keeps (o : Options) (b : UInt8) {past : List Event} (hsound : Sound past i s)
    (h : s.HasSlots (s.mode.slots s.resume)) : Keeps (s.feed o b i) := by
  cases hsound with
  | ended hmode =>
    rw [feed, hmode]
    exact h
  | running hfits =>
    unfold feed
    cases hmode : s.mode <;> rw [hmode] at hfits h
    case between place => exact land_keeps hfits h
    case done => exact hfits.elim
    case string =>
      refine feedString_keeps hmode ?_ h
      exact hfits.elim (mayEnd_of_readsValue · (fun _ => rfl) h) (mayEnd_of_readsKey · (Or.inl rfl) h)
    case escape => exact feedEscape_keeps h
    case unicode digits => exact feedUnicode_keeps h
    case number part => exact feedNumber_keeps (mayEnd_of_readsValue hfits (fun _ => rfl) h) h
    case keyword word next rest =>
      exact feedKeyword_keeps (mayEnd_of_readsValue hfits (fun _ => rfl) h) h
    case shortcut part => exact feedShortcut_keeps hmode hfits h
    case ruleName => exact feedName_keeps (Or.inl hmode) (mayEnd_of_readsKey hfits (Or.inl rfl) h) h
    case keyMark => exact feedKeyMark_keeps h
    case keyName => exact feedName_keeps (Or.inr hmode) (mayEnd_of_readsKey hfits (Or.inr rfl) h) h
    case commentStart => exact feedCommentStart_keeps hfits h
    case hashes count => exact feedHashes_keeps hfits h
    case lineComment => exact feedLineComment_keeps hfits h
    case blockComment count => exact feedBlockComment_keeps h
    case inlineStart => exact feedInline_keeps hfits (Or.inl ⟨Or.inl hmode, rfl⟩) h
    case inlineDash => exact feedInline_keeps hfits (Or.inl ⟨Or.inr hmode, rfl⟩) h
    case inlineText => exact feedInline_keeps hfits (Or.inr ⟨hmode, rfl⟩) h
    case blockStart => exact feedBlockStart_keeps (Or.inl hmode) h
    case blockStartStar => exact feedBlockStartStar_keeps hfits h
    case blockDash => exact feedBlockStart_keeps (Or.inr hmode) h
    case blockText => exact feedBlockText_keeps h
    case blockTextStar => exact feedBlockTextStar_keeps hmode hfits h
    case blockAfterRulesStar => exact feedBlockAfterRulesStar_keeps hfits h

/-! ## The end of the document -/

/-- Coming to the end of the document with some places to resume. -/
theorem land?_keeps {places : List Place} (hnested : Nested places s.constructs)
    (h : s.HasSlots (slotsOf places)) : Keeps (land? i places s) := by
  induction places generalizing s with
  | nil => cases hnested
  | cons place rest ih =>
    cases place with
    | finish => exact stop_keeps h
    | afterRules kind =>
      cases kind with
      | inline =>
        rw [slotsOf, slotsAt_afterRules] at h
        refine Except.Meets.bind (closeNote_meets hnested.readsNote (Or.inl rfl) h i) ?_
        rintro s₁ ⟨hslots, -, hcomment⟩
        exact ih hcomment.1 hslots
      | block => trivial
    | _ => trivial

theorem endValue_land?_keeps (h : MayEnd s) (stop : Nat) :
    Keeps (do land? i s.resume (← s.endValue stop)) := by
  refine Except.Meets.bind (h stop) fun s₁ h₁ => ?_
  obtain ⟨hslots, -, hnested⟩ := h₁
  exact land?_keeps hnested hslots

theorem closeNote_land?_keeps {kind : NoteKind} {inside : List Construct}
    (hnote : ReadsNote kind inside s.resume s.constructs)
    (hinside : inside = [] ∨ inside = [kind.textConstruct])
    (h : s.HasSlots (.note :: slotsOf s.resume)) :
    Keeps (do land? i s.resume (← s.closeNote i)) := by
  refine Except.Meets.bind (closeNote_meets hnote hinside h i) fun s₁ h₁ => ?_
  obtain ⟨hslots, -, hcomment⟩ := h₁
  exact land?_keeps hcomment.1 hslots

/-- **So does the end of the document.** -/
theorem conclude_keeps {past : List Event} (hsound : Sound past i s)
    (h : s.HasSlots (s.mode.slots s.resume)) : Keeps (s.conclude i) := by
  cases hsound with
  | ended hmode =>
    rw [conclude, hmode]
    exact h
  | running hfits =>
    unfold conclude
    cases hmode : s.mode <;> rw [hmode] at hfits h
    case between place => exact land?_keeps hfits h
    case done => exact hfits.elim
    case number part =>
      exact .ite (endValue_land?_keeps (mayEnd_of_readsValue hfits (fun _ => rfl) h) i) trivial
    case shortcut part =>
      have hends : MayEnd s := hfits.elim (mayEnd_of_readsValue · (fun _ => rfl) h)
        (mayEnd_of_readsValue · (fun _ => rfl) h)
      cases part with
      | name => exact endValue_land?_keeps hends i
      | afterName => exact endValue_land?_keeps hends s.nameEnd
      | mark | afterBar => trivial
    case hashes count => exact .ite trivial (land?_keeps hfits.1 h)
    case lineComment => exact land?_keeps hfits.1 h
    case inlineStart | inlineDash => exact closeNote_land?_keeps hfits (Or.inl rfl) h
    case inlineText => exact closeNote_land?_keeps hfits (Or.inr rfl) h
    all_goals trivial

end State

/-! ## Runs -/

/-- **Whatever a run reports can be taken**, whether or not it fails. -/
theorem run_hasSlots (o : Options) {past : List Event} {s : State} {i : Nat} {text : Bytes}
    (hsound : Sound past i s) (h : s.HasSlots (s.mode.slots s.resume)) :
    ∃ slots, (run o s i text).1.HasSlots slots := by
  induction text generalizing s i with
  | nil =>
    rw [run]
    cases hend : s.conclude i with
    | ok s' => exact ⟨_, (State.conclude_keeps hsound h).of_ok hend⟩
    | error cause => exact ⟨_, h⟩
  | cons b rest ih =>
    rw [run]
    split
    · exact ⟨_, h⟩
    · cases hfeed : s.feed o b i with
      | ok s' =>
        exact ih ((State.feed_goes o b hsound).of_ok hfeed) ((State.feed_keeps o b hsound h).of_ok hfeed)
      | error cause => exact ⟨_, h⟩

/-- The events of a scan can all be taken. -/
theorem exists_takeAll_read (o : Options) (text : Bytes) :
    ∃ slots, Slot.takeAll (read o text).events = some slots :=
  run_hasSlots o sound_start rfl

/-- **A fold over the events of a document** keeps that something suits what is filled, if each step does
that takes an event; and it fails for what a step or the scan fails for. -/
theorem foldMarks_meets {σ : Type} (o : Options) (source : Source) {step : σ → Mark → Outcome σ}
    {start : σ} {good : List Slot → σ → Prop} {bad : Problem → Prop} (hstart : good [] start)
    (hstep : ∀ slots slots' state, ∀ event ∈ (read o source.content).events, good slots state →
      Slot.take slots event.kind = some slots' →
      (step state ⟨source, event⟩).Meets (good slots') bad)
    (hscan : ∀ f, (read o source.content).failure = some f → bad (f.problem source)) :
    (foldMarks o source step start).Meets (fun state => ∃ slots, good slots state) bad := by
  obtain ⟨slots, htake⟩ := exists_takeAll_read o source.content
  have hall (events : List Event) (hevents : ∀ e ∈ events, e ∈ (read o source.content).events) :
      ∀ slots slots' state, good slots state →
      events.foldlM (fun slots e => Slot.take slots e.kind) slots = some slots' →
      (events.foldlM (fun state event => step state ⟨source, event⟩) state).Meets (good slots') bad := by
    induction events with
    | nil =>
      rintro slots slots' state hgood ⟨⟩
      exact hgood
    | cons event events ih =>
      intro slots slots' state hgood htake
      obtain ⟨hevent, hevents⟩ := List.forall_mem_cons.1 hevents
      rw [List.foldlM_cons] at htake ⊢
      obtain ⟨middle, hmiddle, htake⟩ := Option.bind_eq_some_iff.1 htake
      exact (hstep slots middle state event hevent hgood hmiddle).bind fun state' hgood' =>
        ih hevents middle slots' state' hgood' htake
  rw [foldMarks]
  refine (hall _ (fun _ => id) _ _ _ hstart htake).bind fun state hgood => ?_
  split
  · next failure hfailure => exact hscan failure hfailure
  · exact ⟨slots, hgood⟩

end Scan
end ExampleSchema
