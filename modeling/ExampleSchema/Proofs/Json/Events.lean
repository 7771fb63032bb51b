import ExampleSchema.Proofs.Json.Tokens

/-!
# The events of a JSON text

What a scan reports of a JSON text can be read off its tree.  `isPassed` goes past a value at any
place where one may start, whatever state the scan is in, and `read_document` past a whole text.  Nothing
in a plain text is read differently for any of the options, so these hold for all of them.
-/

namespace ExampleSchema

open Scan (wrapped)

/-- The line ends in a blank. -/
def blankEvents (start : Nat) : Bytes → List Event
  | [] => []
  | b :: rest =>
    (if Bytes.isNewLine b then [⟨.newLine, start, start + 1⟩] else []) ++ blankEvents (start + 1) rest

/-- The events of a construct around others. -/
def enclosed (c : Construct) (start stop : Nat) (events : List Event) : List Event :=
  ⟨.opening c, start, start⟩ :: (events ++ [⟨.closing c, start, stop⟩])

namespace Json

/-- The events of a colon. -/
def Colon.events (start : Nat) (colon : Colon) : List Event :=
  blankEvents start colon.before.1 ++
    blankEvents (start + colon.before.1.length + 1) colon.after.1

mutual

/-- The events of a value. -/
def events (start : Nat) : Json → List Event
  | literal token => enclosed .literal start (start + token.1.length) []
  | emptyArray blank =>
    enclosed .array start (start + (emptyArray blank).bytes.length) (blankEvents (start + 1) blank.1)
  | array items =>
    enclosed .array start (start + (array items).bytes.length) (items.events (start + 1))
  | emptyObject blank =>
    enclosed .object start (start + (emptyObject blank).bytes.length) (blankEvents (start + 1) blank.1)
  | object members =>
    enclosed .object start (start + (object members).bytes.length) (members.events (start + 1))

/-- The events between the brackets of an array. -/
def Items.events (start : Nat) : Items → List Event
  | .last before item after =>
    let itemStart := start + before.1.length
    let itemStop := itemStart + item.bytes.length
    blankEvents start before.1 ++
      (wrapped .arrayNext itemStart itemStop (item.events itemStart) ++ blankEvents itemStop after.1)
  | .more before item after rest =>
    let itemStart := start + before.1.length
    let itemStop := itemStart + item.bytes.length
    blankEvents start before.1 ++
      (wrapped .arrayNext itemStart itemStop (item.events itemStart) ++
        (blankEvents itemStop after.1 ++ rest.events (itemStop + after.1.length + 1)))

/-- The events between the brackets of an object. -/
def Members.events (start : Nat) : Members → List Event
  | .last before name colon value after =>
    let nameStart := start + before.1.length
    let nameStop := nameStart + name.1.length
    let valueStart := nameStop + colon.bytes.length
    let valueStop := valueStart + value.bytes.length
    blankEvents start before.1 ++
      (enclosed .objectKey nameStart nameStop [] ++
        (colon.events nameStop ++
          (wrapped .objectNext valueStart valueStop (value.events valueStart) ++
            blankEvents valueStop after.1)))
  | .more before name colon value after rest =>
    let nameStart := start + before.1.length
    let nameStop := nameStart + name.1.length
    let valueStart := nameStop + colon.bytes.length
    let valueStop := valueStart + value.bytes.length
    blankEvents start before.1 ++
      (enclosed .objectKey nameStart nameStop [] ++
        (colon.events nameStop ++
          (wrapped .objectNext valueStart valueStop (value.events valueStart) ++
            (blankEvents valueStop after.1 ++ rest.events (valueStop + after.1.length + 1)))))

end

/-- The events of a whole text. -/
def Document.events (t : Document) : List Event :=
  let stop := t.before.1.length + t.root.bytes.length
  blankEvents 0 t.before.1 ++
    (t.root.events t.before.1.length ++ (blankEvents stop t.after.1 ++ [⟨.endTop, stop, stop⟩]))

end Json

namespace Scan

variable {o : Options} {s : State} {p next : Place} {i : Nat} {rest : Bytes}

/-! ## Blanks -/

/-- **A blank is skipped**, its line ends reported. -/
theorem readFrom_blank {blank : Bytes} (hplace : s.At p) (hnote : p ≠ .afterRules .inline)
    (hblank : IsBlank blank) :
    readFrom o s i (blank ++ rest) =
      readFrom o (s.told (blankEvents i blank)) (i + blank.length) rest := by
  induction blank generalizing s i with
  | nil => rfl
  | cons b blank ih =>
    obtain ⟨hspace, hblank⟩ := List.forall_mem_cons.1 hblank
    have hfeed : s.feed o b i =
        .ok (s.told (if Bytes.isNewLine b then [⟨.newLine, i, i + 1⟩] else [])) := by
      rw [hplace.feed_eq hnote, State.visit, if_pos hspace, State.skipBlank, hplace.note]
      split <;> rfl
    rw [List.cons_append, readFrom_cons hplace.ne_done hfeed, ih (hplace.told _) hblank,
      ← State.told_append, List.length_cons, Nat.add_right_comm, Nat.add_assoc]
    rfl

/-! ## Places -/

/-- The place after a value that may start at a place. -/
def Place.afterValue? : Place → Option Place
  | .start => some .finish
  | .objectValue => some .objectNext
  | .arrayStart | .arrayItem => some .arrayNext
  | _ => none

/-- The kinds of containers. -/
inductive Container where
  | array
  | object

namespace Container

/-- What is reported of the container. -/
abbrev construct : Container → Construct
  | array => .array
  | object => .object

/-- The bracket before the parts. -/
abbrev opening : Container → Char
  | array => '['
  | object => '\x7b'

/-- The bracket after the parts. -/
abbrev closing : Container → Char
  | array => ']'
  | object => '\x7d'

/-- The place after the opening bracket. -/
abbrev afterOpening : Container → Place
  | array => .arrayStart
  | object => .objectStart

/-- The place after a comma. -/
abbrev afterComma : Container → Place
  | array => .arrayItem
  | object => .objectKey

/-- The place after a part. -/
abbrev afterPart : Container → Place
  | array => .arrayNext
  | object => .objectNext

theorem container?_afterOpening (k : Container) : k.afterOpening.container? = some k.construct := by
  cases k <;> rfl

theorem container?_afterPart (k : Container) : k.afterPart.container? = some k.construct := by
  cases k <;> rfl

end Container

/-- A value ends inside the container that it starts in. -/
theorem Place.afterValue?_spec {p next : Place} (h : p.afterValue? = some next) :
    next.followsValue = true ∧ next.container? = p.container? ∧ p ≠ .afterRules .inline ∧
      next ≠ .afterRules .inline := by
  cases p <;> cases h <;> simp [followsValue, container?]

namespace State

/-- What wraps a value has been opened at its first byte. -/
def wrap (s : State) (next : Place) (start : Nat) : State :=
  { s with
    opened := next.wrapper.map (·, start) ++ s.opened
    emitted := (next.wrapper.map (⟨.opening ·, start, start⟩)).reverse ++ s.emitted }

/-- Where a value may start, every byte starts one that does not close the container. -/
theorem token_eq_startValue {b : UInt8} (h : p.afterValue? = some next) (hb : Bytes.char b ≠ ']') :
    s.token o p b i = startValue o (s.wrap next i) next b i := by
  cases p <;> cases h
  case start | objectValue => rfl
  case arrayStart | arrayItem =>
    unfold token
    split <;> first | rfl | contradiction

theorem At.feed_eq_startValue {b : UInt8} (hplace : s.At p) (h : p.afterValue? = some next)
    (hspace : Bytes.isSpace b = false) (hcomment : commentMode? b = none) (hb : Bytes.char b ≠ ']') :
    s.feed o b i = startValue o (s.wrap next i) next b i := by
  rw [hplace.feed_eq (Place.afterValue?_spec h).2.2.1, visit_eq_token hspace hcomment,
    token_eq_startValue h hb]

/-! ## First bytes -/

/-- A byte that begins a literal is no blank and no comment, and closes nothing. -/
theorem literalMode?_spec {b : UInt8} {mode : Mode} (h : literalMode? b = some mode) :
    Bytes.isSpace b = false ∧ commentMode? b = none ∧ Bytes.char b ≠ ']' ∧
      ∀ s : State, startValue o s next b i = .ok ((s.begin .literal i).interrupt mode next) := by
  unfold literalMode? at h
  split at h
  iterate 6
    next hb =>
      cases h
      rw [Bytes.eq_of_char_eq hb]
      exact ⟨rfl, rfl, by decide, fun s => rfl⟩
  next hquote hminus hzero ht hf hn =>
    split at h
    · next hdigit =>
      cases h
      refine ⟨?_, ?_, ?_, fun s => ?_⟩
      · unfold Bytes.isSpace
        split
        iterate 4 next hb => rw [hb] at hdigit; exact absurd hdigit (by decide)
        · rfl
      · unfold commentMode?
        split
        iterate 2 next hb => rw [hb] at hdigit; exact absurd hdigit (by decide)
        · rfl
      · intro hb
        rw [hb] at hdigit
        exact absurd hdigit (by decide)
      · unfold startValue
        split
        iterate 2 next hb => rw [hb] at hdigit; exact absurd hdigit (by decide)
        · contradiction
        · contradiction
        · contradiction
        · contradiction
        · contradiction
        · contradiction
        · rw [if_pos hdigit]
    · cases h

/-- **A literal begins.** -/
theorem feed_literal {b : UInt8} {mode : Mode} (hplace : s.At p) (h : p.afterValue? = some next)
    (hmode : literalMode? b = some mode) :
    s.feed o b i = .ok (s.inside next .literal i [] mode) := by
  obtain ⟨hspace, hcomment, hb, hstart⟩ := @literalMode?_spec o next i _ _ hmode
  rw [hplace.feed_eq_startValue h hspace hcomment hb, hstart]
  rfl

/-- What wraps a value does not count towards the nesting. -/
theorem depth_wrap (s : State) (next : Place) (start : Nat) : (s.wrap next start).depth = s.depth := by
  rw [depth, depth, wrap, List.countP_append, List.countP_map]
  cases next <;> simp [Place.wrapper, Construct.isContainer]

theorem depth_inside (s : State) (next : Place) {c : Construct} (hc : c.isContainer = true)
    (start : Nat) (events : List Event) (mode : Mode) :
    (s.inside next c start events mode).depth = s.depth + 1 := by
  rw [← s.depth_wrap next start]
  exact List.countP_cons_of_pos hc

/-- Inside a container, a scan is at the place that its opening leads to. -/
theorem At.inside {place : Place} {c : Construct} (hplace : s.At p) (hc : place.container? = some c)
    (next : Place) (start : Nat) (events : List Event) :
    (s.inside next c start events (.between place)).At place := by
  refine ⟨rfl, hc.symm, ?_⟩
  have hnote := hplace.note
  rw [note?] at hnote ⊢
  rw [State.inside, List.findSome?_cons, List.findSome?_append, hnote]
  cases place <;> cases hc <;> cases next <;> rfl

/-- **A container begins.** -/
theorem feed_open (k : Container) (hplace : s.At p) (h : p.afterValue? = some next)
    (hdepth : s.depth < maxDepth) :
    s.feed o k.opening.toUInt8 i = .ok (s.inside next k.construct i [] (.between k.afterOpening)) := by
  have hstart : startValue o (s.wrap next i) next k.opening.toUInt8 i =
      (s.wrap next i).openContainer k.construct k.afterOpening next i := by cases k <;> rfl
  have hspace : Bytes.isSpace k.opening.toUInt8 = false := by cases k <;> rfl
  have hcomment : commentMode? k.opening.toUInt8 = none := by cases k <;> rfl
  have hbracket : Bytes.char k.opening.toUInt8 ≠ ']' := by cases k <;> decide
  rw [hplace.feed_eq_startValue h hspace hcomment hbracket, hstart, openContainer, depth_wrap,
    if_pos hdepth]
  rfl

/-- **A container ends.** -/
theorem feed_close {place : Place} (k : Container) (hplace : s.At p) (h : p.afterValue? = some next)
    (start : Nat) (events : List Event) (hend : place = k.afterOpening ∨ place = k.afterPart) :
    (s.inside next k.construct start events (.between place)).feed o k.closing.toUInt8 i =
      .ok (s.past next (i + 1) (wrapped next start (i + 1)
        (enclosed k.construct start (i + 1) events))) := by
  obtain ⟨hnext, hcontainer, -, -⟩ := Place.afterValue?_spec h
  have hfinish := finishValue_inside hplace hnext hcontainer k.construct start (i + 1) events
    (.between place)
  cases k <;> rcases hend with rfl | rfl
  all_goals
    rw [(hplace.inside rfl next start events).feed_eq (by nofun), visit_eq_token rfl rfl]
    exact hfinish

/-- **A comma leads to the next part of a container.** -/
theorem feed_comma (k : Container) (hplace : s.At k.afterPart) :
    s.feed o (Char.toUInt8 ',') i = .ok (s.switch (.between k.afterComma)) := by
  cases k
  all_goals
    rw [hplace.feed_eq (by nofun), visit_eq_token rfl rfl]
    rfl

/-- **A colon leads from the name to the value.** -/
theorem feed_colon (hplace : s.At .objectColon) :
    s.feed o (Char.toUInt8 ':') i = .ok (s.switch (.between .objectValue)) := by
  rw [hplace.feed_eq (by nofun), visit_eq_token rfl rfl]
  rfl

/-! ## Names -/

/-- The name of a member is being read. -/
def naming (s : State) (start : Nat) (mode : Mode) : State :=
  (s.begin .objectKey start).interrupt mode .objectColon

/-- A name has been passed. -/
def named (s : State) (start stop : Nat) : State :=
  (s.told (enclosed .objectKey start stop [])).switch (.between .objectColon)

/-- **A name begins.** -/
theorem feed_name (hplace : s.At p) (hp : p = .objectStart ∨ p = .objectKey) :
    s.feed o (Char.toUInt8 '"') i = .ok (s.naming i .string) := by
  rcases hp with rfl | rfl
  all_goals
    rw [hplace.feed_eq (by nofun), visit_eq_token rfl rfl]
    rfl

/-- The end of a name leads past it. -/
theorem endsLiteral_naming (hplace : s.At p) (hp : p = .objectStart ∨ p = .objectKey) (start : Nat) :
    EndsLiteral (s.naming start .string) (s.named start) := by
  intro mode stop
  have hhead := hplace.container
  obtain ⟨c, hhead, hc⟩ : ∃ a, s.opened.head? = some (.object, a) ∧ True := by
    rcases hp with rfl | rfl <;> obtain ⟨⟨_, a⟩, ho, rfl⟩ := Option.map_eq_some_iff.1 hhead <;>
      exact ⟨a, ho, trivial⟩
  obtain ⟨outer, hopened⟩ := List.head?_eq_some_iff.1 hhead
  simp [finishValue, endValue, close, closeIf, naming, named, settle, told, emit, resumeNext, switch,
    interrupt, begin, enclosed, Construct.isWrapper, hopened]

end State

/-! ## Tokens -/

/-- **A literal is passed.** -/
theorem readFrom_token {token : Bytes} (htoken : IsLiteral token) (hplace : s.At p)
    (h : p.afterValue? = some next) (hrest : IsDelimited rest) :
    readFrom o s i (token ++ rest) =
      readFrom o (s.past next (i + token.length)
          (wrapped next i (i + token.length) (enclosed .literal i (i + token.length) [])))
        (i + token.length) rest := by
  obtain ⟨hnext, hcontainer, -, hnote⟩ := Place.afterValue?_spec h
  cases token with
  | nil => exact (not_isLiteral_nil htoken).elim
  | cons b tail =>
    obtain ⟨mode, hmode, htail⟩ := isLiteral_cons_iff.1 htoken
    have hends : EndsLiteral (s.inside next .literal i [] mode) fun stop =>
        s.past next stop (wrapped next i stop (enclosed .literal i stop [])) := fun mode stop =>
      State.finishValue_inside hplace hnext hcontainer .literal i stop [] mode
    have hread := @readFrom_literal o _ _ (i + 1) rest mode tail next htail hends
      (fun stop => hplace.past hcontainer stop _) hnote hrest
    rw [List.cons_append, readFrom_cons hplace.ne_done (State.feed_literal hplace h hmode)]
    rw [List.length_cons, show i + (tail.length + 1) = i + 1 + tail.length from by omega]
    exact hread

/-- **A name is passed.** -/
theorem readFrom_name {name : Bytes} (hname : IsString name) (hplace : s.At p)
    (hp : p = .objectStart ∨ p = .objectKey) :
    readFrom o s i (name ++ rest) =
      readFrom o (s.named i (i + name.length)) (i + name.length) rest := by
  cases hname with
  | @quoted tail htail =>
    have hread := @readFrom_string o _ _ (i + 1) rest tail htail
      (State.endsLiteral_naming hplace hp i)
    rw [List.cons_append, readFrom_cons hplace.ne_done (State.feed_name hplace hp)]
    rw [List.length_cons, show i + (tail.length + 1) = i + 1 + tail.length from by omega]
    exact hread

theorem State.At.named (hplace : s.At p) (hp : p = .objectStart ∨ p = .objectKey)
    (start stop : Nat) : (s.named start stop).At .objectColon := by
  refine (hplace.told _).switch ?_
  rcases hp with rfl | rfl <;> rfl

/-- **A colon is passed.** -/
theorem readFrom_colon {colon : Json.Colon} (hplace : s.At .objectColon) :
    readFrom o s i (colon.bytes ++ rest) =
      readFrom o ((s.told (colon.events i)).switch (.between .objectValue))
        (i + colon.bytes.length) rest := by
  have hvalue := (hplace.told (blankEvents i colon.before.1)).switch
    (show Place.container? .objectValue = Place.container? .objectColon from rfl)
  rw [Json.Colon.bytes, List.append_assoc, List.cons_append,
    readFrom_blank hplace (by nofun) colon.before.2,
    readFrom_cons (hplace.told _).ne_done (State.feed_colon (hplace.told _)),
    readFrom_blank hvalue (by nofun) colon.after.2]
  rw [Json.Colon.events, State.told_append, List.length_append, List.length_cons]
  rw [show i + colon.before.1.length + 1 + colon.after.1.length =
    i + (colon.before.1.length + (colon.after.1.length + 1)) from by omega]
  rfl

theorem isDelimited_append {blank : Bytes} (hblank : IsBlank blank) (hrest : IsDelimited rest) :
    IsDelimited (blank ++ rest) := by
  cases blank with
  | nil => exact hrest
  | cons b blank => exact isDelimited_cons_iff.2 (Or.inl (hblank b (by simp)))

/-! ## Values -/

/-- A value is passed wherever one may start, if it does not nest too deep there. -/
def IsPassed (t : Json) : Prop :=
  ∀ (o : Options) (s : State) (p next : Place) (i : Nat) (rest : Bytes), s.At p →
    p.afterValue? = some next → s.depth + t.depth ≤ maxDepth → IsDelimited rest →
    readFrom o s i (t.bytes ++ rest) =
      readFrom o (s.past next (i + t.bytes.length)
          (wrapped next i (i + t.bytes.length) (t.events i)))
        (i + t.bytes.length) rest

/-- Some items are passed where an item may start, up to the bracket after them. -/
def ArePassed (items : Json.Items) : Prop :=
  ∀ (o : Options) (s : State) (p : Place) (i : Nat) (rest : Bytes), s.At p →
    (p = .arrayStart ∨ p = .arrayItem) → s.depth + items.depth ≤ maxDepth →
    readFrom o s i (items.bytes ++ Char.toUInt8 ']' :: rest) =
      readFrom o ((s.told (items.events i)).switch (.between .arrayNext)) (i + items.bytes.length)
        (Char.toUInt8 ']' :: rest)

/-- Some members are passed where a name may start, up to the brace after them. -/
def ArePassedMembers (members : Json.Members) : Prop :=
  ∀ (o : Options) (s : State) (p : Place) (i : Nat) (rest : Bytes), s.At p →
    (p = .objectStart ∨ p = .objectKey) → s.depth + members.depth ≤ maxDepth →
    readFrom o s i (members.bytes ++ Char.toUInt8 '\x7d' :: rest) =
      readFrom o ((s.told (members.events i)).switch (.between .objectNext))
        (i + members.bytes.length) (Char.toUInt8 '\x7d' :: rest)

/-- Inside a container, a value and the blank after it are passed. -/
theorem IsPassed.readFrom_eq {t : Json} {c : Construct} {after : Json.Blank} (ht : IsPassed t)
    (hplace : s.At p) (h : p.afterValue? = some next) (hc : p.container? = some c)
    (hdepth : s.depth + t.depth ≤ maxDepth) (hrest : IsDelimited rest) :
    readFrom o s i (t.bytes ++ (after.1 ++ rest)) =
      readFrom o ((s.told (wrapped next i (i + t.bytes.length) (t.events i) ++
          blankEvents (i + t.bytes.length) after.1)).switch (.between next))
        (i + t.bytes.length + after.1.length) rest := by
  obtain ⟨-, hcontainer, -, hnote⟩ := Place.afterValue?_spec h
  rw [ht _ _ _ _ _ _ hplace h hdepth (isDelimited_append after.2 hrest),
    readFrom_blank (hplace.past hcontainer _ _) hnote after.2,
    State.past_eq_told hplace hc, State.told_append]
  rfl

/-- Inside a container, a value, the blank after it and a comma are passed. -/
theorem IsPassed.readFrom_comma {t : Json} {after : Json.Blank} (k : Container) (ht : IsPassed t)
    (hplace : s.At p) (h : p.afterValue? = some k.afterPart) (hdepth : s.depth + t.depth ≤ maxDepth) :
    readFrom o s i (t.bytes ++ (after.1 ++ Char.toUInt8 ',' :: rest)) =
      readFrom o ((s.told (wrapped k.afterPart i (i + t.bytes.length) (t.events i) ++
          blankEvents (i + t.bytes.length) after.1)).switch (.between k.afterComma))
        (i + t.bytes.length + after.1.length + 1) rest := by
  obtain ⟨-, hcontainer, -, -⟩ := Place.afterValue?_spec h
  have hc : p.container? = some k.construct := hcontainer.symm.trans k.container?_afterPart
  rw [ht.readFrom_eq hplace h hc hdepth (isDelimited_cons_iff.2 (Or.inr (by decide)))]
  have hnext := (hplace.told (wrapped k.afterPart i (i + t.bytes.length) (t.events i) ++
    blankEvents (i + t.bytes.length) after.1)).switch hcontainer
  exact readFrom_cons hnext.ne_done (State.feed_comma k hnext)

theorem isDelimited_close {b : UInt8} (h : Bytes.char b ∈ [',', ']', '\x7d']) :
    IsDelimited (b :: rest) := isDelimited_cons_iff.2 (Or.inr h)

/-- A value is passed wherever one may start, whatever follows it. -/
def IsPassedFreely (t : Json) : Prop :=
  ∀ (o : Options) (s : State) (p next : Place) (i : Nat) (rest : Bytes), s.At p →
    p.afterValue? = some next → s.depth + t.depth ≤ maxDepth →
    readFrom o s i (t.bytes ++ rest) =
      readFrom o (s.past next (i + t.bytes.length)
          (wrapped next i (i + t.bytes.length) (t.events i)))
        (i + t.bytes.length) rest

theorem IsPassedFreely.isPassed {t : Json} (ht : IsPassedFreely t) : IsPassed t :=
  fun o s p next i rest hplace h hdepth _ => ht o s p next i rest hplace h hdepth

/-- **A container is passed** with its last byte, if what is between its brackets leads there. -/
theorem readFrom_container {place : Place} {inner bytes : Bytes} {events : List Event} (k : Container)
    (hplace : s.At p) (h : p.afterValue? = some next) (hdepth : s.depth < maxDepth)
    (hend : place = k.afterOpening ∨ place = k.afterPart)
    (hinner : ∀ rest, readFrom o (s.inside next k.construct i [] (.between k.afterOpening)) (i + 1)
        (inner ++ k.closing.toUInt8 :: rest) =
      readFrom o (s.inside next k.construct i events (.between place)) (i + 1 + inner.length)
        (k.closing.toUInt8 :: rest))
    (hbytes : bytes = k.opening.toUInt8 :: (inner ++ [k.closing.toUInt8])) :
    readFrom o s i (bytes ++ rest) =
      readFrom o (s.past next (i + bytes.length) (wrapped next i (i + bytes.length)
        (enclosed k.construct i (i + bytes.length) events))) (i + bytes.length) rest := by
  have hne : (s.inside next k.construct i events (.between place)).mode ≠ .done := by nofun
  subst hbytes
  rw [List.cons_append, List.append_assoc, List.singleton_append,
    readFrom_cons hplace.ne_done (State.feed_open k hplace h hdepth), hinner,
    readFrom_cons hne (State.feed_close k hplace h i events hend)]
  rw [List.length_cons, List.length_append, List.length_singleton]
  rw [show i + 1 + inner.length + 1 = i + (inner.length + 1 + 1) from by omega]

/-- A container with nothing but a blank inside is passed. -/
theorem readFrom_empty {bytes : Bytes} (k : Container) (blank : Json.Blank) (hplace : s.At p)
    (h : p.afterValue? = some next) (hdepth : s.depth < maxDepth)
    (hbytes : bytes = k.opening.toUInt8 :: (blank.1 ++ [k.closing.toUInt8])) :
    readFrom o s i (bytes ++ rest) =
      readFrom o (s.past next (i + bytes.length) (wrapped next i (i + bytes.length)
        (enclosed k.construct i (i + bytes.length) (blankEvents (i + 1) blank.1))))
        (i + bytes.length) rest := by
  have hinside := hplace.inside k.container?_afterOpening next i []
  have hnote : k.afterOpening ≠ .afterRules .inline := by cases k <;> nofun
  refine readFrom_container k hplace h hdepth (Or.inl rfl) (fun rest => ?_) hbytes
  rw [readFrom_blank hinside hnote blank.2, State.inside_told, List.nil_append]

theorem isPassedFreely_emptyArray (blank : Json.Blank) : IsPassedFreely (.emptyArray blank) := by
  intro o s p next i rest hplace h hdepth
  rw [Json.events]
  exact readFrom_empty .array blank hplace h hdepth (by rw [Json.bytes])

theorem isPassedFreely_emptyObject (blank : Json.Blank) : IsPassedFreely (.emptyObject blank) := by
  intro o s p next i rest hplace h hdepth
  rw [Json.events]
  exact readFrom_empty .object blank hplace h hdepth (by rw [Json.bytes])

theorem isPassedFreely_array {items : Json.Items} (hitems : ArePassed items) :
    IsPassedFreely (.array items) := by
  intro o s p next i rest hplace h hdepth
  have hinside := hplace.inside (show Place.container? .arrayStart = some .array from rfl) next i []
  rw [Json.depth] at hdepth
  have hdepth' : (s.inside next .array i [] (.between .arrayStart)).depth + items.depth ≤ maxDepth := by
    rw [State.depth_inside s next rfl]
    omega
  rw [Json.events]
  refine readFrom_container .array hplace h (by omega) (Or.inr rfl) (fun rest => ?_)
    (by rw [Json.bytes])
  exact hitems _ _ _ _ _ hinside (Or.inl rfl) hdepth'

theorem isPassedFreely_object {members : Json.Members} (hmembers : ArePassedMembers members) :
    IsPassedFreely (.object members) := by
  intro o s p next i rest hplace h hdepth
  have hinside := hplace.inside (show Place.container? .objectStart = some .object from rfl) next i []
  rw [Json.depth] at hdepth
  have hdepth' :
      (s.inside next .object i [] (.between .objectStart)).depth + members.depth ≤ maxDepth := by
    rw [State.depth_inside s next rfl]
    omega
  rw [Json.events]
  refine readFrom_container .object hplace h (by omega) (Or.inr rfl) (fun rest => ?_)
    (by rw [Json.bytes])
  exact hmembers _ _ _ _ _ hinside (Or.inl rfl) hdepth'

theorem arePassed_last {item : Json} (hitem : IsPassed item) (before after : Json.Blank) :
    ArePassed (.last before item after) := by
  intro o s p i rest hplace hp hdepth
  have hnext : p.afterValue? = some .arrayNext := by rcases hp with rfl | rfl <;> rfl
  have hc : p.container? = some .array := by rcases hp with rfl | rfl <;> rfl
  obtain ⟨-, -, hnote, -⟩ := Place.afterValue?_spec hnext
  rw [Json.Items.events, Json.Items.bytes, List.append_assoc, List.append_assoc,
    readFrom_blank hplace hnote before.2,
    hitem.readFrom_eq (hplace.told _) hnext hc hdepth (isDelimited_close (by decide)),
    ← State.told_append, List.length_append, List.length_append]
  rw [show i + before.1.length + item.bytes.length + after.1.length =
    i + (before.1.length + (item.bytes.length + after.1.length)) from by omega]

theorem arePassed_more {item : Json} {more : Json.Items} (hitem : IsPassed item)
    (hmore : ArePassed more) (before after : Json.Blank) : ArePassed (.more before item after more) := by
  intro o s p i rest hplace hp hdepth
  have hnext : p.afterValue? = some .arrayNext := by rcases hp with rfl | rfl <;> rfl
  have hc : p.container? = some .array := by rcases hp with rfl | rfl <;> rfl
  have hitemPlace : Place.container? .arrayItem = p.container? := hc.symm
  obtain ⟨-, -, hnote, -⟩ := Place.afterValue?_spec hnext
  rw [Json.Items.depth] at hdepth
  have hitemDepth : s.depth + item.depth ≤ maxDepth := by omega
  have hmoreDepth : s.depth + more.depth ≤ maxDepth := by omega
  rw [Json.Items.events, Json.Items.bytes]
  simp only [List.append_assoc, List.cons_append]
  rw [readFrom_blank hplace hnote before.2,
    hitem.readFrom_comma .array (hplace.told _) hnext hitemDepth,
    hmore _ _ _ _ _ (((hplace.told _).told _).switch hitemPlace) (Or.inr rfl) hmoreDepth]
  simp only [State.told_append, List.length_append, List.length_cons]
  rw [show i + before.1.length + item.bytes.length + after.1.length + 1 + more.bytes.length =
    i + (before.1.length + (item.bytes.length + (after.1.length + (more.bytes.length + 1)))) from by
      omega]
  rfl

/-- The blank, the name and the colon before the value of a member are passed. -/
theorem readFrom_beforeValue {before : Json.Blank} {name : Json.Name} {colon : Json.Colon}
    (hplace : s.At p) (hp : p = .objectStart ∨ p = .objectKey) :
    readFrom o s i (before.1 ++ (name.1 ++ (colon.bytes ++ rest))) =
      readFrom o ((s.told (blankEvents i before.1 ++
          (enclosed .objectKey (i + before.1.length) (i + before.1.length + name.1.length) [] ++
            colon.events (i + before.1.length + name.1.length)))).switch (.between .objectValue))
        (i + before.1.length + name.1.length + colon.bytes.length) rest := by
  have hnote : p ≠ .afterRules .inline := by rcases hp with rfl | rfl <;> nofun
  rw [readFrom_blank hplace hnote before.2, readFrom_name name.2 (hplace.told _) hp,
    readFrom_colon ((hplace.told _).named hp _ _)]
  simp only [State.told_append]
  rfl

theorem arePassedMembers_last {value : Json} (hvalue : IsPassed value) (before : Json.Blank)
    (name : Json.Name) (colon : Json.Colon) (after : Json.Blank) :
    ArePassedMembers (.last before name colon value after) := by
  intro o s p i rest hplace hp hdepth
  have hcontainer : Place.container? .objectValue = p.container? := by
    rcases hp with rfl | rfl <;> rfl
  rw [Json.Members.events, Json.Members.bytes]
  simp only [List.append_assoc]
  rw [readFrom_beforeValue hplace hp,
    hvalue.readFrom_eq ((hplace.told _).switch hcontainer) rfl rfl hdepth (isDelimited_close (by decide))]
  simp only [State.told_append, List.length_append]
  rw [show i + before.1.length + name.1.length + colon.bytes.length + value.bytes.length +
      after.1.length = i + (before.1.length + (name.1.length + (colon.bytes.length +
        (value.bytes.length + after.1.length)))) from by omega]
  rfl

theorem arePassedMembers_more {value : Json} {more : Json.Members} (hvalue : IsPassed value)
    (hmore : ArePassedMembers more) (before : Json.Blank) (name : Json.Name) (colon : Json.Colon)
    (after : Json.Blank) : ArePassedMembers (.more before name colon value after more) := by
  intro o s p i rest hplace hp hdepth
  have hcontainer : Place.container? .objectValue = p.container? := by
    rcases hp with rfl | rfl <;> rfl
  have hkey : Place.container? .objectKey = Place.container? .objectValue := rfl
  rw [Json.Members.depth] at hdepth
  have hvalueDepth : s.depth + value.depth ≤ maxDepth := by omega
  have hmoreDepth : s.depth + more.depth ≤ maxDepth := by omega
  rw [Json.Members.events, Json.Members.bytes]
  simp only [List.append_assoc, List.cons_append]
  rw [readFrom_beforeValue hplace hp,
    hvalue.readFrom_comma .object ((hplace.told _).switch hcontainer) rfl hvalueDepth,
    hmore _ _ _ _ _ ((((hplace.told _).switch hcontainer).told _).switch hkey) (Or.inr rfl)
      hmoreDepth]
  simp only [State.told_append, List.length_append, List.length_cons]
  rw [show i + before.1.length + name.1.length + colon.bytes.length + value.bytes.length +
      after.1.length + 1 + more.bytes.length = i + (before.1.length + (name.1.length +
        (colon.bytes.length + (value.bytes.length + (after.1.length + (more.bytes.length + 1)))))) from
          by omega]
  rfl

mutual

/-- **A value is passed wherever one may start**, with the events of its tree. -/
theorem isPassed : ∀ t : Json, IsPassed t
  | .literal token => fun _ _ _ _ _ _ hplace h _ hrest => readFrom_token token.2 hplace h hrest
  | .emptyArray blank => (isPassedFreely_emptyArray blank).isPassed
  | .array items => (isPassedFreely_array (arePassed items)).isPassed
  | .emptyObject blank => (isPassedFreely_emptyObject blank).isPassed
  | .object members => (isPassedFreely_object (arePassedMembers members)).isPassed

theorem arePassed : ∀ items : Json.Items, ArePassed items
  | .last before item after => arePassed_last (isPassed item) before after
  | .more before item after more => arePassed_more (isPassed item) (arePassed more) before after

theorem arePassedMembers : ∀ members : Json.Members, ArePassedMembers members
  | .last before name colon value after =>
    arePassedMembers_last (isPassed value) before name colon after
  | .more before name colon value after more =>
    arePassedMembers_more (isPassed value) (arePassedMembers more) before name colon after

end

theorem at_start : State.At {} .start := ⟨rfl, rfl, rfl⟩

/-- **A scan of a JSON text reports the events of its tree**, whatever the options, if its containers do
not nest too deep. -/
theorem read_document (o : Options) (t : Json.Document) (hdepth : t.root.depth ≤ maxDepth) :
    read o t.bytes = ⟨t.events, none⟩ := by
  have hstart : State.At (State.told {} (blankEvents 0 t.before.1)) .start := at_start.told _
  have hfinish : Place.container? .finish = Place.container? .start := rfl
  have hdepth' : (State.told {} (blankEvents 0 t.before.1)).depth + t.root.depth ≤ maxDepth := by
    rw [show (State.told {} (blankEvents 0 t.before.1)).depth = 0 from rfl, Nat.zero_add]
    exact hdepth
  rw [← readFrom_start_eq_some_iff, Json.Document.bytes,
    readFrom_blank at_start (by nofun) t.before.2, Nat.zero_add,
    isPassed t.root _ _ _ _ _ _ hstart rfl hdepth'
      (by simpa using isDelimited_append t.after.2 isDelimited_nil),
    ← List.append_nil t.after.1, readFrom_blank (hstart.past hfinish _ _) (by nofun) t.after.2]
  rw [readFrom_nil rfl]
  simp [Json.Document.events, State.events, State.stop, State.emit, State.told, State.past, State.settle,
    State.switch, wrapped, Place.wrapper]

end Scan
end ExampleSchema
