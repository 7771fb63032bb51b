import ExampleSchema.Proofs.Json.Events

/-!
# Recognizing JSON texts

A scan of a plain text that does not fail has read a JSON text.  From any state at which a value may
start, what is left of the text begins with a value, and the same holds of the items of an array and of
the members of an object.  How the scan goes on after the value is known from its tree, so each part is
found from what is left after the part before.

* `FindsValue`, `FindsItems`, `FindsMembers`: what is left of a text begins with such a part.
* `findsValue`, `findsItems`, `findsMembers`: one step of each, from the parts inside.
* `exists_document`: the whole text is a JSON text.
-/

namespace ExampleSchema
namespace Scan

variable {o : Options} {s : State} {p next : Place} {i : Nat} {b : UInt8} {text rest : Bytes}

/-- A text begins with a blank, which may be empty, and goes on with none. -/
theorem exists_blank (text : Bytes) :
    ∃ (blank : Json.Blank) (rest : Bytes), text = blank.1 ++ rest ∧
      ∀ b ∈ rest.head?, Bytes.isSpace b = false := by
  refine ⟨⟨text.takeWhile Bytes.isSpace, fun b hb => ?_⟩, text.dropWhile Bytes.isSpace, ?_, ?_⟩
  · exact List.all_eq_true.1 List.all_takeWhile b hb
  · exact List.takeWhile_append_dropWhile.symm
  · intro b hb
    have hhead := List.head?_dropWhile_not Bytes.isSpace text
    rw [hb] at hhead
    simpa using hhead

namespace State

/-- In a plain text, what is no blank is the first byte of a token. -/
theorem At.feed_plain (hplace : s.At p) (hnote : p ≠ .afterRules .inline) (hplain : o.plain = true)
    (hspace : Bytes.isSpace b = false) : s.feed o b i = s.token o p b i := by
  rw [hplace.feed_eq hnote, visit, hspace, hplain]
  rfl

/-- The document cannot end where something is to follow. -/
theorem At.conclude_ne_ok {s' : State} (hplace : s.At p) (hfinish : p ≠ .finish)
    (hnote : p ≠ .afterRules .inline) : s.conclude i ≠ .ok s' := by
  rw [conclude, hplace.mode]
  cases p with
  | finish => exact (hfinish rfl).elim
  | afterRules kind =>
    cases kind with
    | inline => exact (hnote rfl).elim
    | block => nofun
  | _ => nofun

end State

/-- Where something is to follow, it does. -/
theorem exists_cons_of_isSome (hplace : s.At p) (hfinish : p ≠ .finish)
    (hnote : p ≠ .afterRules .inline) (h : (readFrom o s i text).isSome = true) :
    ∃ b rest, text = b :: rest := by
  cases text with
  | nil =>
    obtain ⟨s', hend⟩ := exists_conclude_eq_ok h
    exact (hplace.conclude_ne_ok hfinish hnote hend).elim
  | cons b rest => exact ⟨b, rest, rfl⟩

/-- After a value, a scan of a plain text takes only what may follow a value. -/
theorem isDelimited_of_isSome (hplain : o.plain = true) (hlength : o.lengthOnly = false)
    (hplace : s.At next) (hnext : next = .finish ∨ next = .arrayNext ∨ next = .objectNext)
    (h : (readFrom o s i text).isSome = true) : IsDelimited text := by
  cases text with
  | nil => exact isDelimited_nil
  | cons b rest =>
    rw [isDelimited_cons_iff]
    cases hspace : Bytes.isSpace b with
    | true => exact Or.inl hspace
    | false =>
      refine Or.inr ?_
      have hnote : next ≠ .afterRules .inline := by rcases hnext with rfl | rfl | rfl <;> nofun
      obtain ⟨s', hfeed, -⟩ := exists_feed_eq_ok hplace.ne_done h
      rw [hplace.feed_plain hnote hplain hspace] at hfeed
      unfold State.token at hfeed
      rcases hnext with rfl | rfl | rfl
      · simp only [hlength] at hfeed
        cases hfeed
      · split at hfeed <;> simp_all
        cases hfeed
      · split at hfeed <;> simp_all
        cases hfeed

/-! ## First bytes -/

/-- In a plain text, a value that is no literal is a container. -/
theorem startValue_cases (s : State) (next : Place) (i : Nat) (hplain : o.plain = true)
    (hmode : literalMode? b = none) :
    (Bytes.char b = '\x7b' ∧
        State.startValue o s next b i = s.openContainer .object .objectStart next i) ∨
      (Bytes.char b = '[' ∧
        State.startValue o s next b i = s.openContainer .array .arrayStart next i) ∨
      State.startValue o s next b i = s.refuse b .value := by
  unfold literalMode? at hmode
  unfold State.startValue
  split
  · next hb => exact Or.inl ⟨hb, rfl⟩
  · next hb => exact Or.inr (Or.inl ⟨hb, rfl⟩)
  iterate 6
    next hb =>
      rw [hb] at hmode
      cases hmode
  · refine Or.inr (Or.inr ?_)
    split at hmode <;> try cases hmode
    split at hmode
    · cases hmode
    · next hdigit =>
      rw [if_neg hdigit, hplain]
      simp

/-- Opening a container needs a level of nesting that is left. -/
theorem depth_lt_of_openContainer {construct : Construct} {inside next : Place} {s' : State}
    (h : s.openContainer construct inside next i = .ok s') : s.depth < maxDepth := by
  rw [State.openContainer] at h
  split at h
  · next hdepth => exact hdepth
  · cases h

/-- Where no container may end, its bracket is refused. -/
theorem char_ne_bracket (hplain : o.plain = true) (hplace : s.At p) (h : p.afterValue? = some next)
    (hstart : p ≠ .arrayStart) (hspace : Bytes.isSpace b = false)
    (hs : (readFrom o s i (b :: rest)).isSome = true) : Bytes.char b ≠ ']' := by
  intro hb
  obtain ⟨s', hfeed, -⟩ := exists_feed_eq_ok hplace.ne_done hs
  rw [hplace.feed_plain (Place.afterValue?_spec h).2.2.1 hplain hspace,
    Bytes.eq_of_char_eq hb] at hfeed
  cases p with
  | arrayStart => exact hstart rfl
  | start | objectValue | arrayItem => cases hfeed
  | _ => cases h

/-- What is left of a text begins with a value, where one may start and no blank or bracket stands. -/
def FindsValue (o : Options) (text : Bytes) : Prop :=
  ∀ (s : State) (p next : Place) (i : Nat), s.At p → p.afterValue? = some next →
    s.depth ≤ maxDepth → (∀ b ∈ text.head?, Bytes.isSpace b = false ∧ Bytes.char b ≠ ']') →
    (readFrom o s i text).isSome = true →
    ∃ (t : Json) (rest : Bytes), text = t.bytes ++ rest ∧ IsDelimited rest ∧
      s.depth + t.depth ≤ maxDepth

/-- What is left of a text begins with the items of an array and its bracket, unless it is empty. -/
def FindsItems (o : Options) (text : Bytes) : Prop :=
  ∀ (s : State) (p : Place) (i : Nat), s.At p → (p = .arrayStart ∨ p = .arrayItem) →
    s.depth ≤ maxDepth →
    (p = .arrayStart → ∀ (blank : Json.Blank) rest, text ≠ blank.1 ++ Char.toUInt8 ']' :: rest) →
    (readFrom o s i text).isSome = true →
    ∃ (items : Json.Items) (rest : Bytes), text = items.bytes ++ Char.toUInt8 ']' :: rest ∧
      s.depth + items.depth ≤ maxDepth

/-- What is left of a text begins with the members of an object and its brace, unless it is empty. -/
def FindsMembers (o : Options) (text : Bytes) : Prop :=
  ∀ (s : State) (p : Place) (i : Nat), s.At p → (p = .objectStart ∨ p = .objectKey) →
    s.depth ≤ maxDepth →
    (p = .objectStart →
      ∀ (blank : Json.Blank) rest, text ≠ blank.1 ++ Char.toUInt8 '\x7d' :: rest) →
    (readFrom o s i text).isSome = true →
    ∃ (members : Json.Members) (rest : Bytes), text = members.bytes ++ Char.toUInt8 '\x7d' :: rest ∧
      s.depth + members.depth ≤ maxDepth

/-! ## Values -/

/-- Only certain places come after a value of a plain text. -/
theorem next_of_afterValue? (h : p.afterValue? = some next) :
    next = .finish ∨ next = .arrayNext ∨ next = .objectNext := by
  cases p <;> cases h <;> simp

/-- What follows a container may follow a value. -/
theorem IsPassedFreely.isDelimited {t : Json} (ht : IsPassedFreely t) (hplain : o.plain = true)
    (hlength : o.lengthOnly = false) (hplace : s.At p) (h : p.afterValue? = some next)
    (hdepth : s.depth + t.depth ≤ maxDepth)
    (hs : (readFrom o s i (t.bytes ++ rest)).isSome = true) : IsDelimited rest := by
  obtain ⟨-, hcontainer, -, -⟩ := Place.afterValue?_spec h
  rw [ht _ _ _ _ _ _ hplace h hdepth] at hs
  exact isDelimited_of_isSome hplain hlength (hplace.past hcontainer _ _) (next_of_afterValue? h) hs

/-- A literal is found. -/
theorem exists_literal_value {mode : Mode} (hplain : o.plain = true) (hlength : o.lengthOnly = false)
    (hplace : s.At p) (h : p.afterValue? = some next) (hmode : literalMode? b = some mode)
    (hs : (readFrom o s i (b :: text)).isSome = true) :
    ∃ (token : Json.Literal) (rest : Bytes), b :: text = token.1 ++ rest ∧ IsDelimited rest := by
  obtain ⟨hfollows, hcontainer, -, hnote⟩ := Place.afterValue?_spec h
  rw [readFrom_cons hplace.ne_done (State.feed_literal hplace h hmode)] at hs
  have hends : EndsLiteral (s.inside next .literal i [] mode) fun stop =>
      s.past next stop (wrapped next i stop (enclosed .literal i stop [])) := fun mode stop =>
    State.finishValue_inside hplace hfollows hcontainer .literal i stop [] mode
  have hpast : ∀ stop, State.At (s.past next stop (wrapped next i stop
      (enclosed .literal i stop []))) next := fun stop => hplace.past hcontainer stop _
  obtain ⟨tail, rest, rfl, htail, hrest⟩ := exists_literal hmode hends hpast hnote
    (fun stop _ => isDelimited_of_isSome hplain hlength (hpast stop) (next_of_afterValue? h)) hs
  exact ⟨⟨b :: tail, isLiteral_cons_iff.2 ⟨mode, hmode, htail⟩⟩, rest, rfl, hrest⟩

/-- An array is found, if its items are. -/
theorem exists_array_value (hplain : o.plain = true) (hlength : o.lengthOnly = false)
    (hitems : FindsItems o text) (hplace : s.At p) (h : p.afterValue? = some next)
    (hdepth : s.depth < maxDepth)
    (hs : (readFrom o s i (Char.toUInt8 '[' :: text)).isSome = true) :
    ∃ (t : Json) (rest : Bytes), Char.toUInt8 '[' :: text = t.bytes ++ rest ∧ IsDelimited rest ∧
      s.depth + t.depth ≤ maxDepth := by
  have hinside := hs
  rw [readFrom_cons hplace.ne_done (State.feed_open .array hplace h hdepth)] at hinside
  have hinsideDepth := s.depth_inside next (c := .array) rfl i [] (.between .arrayStart)
  by_cases hempty : ∃ (blank : Json.Blank) (rest : Bytes), text = blank.1 ++ Char.toUInt8 ']' :: rest
  · obtain ⟨blank, rest, rfl⟩ := hempty
    have htext : Char.toUInt8 '[' :: (blank.1 ++ Char.toUInt8 ']' :: rest) =
        (Json.emptyArray blank).bytes ++ rest := by simp [Json.bytes]
    rw [htext] at hs ⊢
    exact ⟨_, rest, rfl,
      (isPassedFreely_emptyArray blank).isDelimited hplain hlength hplace h hdepth hs, hdepth⟩
  · obtain ⟨items, rest, rfl, hitemsDepth⟩ := hitems _ _ _ (hplace.inside rfl next i []) (Or.inl rfl)
      (hinsideDepth ▸ hdepth) (fun _ blank rest htext => hempty ⟨blank, rest, htext⟩) hinside
    have htext : Char.toUInt8 '[' :: (items.bytes ++ Char.toUInt8 ']' :: rest) =
        (Json.array items).bytes ++ rest := by simp [Json.bytes]
    have hdepth : s.depth + (Json.array items).depth ≤ maxDepth := by
      rw [hinsideDepth] at hitemsDepth
      rw [Json.depth]
      omega
    rw [htext] at hs ⊢
    exact ⟨_, rest, rfl,
      (isPassedFreely_array (arePassed items)).isDelimited hplain hlength hplace h hdepth hs, hdepth⟩

/-- An object is found, if its members are. -/
theorem exists_object_value (hplain : o.plain = true) (hlength : o.lengthOnly = false)
    (hmembers : FindsMembers o text) (hplace : s.At p) (h : p.afterValue? = some next)
    (hdepth : s.depth < maxDepth)
    (hs : (readFrom o s i (Char.toUInt8 '\x7b' :: text)).isSome = true) :
    ∃ (t : Json) (rest : Bytes), Char.toUInt8 '\x7b' :: text = t.bytes ++ rest ∧ IsDelimited rest ∧
      s.depth + t.depth ≤ maxDepth := by
  have hinside := hs
  rw [readFrom_cons hplace.ne_done (State.feed_open .object hplace h hdepth)] at hinside
  have hinsideDepth := s.depth_inside next (c := .object) rfl i [] (.between .objectStart)
  by_cases hempty :
      ∃ (blank : Json.Blank) (rest : Bytes), text = blank.1 ++ Char.toUInt8 '\x7d' :: rest
  · obtain ⟨blank, rest, rfl⟩ := hempty
    have htext : Char.toUInt8 '\x7b' :: (blank.1 ++ Char.toUInt8 '\x7d' :: rest) =
        (Json.emptyObject blank).bytes ++ rest := by simp [Json.bytes]
    rw [htext] at hs ⊢
    exact ⟨_, rest, rfl,
      (isPassedFreely_emptyObject blank).isDelimited hplain hlength hplace h hdepth hs, hdepth⟩
  · obtain ⟨members, rest, rfl, hmembersDepth⟩ := hmembers _ _ _ (hplace.inside rfl next i [])
      (Or.inl rfl) (hinsideDepth ▸ hdepth) (fun _ blank rest htext => hempty ⟨blank, rest, htext⟩)
      hinside
    have htext : Char.toUInt8 '\x7b' :: (members.bytes ++ Char.toUInt8 '\x7d' :: rest) =
        (Json.object members).bytes ++ rest := by simp [Json.bytes]
    have hdepth : s.depth + (Json.object members).depth ≤ maxDepth := by
      rw [hinsideDepth] at hmembersDepth
      rw [Json.depth]
      omega
    rw [htext] at hs ⊢
    exact ⟨_, rest, rfl, (isPassedFreely_object (arePassedMembers members)).isDelimited hplain hlength
      hplace h hdepth hs, hdepth⟩

/-- **A value is found**, if the items and members inside it are. -/
theorem findsValue (hplain : o.plain = true) (hlength : o.lengthOnly = false)
    (hitems : ∀ tail : Bytes, tail.length < text.length → FindsItems o tail)
    (hmembers : ∀ tail : Bytes, tail.length < text.length → FindsMembers o tail) :
    FindsValue o text := by
  intro s p next i hplace h hdepth hhead hs
  obtain ⟨-, -, hnote, -⟩ := Place.afterValue?_spec h
  have hfinish : p ≠ .finish := by
    rintro rfl
    cases h
  obtain ⟨b, tail, rfl⟩ := exists_cons_of_isSome hplace hfinish hnote hs
  obtain ⟨hspace, hbracket⟩ := hhead b rfl
  cases hmode : literalMode? b with
  | some mode =>
    obtain ⟨token, rest, htext, hrest⟩ := exists_literal_value hplain hlength hplace h hmode hs
    exact ⟨.literal token, rest, htext, hrest, hdepth⟩
  | none =>
    obtain ⟨s', hfeed, -⟩ := exists_feed_eq_ok hplace.ne_done hs
    rw [hplace.feed_plain hnote hplain hspace, State.token_eq_startValue h hbracket] at hfeed
    have hlt : tail.length < (b :: tail).length := Nat.lt_succ_self _
    rcases startValue_cases (s.wrap next i) next i hplain hmode with
      ⟨hb, hstart⟩ | ⟨hb, hstart⟩ | hstart
    · have hopen := depth_lt_of_openContainer (hstart.symm.trans hfeed)
      rw [State.depth_wrap] at hopen
      rw [Bytes.eq_of_char_eq hb] at hs ⊢
      exact exists_object_value hplain hlength (hmembers tail hlt) hplace h hopen hs
    · have hopen := depth_lt_of_openContainer (hstart.symm.trans hfeed)
      rw [State.depth_wrap] at hopen
      rw [Bytes.eq_of_char_eq hb] at hs ⊢
      exact exists_array_value hplain hlength (hitems tail hlt) hplace h hopen hs
    · cases hstart.symm.trans hfeed

/-! ## Items and members -/

/-- After a value in a container comes a comma or the end of the container. -/
theorem comma_or_close (k : Container) (hplain : o.plain = true) (hplace : s.At k.afterPart)
    (hspace : Bytes.isSpace b = false) (hs : (readFrom o s i (b :: rest)).isSome = true) :
    b = k.closing.toUInt8 ∨
      b = Char.toUInt8 ',' ∧
        (readFrom o (s.switch (.between k.afterComma)) (i + 1) rest).isSome = true := by
  by_cases hcomma : Bytes.char b = ','
  · obtain rfl := Bytes.eq_of_char_eq hcomma
    rw [readFrom_cons hplace.ne_done (State.feed_comma k hplace)] at hs
    exact Or.inr ⟨rfl, hs⟩
  · refine Or.inl (Bytes.eq_of_char_eq (Decidable.by_contra fun hclose => ?_))
    obtain ⟨s', hfeed, -⟩ := exists_feed_eq_ok hplace.ne_done hs
    have hnote : k.afterPart ≠ .afterRules .inline := by cases k <;> nofun
    rw [hplace.feed_plain hnote hplain hspace] at hfeed
    cases k with
    | array =>
      have hrefuse : s.token o .arrayNext b i = s.refuse b .commaOrBracket := by simp [State.token]
      cases hrefuse.symm.trans hfeed
    | object =>
      have hrefuse : s.token o .objectNext b i = s.refuse b .commaOrBrace := by simp [State.token]
      cases hrefuse.symm.trans hfeed

/-- A value in a container is found, and after it a comma or the end of the container. -/
theorem exists_value (k : Container) (hplain : o.plain = true) (hvalue : FindsValue o text)
    (hplace : s.At p) (h : p.afterValue? = some k.afterPart) (hdepth : s.depth ≤ maxDepth)
    (hhead : ∀ b ∈ text.head?, Bytes.isSpace b = false ∧ Bytes.char b ≠ ']')
    (hs : (readFrom o s i text).isSome = true) :
    ∃ (t : Json) (after : Json.Blank) (b : UInt8) (rest : Bytes),
      text = t.bytes ++ (after.1 ++ b :: rest) ∧ s.depth + t.depth ≤ maxDepth ∧
        (b = k.closing.toUInt8 ∨ b = Char.toUInt8 ',' ∧ ∃ events j,
          (readFrom o ((s.told events).switch (.between k.afterComma)) j rest).isSome = true) := by
  obtain ⟨-, hcontainer, -, hnote⟩ := Place.afterValue?_spec h
  have hc : p.container? = some k.construct := hcontainer.symm.trans k.container?_afterPart
  obtain ⟨t, tail, rfl, htail, htDepth⟩ := hvalue s p _ i hplace h hdepth hhead hs
  obtain ⟨after, rest, rfl, hrest⟩ := exists_blank tail
  rw [isPassed t _ _ _ _ _ _ hplace h htDepth htail, State.past_eq_told hplace hc,
    readFrom_blank ((hplace.told _).switch hcontainer) hnote after.2] at hs
  have hnext := ((hplace.told (wrapped k.afterPart i (i + t.bytes.length) (t.events i))).switch
    hcontainer).told (blankEvents (i + t.bytes.length) after.1)
  have hfinish : k.afterPart ≠ .finish := by cases k <;> nofun
  obtain ⟨b, rest, rfl⟩ := exists_cons_of_isSome hnext hfinish hnote hs
  refine ⟨t, after, b, rest, rfl, htDepth, ?_⟩
  refine (comma_or_close k hplain hnext (hrest b rfl) hs).imp_right fun ⟨hb, hs⟩ => ⟨hb, ?_⟩
  refine ⟨wrapped k.afterPart i (i + t.bytes.length) (t.events i) ++
    blankEvents (i + t.bytes.length) after.1, i + t.bytes.length + after.1.length + 1, ?_⟩
  rw [State.told_append]
  exact hs

/-- **The items of an array are found**, if the values in them are. -/
theorem findsItems (hplain : o.plain = true)
    (hvalue : ∀ tail : Bytes, tail.length ≤ text.length → FindsValue o tail)
    (hitems : ∀ tail : Bytes, tail.length < text.length → FindsItems o tail) :
    FindsItems o text := by
  intro s p i hplace hp hdepth hempty hs
  have hnext : p.afterValue? = some .arrayNext := by rcases hp with rfl | rfl <;> rfl
  have hc : p.container? = some .array := by rcases hp with rfl | rfl <;> rfl
  obtain ⟨-, -, hnote, -⟩ := Place.afterValue?_spec hnext
  obtain ⟨before, tail, rfl, htail⟩ := exists_blank text
  rw [readFrom_blank hplace hnote before.2] at hs
  have hhead : ∀ b ∈ tail.head?, Bytes.isSpace b = false ∧ Bytes.char b ≠ ']' := by
    intro b hb
    obtain ⟨rest, rfl⟩ := List.head?_eq_some_iff.1 hb
    refine ⟨htail b hb, ?_⟩
    by_cases hstart : p = .arrayStart
    · intro hbracket
      exact hempty hstart before rest (by rw [Bytes.eq_of_char_eq hbracket])
    · exact char_ne_bracket hplain (hplace.told _) hnext hstart (htail b hb) hs
  obtain ⟨item, after, b, rest, rfl, hitemDepth, hb⟩ := exists_value .array hplain
    (hvalue tail (by simp)) (hplace.told _) hnext hdepth hhead hs
  rcases hb with rfl | ⟨rfl, events, j, hs⟩
  · exact ⟨.last before item after, rest, by simp [Json.Items.bytes], hitemDepth⟩
  · have hitemPlace : Place.container? .arrayItem = p.container? := hc.symm
    have hplace' := ((hplace.told (blankEvents i before.1)).told events).switch hitemPlace
    obtain ⟨items, rest, rfl, hitemsDepth⟩ := hitems rest (by simp; omega) _ _ _ hplace'
      (Or.inr rfl) hdepth (fun h => by cases h) hs
    refine ⟨.more before item after items, rest, by simp [Json.Items.bytes], ?_⟩
    rw [Json.Items.depth]
    change s.depth + items.depth ≤ maxDepth at hitemsDepth
    change s.depth + item.depth ≤ maxDepth at hitemDepth
    omega

/-- A member begins with a quote, where an object is not empty. -/
theorem eq_quote_of_isSome (hplain : o.plain = true) (hplace : s.At p)
    (hp : p = .objectStart ∨ p = .objectKey)
    (hstart : p = .objectStart → Bytes.char b ≠ '\x7d') (hspace : Bytes.isSpace b = false)
    (hs : (readFrom o s i (b :: rest)).isSome = true) : b = Char.toUInt8 '"' := by
  refine Bytes.eq_of_char_eq (Decidable.by_contra fun hquote => ?_)
  have hnote : p ≠ .afterRules .inline := by rcases hp with rfl | rfl <;> nofun
  have hinNote : s.inNote = false := by rw [State.inNote, hplace.note]; rfl
  have hkey : State.startKey o s b i = s.refuse b .objectKey := by
    simp [State.startKey, hquote, hinNote, hplain]
  obtain ⟨s', hfeed, -⟩ := exists_feed_eq_ok hplace.ne_done hs
  rw [hplace.feed_plain hnote hplain hspace] at hfeed
  rcases hp with rfl | rfl
  · have htoken : s.token o .objectStart b i = State.startKey o s b i := by
      simp [State.token, hstart rfl]
    cases (htoken.trans hkey).symm.trans hfeed
  · by_cases hb : Bytes.char b = '\x7d'
    · rw [Bytes.eq_of_char_eq hb] at hfeed
      cases hfeed
    · have htoken : s.token o .objectKey b i = State.startKey o s b i := by
        simp [State.token]
      cases (htoken.trans hkey).symm.trans hfeed

/-- After a name comes a colon. -/
theorem eq_colon_of_isSome (hplain : o.plain = true) (hplace : s.At .objectColon)
    (hspace : Bytes.isSpace b = false) (hs : (readFrom o s i (b :: rest)).isSome = true) :
    b = Char.toUInt8 ':' := by
  refine Bytes.eq_of_char_eq (Decidable.by_contra fun hcolon => ?_)
  obtain ⟨s', hfeed, -⟩ := exists_feed_eq_ok hplace.ne_done hs
  rw [hplace.feed_plain (by nofun) hplain hspace] at hfeed
  have hrefuse : s.token o .objectColon b i = s.refuse b .colon := by simp [State.token]
  cases hrefuse.symm.trans hfeed

/-- The name of a member and its colon are found, with the blanks around them. -/
theorem exists_name (hplain : o.plain = true) (hplace : s.At p)
    (hp : p = .objectStart ∨ p = .objectKey)
    (hempty : p = .objectStart →
      ∀ (blank : Json.Blank) rest, text ≠ blank.1 ++ Char.toUInt8 '\x7d' :: rest)
    (hs : (readFrom o s i text).isSome = true) :
    ∃ (before : Json.Blank) (name : Json.Name) (colon : Json.Colon) (rest : Bytes),
      text = before.1 ++ (name.1 ++ (colon.bytes ++ rest)) ∧
        (∀ b ∈ rest.head?, Bytes.isSpace b = false) := by
  have hfinish : p ≠ .finish := by rcases hp with rfl | rfl <;> nofun
  have hnote : p ≠ .afterRules .inline := by rcases hp with rfl | rfl <;> nofun
  obtain ⟨before, tail, rfl, htail⟩ := exists_blank text
  rw [readFrom_blank hplace hnote before.2] at hs
  obtain ⟨b, tail, rfl⟩ := exists_cons_of_isSome (hplace.told _) hfinish hnote hs
  have hstart : p = .objectStart → Bytes.char b ≠ '\x7d' := fun hstart hb =>
    hempty hstart before tail (by rw [Bytes.eq_of_char_eq hb])
  obtain rfl := eq_quote_of_isSome hplain (hplace.told _) hp hstart (htail b rfl) hs
  have hname := hs
  rw [readFrom_cons (hplace.told _).ne_done (State.feed_name (hplace.told _) hp)] at hname
  obtain ⟨name, rest, rfl, hstring⟩ := exists_string
    (s := (s.told (blankEvents i before.1)).naming (i + before.1.length) .string) hname
  obtain ⟨blank, rest, rfl, hcolonHead⟩ := exists_blank rest
  rw [← List.cons_append, readFrom_name (.quoted hstring) (hplace.told _) hp,
    readFrom_blank ((hplace.told _).named hp _ _) (by nofun) blank.2] at hs
  have hcolon := ((hplace.told (blankEvents i before.1)).named hp (i + before.1.length)
    (i + before.1.length + (Char.toUInt8 '"' :: name).length)).told
    (blankEvents (i + before.1.length + (Char.toUInt8 '"' :: name).length) blank.1)
  obtain ⟨b, rest, rfl⟩ := exists_cons_of_isSome hcolon (by nofun) (by nofun) hs
  obtain rfl := eq_colon_of_isSome hplain hcolon (hcolonHead b rfl) hs
  obtain ⟨after, rest, rfl, hrest⟩ := exists_blank rest
  refine ⟨before, ⟨_, .quoted hstring⟩, ⟨blank, after⟩, rest, ?_, hrest⟩
  simp [Json.Colon.bytes]

/-- **The members of an object are found**, if the values in them are. -/
theorem findsMembers (hplain : o.plain = true)
    (hvalue : ∀ tail : Bytes, tail.length ≤ text.length → FindsValue o tail)
    (hmembers : ∀ tail : Bytes, tail.length < text.length → FindsMembers o tail) :
    FindsMembers o text := by
  intro s p i hplace hp hdepth hempty hs
  have hcontainer : Place.container? .objectValue = p.container? := by
    rcases hp with rfl | rfl <;> rfl
  obtain ⟨before, name, colon, tail, rfl, htail⟩ := exists_name hplain hplace hp hempty hs
  rw [readFrom_beforeValue hplace hp] at hs
  have hplace' := (hplace.told (blankEvents i before.1 ++
    (enclosed .objectKey (i + before.1.length) (i + before.1.length + name.1.length) [] ++
      colon.events (i + before.1.length + name.1.length)))).switch hcontainer
  have hhead : ∀ b ∈ tail.head?, Bytes.isSpace b = false ∧ Bytes.char b ≠ ']' := by
    intro b hb
    obtain ⟨rest, rfl⟩ := List.head?_eq_some_iff.1 hb
    exact ⟨htail b hb, char_ne_bracket hplain hplace' rfl (fun h => by cases h) (htail b hb) hs⟩
  obtain ⟨value, after, b, rest, rfl, hvalueDepth, hb⟩ := exists_value .object hplain
    (hvalue tail (by simp; omega)) hplace' rfl hdepth hhead hs
  rcases hb with rfl | ⟨rfl, events, j, hs⟩
  · exact ⟨.last before name colon value after, rest, by simp [Json.Members.bytes], hvalueDepth⟩
  · have hkey : Place.container? .objectKey = Place.container? .objectValue := rfl
    obtain ⟨members, rest, rfl, hmembersDepth⟩ := hmembers rest (by simp; omega) _ _ _
      ((hplace'.told events).switch hkey) (Or.inr rfl) hdepth (fun h => by cases h) hs
    refine ⟨.more before name colon value after members, rest, by simp [Json.Members.bytes], ?_⟩
    rw [Json.Members.depth]
    change s.depth + members.depth ≤ maxDepth at hmembersDepth
    change s.depth + value.depth ≤ maxDepth at hvalueDepth
    omega

/-! ## Whole texts -/

/-- Values, items and members are found in texts of any length. -/
theorem finds (hplain : o.plain = true) (hlength : o.lengthOnly = false) (text : Bytes) :
    FindsValue o text ∧ FindsItems o text ∧ FindsMembers o text := by
  generalize hn : text.length = n
  induction n using Nat.strongRecOn generalizing text with
  | ind n ih =>
    subst hn
    have hvalue := findsValue hplain hlength (fun tail hlt => (ih _ hlt tail rfl).2.1)
      (fun tail hlt => (ih _ hlt tail rfl).2.2)
    -- The value that an item or a member begins with may be all that is left.
    have hvalues : ∀ tail : Bytes, tail.length ≤ text.length → FindsValue o tail := by
      intro tail hle
      refine findsValue hplain hlength (fun more hlt => (ih _ ?_ more rfl).2.1)
        (fun more hlt => (ih _ ?_ more rfl).2.2)
      all_goals omega
    exact ⟨hvalue, findsItems hplain hvalues fun tail hlt => (ih _ hlt tail rfl).2.1,
      findsMembers hplain hvalues fun tail hlt => (ih _ hlt tail rfl).2.2⟩

/-- **A text that a plain scan reads without failing is a JSON text.** -/
theorem exists_document (hplain : o.plain = true) (hlength : o.lengthOnly = false)
    (h : (readFrom o {} 0 text).isSome = true) :
    ∃ t : Json.Document, t.bytes = text ∧ t.root.depth ≤ maxDepth := by
  obtain ⟨before, tail, rfl, htail⟩ := exists_blank text
  rw [readFrom_blank at_start (by nofun) before.2] at h
  have hstart := at_start.told (blankEvents 0 before.1)
  have hhead : ∀ b ∈ tail.head?, Bytes.isSpace b = false ∧ Bytes.char b ≠ ']' := by
    intro b hb
    obtain ⟨rest, rfl⟩ := List.head?_eq_some_iff.1 hb
    exact ⟨htail b hb, char_ne_bracket hplain hstart rfl (by nofun) (htail b hb) h⟩
  obtain ⟨root, tail, rfl, hdelimited, hdepth⟩ :=
    (finds hplain hlength tail).1 _ _ _ _ hstart rfl (Nat.zero_le _) hhead h
  have hroot : root.depth ≤ maxDepth := Nat.le_trans (Nat.le_add_left _ _) hdepth
  obtain ⟨after, rest, rfl, hrest⟩ := exists_blank tail
  have hend : Place.container? .finish = Place.container? .start := rfl
  rw [isPassed root _ _ _ _ _ _ hstart rfl hdepth hdelimited,
    readFrom_blank (hstart.past hend _ _) (by nofun) after.2] at h
  cases rest with
  | nil => exact ⟨⟨before, root, after⟩, by simp [Json.Document.bytes], hroot⟩
  | cons b rest =>
    -- Nothing follows the value but a blank.
    obtain ⟨s', hfeed, -⟩ := exists_feed_eq_ok ((hstart.past hend _ _).told _).ne_done h
    rw [((hstart.past hend _ _).told _).feed_plain (by nofun) hplain (hrest b rfl), State.token,
      hlength] at hfeed
    cases hfeed

end Scan
end ExampleSchema
