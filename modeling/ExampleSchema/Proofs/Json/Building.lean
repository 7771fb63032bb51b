import ExampleSchema.Proofs.Json.Recognition
import ExampleSchema.Proofs.Outcome
import ExampleSchema.Value.Parse

/-!
# Reading a value from its text

The events of a JSON text are folded into the value that the text writes.  A fold over the events of a
value ends with that value put where it belongs, unless one of the names inside is no valid string.

* `Source.Holds`: some bytes stand in a document from an offset on.
* `isBuilt`, `areBuilt`, `areBuiltMembers`: what the fold makes of a value, of items and of members.
* `datum_value`: the marks of a value have the bytes that are written there.
* `parse_eq_ok_iff`: `Value.parse` reads exactly the JSON texts that nest at most so deep and whose names
  are valid, and yields what their grammar says.
-/

namespace ExampleSchema

/-! ## Bytes in their places -/

namespace Source

variable {source : Source} {start : Nat} {b : UInt8} {bytes more : Bytes}

/-- Some bytes stand in a document from an offset on. -/
def Holds (source : Source) (start : Nat) (bytes : Bytes) : Prop :=
  bytes <+: source.content.drop start

theorem holds_content (source : Source) : source.Holds 0 source.content := List.prefix_refl _

theorem Holds.left (h : source.Holds start (bytes ++ more)) : source.Holds start bytes :=
  (List.prefix_append bytes more).trans h

theorem Holds.right (h : source.Holds start (bytes ++ more)) :
    source.Holds (start + bytes.length) more := by
  obtain ⟨rest, hrest⟩ := h
  refine ⟨rest, ?_⟩
  rw [← List.drop_drop, ← hrest, List.append_assoc, List.drop_left]

theorem Holds.tail (h : source.Holds start (b :: bytes)) : source.Holds (start + 1) bytes :=
  @Holds.right source start [b] bytes h

/-- A slice of the document has the bytes that stand there. -/
theorem Holds.slice_eq (h : source.Holds start bytes) :
    source.content.slice start (start + bytes.length) = bytes := by
  obtain ⟨rest, hrest⟩ := h
  rw [Bytes.slice, ← hrest, Nat.add_sub_cancel_left, List.take_left]

/-- A span over some bytes marks them. -/
theorem Holds.bytes_spanOf (h : source.Holds start bytes) (c : Construct) :
    (Json.spanOf source c start bytes).bytes = bytes := h.slice_eq

end Source

theorem Json.Document.holds_root {source : Source} (t : Json.Document)
    (h : t.bytes = source.content) : source.Holds t.before.1.length t.root.bytes := by
  have hbytes : source.Holds 0 t.bytes := h ▸ source.holds_content
  have hroot := hbytes.right.left
  rwa [Nat.zero_add] at hroot

/-! ## Names -/

namespace Json

/-- All of some names are valid strings. -/
def areValid (names : List Bytes) : Bool := names.all fun name => (Quoted.decode? name).isSome

theorem areValid_cons (name : Bytes) (names : List Bytes) :
    areValid (name :: names) = ((Quoted.decode? name).isSome && areValid names) := rfl

theorem areValid_append (names more : List Bytes) :
    areValid (names ++ more) = (areValid names && areValid more) := List.all_append

theorem areValid_iff {names : List Bytes} :
    areValid names = true ↔ ∀ name ∈ names, (Quoted.decode? name).isSome = true := List.all_eq_true

end Json

/-! ## Taking events -/

namespace Value.Builder

variable {source : Source} {b : Builder} {events more : List Event} {start stop : Nat}

/-- What a value becomes that is taken event by event, if all of them are taken. -/
def take? (source : Source) (b : Builder) (events : List Event) : Option Builder :=
  (events.foldlM (fun (b : Builder) event => b.add ⟨source, event⟩) b).toOption

theorem take?_eq_some_iff {b' : Builder} : take? source b events = some b' ↔
    events.foldlM (fun (b : Builder) event => b.add ⟨source, event⟩) b = .ok b' := by
  rw [take?]
  cases events.foldlM (fun (b : Builder) event => b.add ⟨source, event⟩) b <;> simp [Except.toOption]

theorem take?_nil : take? source b [] = some b := rfl

theorem take?_cons {event : Event} :
    take? source b (event :: events) =
      (b.add ⟨source, event⟩).toOption.bind fun b => take? source b events := by
  rw [take?, List.foldlM_cons]
  cases b.add ⟨source, event⟩ <;> rfl

theorem take?_append :
    take? source b (events ++ more) =
      (take? source b events).bind fun b => take? source b more := by
  rw [take?, take?, List.foldlM_append]
  cases events.foldlM (fun (b : Builder) event => b.add ⟨source, event⟩) b <;> rfl

/-- The ends of lines do not matter. -/
theorem take?_blankEvents (blank : Bytes) :
    take? source b (blankEvents start blank ++ events) = take? source b events := by
  induction blank generalizing start with
  | nil => rfl
  | cons byte blank ih =>
    rw [blankEvents, List.append_assoc]
    split
    · rw [List.singleton_append, take?_cons]
      exact ih
    · exact ih

theorem take?_blankEvents_eq (blank : Bytes) :
    take? source b (blankEvents start blank) = some b := by
  rw [← List.append_nil (blankEvents start blank), take?_blankEvents, take?_nil]

/-- What wraps a value does not matter. -/
theorem take?_wrapped {next : Scan.Place} (hnext : next = .arrayNext ∨ next = .objectNext) :
    take? source b (Scan.wrapped next start stop events) = take? source b events := by
  rw [Scan.wrapped]
  rcases hnext with rfl | rfl
  all_goals
    change take? source b (events ++ [_]) = _
    rw [take?_append]
    cases take? source b events <;> rfl

/-- A construct is taken with what is inside it. -/
theorem take?_enclosed (c : Construct) :
    take? source b (enclosed c start stop events) =
      (b.add ⟨source, .opening c, start, start⟩).toOption.bind fun b =>
        (take? source b events).bind fun b => (b.add ⟨source, .closing c, start, stop⟩).toOption := by
  rw [enclosed, take?_cons]
  congr 1
  funext b
  rw [take?_append]
  congr 1
  funext b
  rw [take?_cons]
  cases b.add ⟨source, .closing c, start, stop⟩ <;> rfl

/-! ## Values -/

variable {acc : List Value} {members : List (String × Mark × Value)} {name? : Option (String × Mark)}
  {rest : List Frame} {root? : Option Value}

/-- A fold over the events of a value puts the value where it belongs. -/
def IsBuilt (t : Json) : Prop :=
  ∀ (source : Source) (start : Nat) (b : Builder), source.Holds start t.bytes →
    take? source b (t.events start) =
      if Json.areValid t.names then (b.place (t.value source start)).toOption else none

/-- A fold over the events of items puts them into the array that is being filled. -/
def AreBuilt (items : Json.Items) : Prop :=
  ∀ (source : Source) (start : Nat) (acc : List Value) (rest : List Frame) (root? : Option Value),
    source.Holds start items.bytes →
    take? source ⟨.array acc :: rest, root?⟩ (items.events start) =
      if Json.areValid items.names then
        some ⟨.array ((items.values source start).reverse ++ acc) :: rest, root?⟩
      else none

/-- A fold over the events of members puts them into the object that is being filled. -/
def AreBuiltMembers (more : Json.Members) : Prop :=
  ∀ (source : Source) (start : Nat) (members : List (String × Mark × Value))
    (name? : Option (String × Mark)) (rest : List Frame) (root? : Option Value),
    source.Holds start more.bytes →
    take? source ⟨.object members name? :: rest, root?⟩ (more.events start) =
      if Json.areValid more.names then
        some ⟨.object (Catalog.insertAll members (more.entries source start)) none :: rest, root?⟩
      else none

theorem isBuilt_literal (token : Json.Literal) : IsBuilt (.literal token) := by
  intro source start b _
  rw [Json.events, take?_enclosed]
  rfl

theorem isBuilt_emptyArray (blank : Json.Blank) : IsBuilt (.emptyArray blank) := by
  intro source start b _
  rw [Json.events, take?_enclosed]
  simp only [take?_blankEvents_eq]
  rfl

theorem isBuilt_emptyObject (blank : Json.Blank) : IsBuilt (.emptyObject blank) := by
  intro source start b _
  rw [Json.events, take?_enclosed]
  simp only [take?_blankEvents_eq]
  rfl

theorem isBuilt_array {items : Json.Items} (hitems : AreBuilt items) : IsBuilt (.array items) := by
  intro source start b h
  rw [Json.bytes] at h
  rw [Json.events, take?_enclosed]
  change (take? source ⟨.array [] :: b.frames, b.root?⟩ _).bind _ = _
  rw [hitems source (start + 1) [] b.frames b.root? h.tail.left, Json.names, Json.value]
  split
  · rw [List.append_nil]
    change (place b (.array _ _)).toOption = _
    rw [List.reverse_reverse]
    rfl
  · rfl

theorem isBuilt_object {members : Json.Members} (hmembers : AreBuiltMembers members) :
    IsBuilt (.object members) := by
  intro source start b h
  rw [Json.bytes] at h
  rw [Json.events, take?_enclosed]
  change (take? source ⟨.object [] none :: b.frames, b.root?⟩ _).bind _ = _
  rw [hmembers source (start + 1) [] none b.frames b.root? h.tail.left, Json.names, Json.value,
    Catalog.insertAll_nil_eq]
  split <;> rfl

/-- An item and the blanks around it are put into the array. -/
theorem take?_item {item : Json} {itemStart itemStop : Nat} (hitem : IsBuilt item)
    (before after : Json.Blank) (h : source.Holds itemStart item.bytes) :
    take? source ⟨.array acc :: rest, root?⟩
        (blankEvents start before.1 ++
          (Scan.wrapped .arrayNext itemStart stop (item.events itemStart) ++
            (blankEvents itemStop after.1 ++ events))) =
      if Json.areValid item.names then
        take? source ⟨.array (item.value source itemStart :: acc) :: rest, root?⟩ events
      else none := by
  rw [take?_blankEvents, take?_append, take?_wrapped (Or.inl rfl), hitem source _ _ h]
  split
  · exact take?_blankEvents after.1
  · rfl

theorem areBuilt_last {item : Json} (hitem : IsBuilt item) (before after : Json.Blank) :
    AreBuilt (.last before item after) := by
  intro source start acc rest root? h
  rw [Json.Items.bytes] at h
  rw [Json.Items.events, ← List.append_nil (blankEvents _ after.1),
    take?_item hitem before after h.right.left, Json.Items.names, Json.Items.values]
  rfl

theorem areBuilt_more {item : Json} {more : Json.Items} (hitem : IsBuilt item)
    (hmore : AreBuilt more) (before after : Json.Blank) : AreBuilt (.more before item after more) := by
  intro source start acc rest root? h
  rw [Json.Items.bytes] at h
  rw [Json.Items.events, take?_item hitem before after h.right.left,
    hmore source _ _ _ _ h.right.right.right.tail, Json.Items.names, Json.areValid_append,
    Json.Items.values]
  cases Json.areValid item.names with
  | false => rfl
  | true => simp

/-- A member and the blanks inside and around it are put into the object. -/
theorem take?_member {value : Json} {nameStart nameStop valueStart valueStop : Nat}
    (hvalue : IsBuilt value) (before : Json.Blank) (name : Json.Name) (colon : Json.Colon)
    (after : Json.Blank) (hname : source.Holds nameStart name.1)
    (h : source.Holds valueStart value.bytes) :
    take? source ⟨.object members name? :: rest, root?⟩
        (blankEvents start before.1 ++
          (enclosed .objectKey nameStart (nameStart + name.1.length) [] ++
            (colon.events nameStop ++
              (Scan.wrapped .objectNext valueStart stop (value.events valueStart) ++
                (blankEvents valueStop after.1 ++ events))))) =
      if (Quoted.decode? name.1).isSome && Json.areValid value.names then
        take? source ⟨.object (Catalog.insert members name.text
          (Json.spanOf source .objectKey nameStart name.1, value.value source valueStart)) none ::
            rest, root?⟩ events
      else none := by
  have hbytes : (Mark.mk source ⟨.closing .objectKey, nameStart, nameStart + name.1.length⟩).bytes =
      name.1 := hname.slice_eq
  rw [take?_blankEvents, take?_append, take?_enclosed]
  change Option.bind (takeName ⟨.object members name? :: rest, root?⟩ _).toOption _ = _
  rw [takeName, hbytes, Json.Name.text]
  cases Quoted.decode? name.1 with
  | none => rfl
  | some text =>
    change take? source ⟨.object members (some (text, _)) :: rest, root?⟩ _ = _
    rw [Json.Colon.events, List.append_assoc, take?_blankEvents, take?_blankEvents, take?_append,
      take?_wrapped (Or.inr rfl), hvalue source _ _ h, Option.isSome_some, Bool.true_and]
    split
    · exact take?_blankEvents after.1
    · rfl

theorem areBuiltMembers_last {value : Json} (hvalue : IsBuilt value) (before : Json.Blank)
    (name : Json.Name) (colon : Json.Colon) (after : Json.Blank) :
    AreBuiltMembers (.last before name colon value after) := by
  intro source start members name? rest root? h
  rw [Json.Members.bytes] at h
  rw [Json.Members.events, ← List.append_nil (blankEvents _ after.1),
    take?_member hvalue before name colon after h.right.left h.right.right.right.left,
    Json.Members.names, Json.areValid_cons, Json.Members.entries]
  rfl

theorem areBuiltMembers_more {value : Json} {more : Json.Members} (hvalue : IsBuilt value)
    (hmore : AreBuiltMembers more) (before : Json.Blank) (name : Json.Name) (colon : Json.Colon)
    (after : Json.Blank) : AreBuiltMembers (.more before name colon value after more) := by
  intro source start members name? rest root? h
  rw [Json.Members.bytes] at h
  rw [Json.Members.events,
    take?_member hvalue before name colon after h.right.left h.right.right.right.left,
    hmore source _ _ _ _ _ h.right.right.right.right.right.tail, Json.Members.names,
    Json.areValid_cons, Json.areValid_append, ← Bool.and_assoc, Json.Members.entries]
  cases (Quoted.decode? name.1).isSome && Json.areValid value.names with
  | false => rfl
  | true => rfl

mutual

/-- **The value that is built from the events of a text is the one that the text writes.** -/
theorem isBuilt : ∀ t : Json, IsBuilt t
  | .literal token => isBuilt_literal token
  | .emptyArray blank => isBuilt_emptyArray blank
  | .array items => isBuilt_array (areBuilt items)
  | .emptyObject blank => isBuilt_emptyObject blank
  | .object members => isBuilt_object (areBuiltMembers members)

theorem areBuilt : ∀ items : Json.Items, AreBuilt items
  | .last before item after => areBuilt_last (isBuilt item) before after
  | .more before item after more => areBuilt_more (isBuilt item) (areBuilt more) before after

theorem areBuiltMembers : ∀ members : Json.Members, AreBuiltMembers members
  | .last before name colon value after =>
    areBuiltMembers_last (isBuilt value) before name colon after
  | .more before name colon value after more =>
    areBuiltMembers_more (isBuilt value) (areBuiltMembers more) before name colon after

end

/-- A fold over the events of a whole text ends with its value, if all names in it are valid. -/
theorem take?_document (t : Json.Document) (h : t.bytes = source.content) :
    take? source {} t.events =
      if Json.areValid t.root.names then some ⟨[], some (t.value source)⟩ else none := by
  rw [Json.Document.events, take?_blankEvents, take?_append,
    isBuilt t.root source _ _ (t.holds_root h)]
  split
  · exact take?_blankEvents t.after.1
  · rfl

end Value.Builder

/-! ## Values without their marks -/

namespace Value

variable {source : Source} {start : Nat}

theorem dataOfMembers_eq (members : List (String × Mark × Value)) :
    dataOfMembers members = members.map fun member => (member.1, member.2.2.datum) := by
  induction members with
  | nil => rfl
  | cons member rest ih => rw [dataOfMembers, ih, List.map_cons]

theorem dataOfItems_eq (items : List Value) : dataOfItems items = items.map datum := by
  induction items with
  | nil => rfl
  | cons item rest ih => rw [dataOfItems, ih, List.map_cons]

mutual

/-- **The marks of a value have the bytes that are written there.** -/
theorem datum_value : ∀ (t : Json) {start : Nat}, source.Holds start t.bytes →
    (t.value source start).datum = t.datum
  | .literal token, _, h => congrArg Datum.literal (Source.Holds.bytes_spanOf h .literal)
  | .emptyArray _, _, _ => rfl
  | .array items, _, h => by
    rw [Json.bytes] at h
    rw [Json.value, datum, dataOfItems_values items h.tail.left, Json.datum]
  | .emptyObject _, _, _ => rfl
  | .object members, _, h => by
    rw [Json.bytes] at h
    have hgather := Catalog.gather_map (fun entry : Mark × Value => entry.2.datum)
    rw [Json.value, datum, dataOfMembers_eq, ← hgather, ← dataOfMembers_eq,
      dataOfMembers_entries members h.tail.left, Json.datum]

theorem dataOfItems_values : ∀ (items : Json.Items) {start : Nat}, source.Holds start items.bytes →
    dataOfItems (items.values source start) = items.data
  | .last before item after, _, h => by
    rw [Json.Items.bytes] at h
    rw [Json.Items.values, dataOfItems, datum_value item h.right.left, Json.Items.data]
    rfl
  | .more before item after rest, _, h => by
    rw [Json.Items.bytes] at h
    rw [Json.Items.values, dataOfItems, datum_value item h.right.left,
      dataOfItems_values rest h.right.right.right.tail, Json.Items.data]

theorem dataOfMembers_entries : ∀ (members : Json.Members) {start : Nat},
    source.Holds start members.bytes → dataOfMembers (members.entries source start) = members.data
  | .last before name colon value after, _, h => by
    rw [Json.Members.bytes] at h
    rw [Json.Members.entries, dataOfMembers, datum_value value h.right.right.right.left,
      Json.Members.data]
    rfl
  | .more before name colon value after rest, _, h => by
    rw [Json.Members.bytes] at h
    rw [Json.Members.entries, dataOfMembers, datum_value value h.right.right.right.left,
      dataOfMembers_entries rest h.right.right.right.right.right.tail, Json.Members.data]

end

/-! ## Parsing -/

/-- A text whose events are all taken is a JSON text, and what comes of them is the value that it writes. -/
theorem exists_document_of_foldMarks {b : Builder}
    (h : Scan.foldMarks { plain := true } source Builder.add {} = .ok b) :
    ∃ t : Json.Document, t.bytes = source.content ∧ t.root.depth ≤ 256 ∧
      Json.areValid t.root.names = true ∧ b = ⟨[], some (t.value source)⟩ := by
  obtain ⟨events, hread, hsteps⟩ := Scan.foldMarks_eq_ok_iff.1 h
  have hscan := Scan.readFrom_start_eq_some_iff.2 hread
  obtain ⟨t, hbytes, hdepth⟩ := Scan.exists_document rfl rfl (Option.isSome_of_mem hscan)
  have hevents := Scan.read_document { plain := true } t hdepth
  rw [hbytes, hread] at hevents
  cases hevents
  have htake := Builder.take?_eq_some_iff.2 hsteps
  rw [Builder.take?_document t hbytes] at htake
  split at htake
  · next hvalid => exact ⟨t, hbytes, hdepth, hvalid, (Option.some.inj htake).symm⟩
  · cases htake

/-- A text is parsed when its scan does not fail, all events are taken and a value comes of them. -/
theorem parse_eq_ok_iff_take? {v : Value} :
    parse source = .ok v ↔ ∃ events b, Scan.read { plain := true } source.content = ⟨events, none⟩ ∧
      Builder.take? source {} events = some b ∧ b.root? = some v := by
  rw [parse, Except.bind_eq_ok_iff]
  constructor
  · rintro ⟨b, hfold, hvalue⟩
    obtain ⟨events, hread, hsteps⟩ := Scan.foldMarks_eq_ok_iff.1 hfold
    refine ⟨events, b, hread, Builder.take?_eq_some_iff.2 hsteps, ?_⟩
    cases hroot : b.root? with
    | none =>
      rw [hroot] at hvalue
      cases hvalue
    | some value =>
      rw [hroot] at hvalue
      cases hvalue
      rfl
  · rintro ⟨events, b, hread, hsteps, hvalue⟩
    refine ⟨b, Scan.foldMarks_eq_ok_iff.2 ⟨events, hread, Builder.take?_eq_some_iff.1 hsteps⟩, ?_⟩
    rw [hvalue]
    rfl

/-- What is parsed is a JSON text, and the value is what the text writes. -/
theorem exists_document_of_parse_eq_ok {v : Value} (h : parse source = .ok v) :
    ∃ t : Json.Document, t.bytes = source.content ∧ t.root.depth ≤ 256 ∧
      Json.areValid t.root.names = true ∧ t.value source = v := by
  obtain ⟨b, hfold, h⟩ := Except.bind_eq_ok_iff.1 h
  obtain ⟨t, hbytes, hdepth, hvalid, rfl⟩ := exists_document_of_foldMarks hfold
  exact ⟨t, hbytes, hdepth, hvalid, Except.ok.inj h⟩

/-- A JSON text whose containers do not nest too deep and whose names are all valid is parsed. -/
theorem parse_eq_ok_of_areValid {t : Json.Document} (hbytes : t.bytes = source.content)
    (hdepth : t.root.depth ≤ 256) (hnames : Json.areValid t.root.names = true) :
    parse source = .ok (t.value source) := by
  refine parse_eq_ok_iff_take?.2 ⟨t.events, ⟨[], some (t.value source)⟩, ?_, ?_, rfl⟩
  · rw [← hbytes]
    exact Scan.read_document _ t hdepth
  · rw [Builder.take?_document t hbytes, if_pos hnames]

/-- **A text is parsed exactly when it is a JSON text** whose containers nest at most 256 deep and whose
names are all valid.  What it is parsed to is what its grammar says: arrays have all their items in order,
objects have every name where it first comes, with its last value, and a literal has the bytes that it is
written with. -/
theorem parse_eq_ok_iff (source : Source) :
    (∀ v, parse source = .ok v ↔ ∃ t : Json.Document, t.bytes = source.content ∧
      t.root.depth ≤ 256 ∧ (∀ name ∈ t.root.names, (Quoted.decode? name).isSome = true) ∧
        t.value source = v) ∧
      ∀ t : Json.Document, t.bytes = source.content → (t.value source).datum = t.root.datum := by
  refine ⟨fun v => ?_, fun t hbytes => datum_value t.root (t.holds_root hbytes)⟩
  constructor
  · intro h
    obtain ⟨t, hbytes, hdepth, hvalid, hvalue⟩ := exists_document_of_parse_eq_ok h
    exact ⟨t, hbytes, hdepth, Json.areValid_iff.1 hvalid, hvalue⟩
  · rintro ⟨t, hbytes, hdepth, hnames, rfl⟩
    rw [parse_eq_ok_iff_take?]
    refine ⟨t.events, ⟨[], some (t.value source)⟩, ?_, ?_, rfl⟩
    · rw [← hbytes]
      exact Scan.read_document _ t hdepth
    · rw [Builder.take?_document t hbytes, if_pos (Json.areValid_iff.2 hnames)]

end Value
end ExampleSchema
