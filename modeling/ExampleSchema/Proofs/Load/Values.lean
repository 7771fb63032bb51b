import ExampleSchema.Proofs.Json.Building
import ExampleSchema.Proofs.Json.Repeats
import ExampleSchema.Proofs.Json.Unique
import ExampleSchema.Proofs.Json.Writing
import ExampleSchema.Proofs.Load.Parts

/-!
# Loading what is a plain value

A schema is written as a sample document, so a plain JSON text is a schema too: the tree of the schema has the
shape of the value, and nothing is said of its nodes.  An object of a schema has no two properties of one name,
though, where an object of a value takes the last one.  The name is checked when its value is complete.

* `Value.asNode`: the node that is written as a value.
* `Loader.refuse`: the failure at the first of some repetitions.
* `isLoaded`, `areLoaded`, `areLoadedMembers`: what a loader makes of the events of a value, of items and of members.
* `Schema.load_document`: what is loaded of a plain text.
* `Schema.load_of_parse`: what is loaded of a text that is parsed as a value.
-/

namespace ExampleSchema

/-! ## Values as nodes -/

namespace Value

/-- What a node has of which nothing is said but its value. -/
def header (v : Value) : Header := { jsonType := v.jsonType, basis := v.mark }

mutual

/-- The node that is written as a value. -/
def asNode : Value → Node
  | literal mark => .literal (literal mark).header (some mark)
  | object mark members => .object (object mark members).header (asProperties members)
  | array mark items => .array (array mark items).header (asNodes items)

/-- The nodes that are written as the items of an array. -/
def asNodes : List Value → List Node
  | [] => []
  | item :: rest => item.asNode :: asNodes rest

/-- The properties that are written as the members of an object. -/
def asProperties : List (String × Mark × Value) → Properties
  | [] => []
  | (name, mark, value) :: rest => ({ name, mark }, value.asNode) :: asProperties rest

end

end Value

namespace Loader

variable {source : Source} {l : Loader} {events more : List Event} {start stop : Nat}

/-! ## Taking events -/

/-- Takes some events of a document. -/
def addAll (source : Source) (l : Loader) (events : List Event) : Outcome Loader :=
  events.foldlM (fun (l : Loader) event => l.add ⟨source, event⟩) l

theorem addAll_append :
    addAll source l (events ++ more) = addAll source l events >>= fun l => addAll source l more :=
  List.foldlM_append

/-- Outside of notes, an event is taken for itself. -/
theorem addAll_cons (hnote : l.note? = none) {event : Event} : addAll source l (event :: events) =
    l.addEvent ⟨source, event⟩ >>= fun l => addAll source l events := by
  rw [addAll, List.foldlM_cons, add, hnote]
  rfl

/-- The ends of lines change what a note would describe, and nothing else. -/
theorem addAll_blankEvents (source : Source) (start : Nat) (hnote : l.note? = none) (blank : Bytes) :
    ∃ target, addAll source l (blankEvents start blank) = .ok { l with target } := by
  induction blank generalizing l start with
  | nil => exact ⟨l.target, rfl⟩
  | cons byte blank ih =>
    rw [blankEvents]
    split
    · rw [List.singleton_append, addAll_cons hnote]
      exact ih (l := { l with target := .nothing }) _ hnote
    · exact ih _ hnote

theorem addAll_blankEvents_append (source : Source) (start : Nat) (hnote : l.note? = none) (blank : Bytes)
    (events : List Event) :
    ∃ target, addAll source l (blankEvents start blank ++ events) = addAll source { l with target } events := by
  obtain ⟨target, hblank⟩ := addAll_blankEvents source start hnote blank
  refine ⟨target, ?_⟩
  rw [addAll_append, hblank]
  rfl

/-- What wraps a value does not matter. -/
theorem addAll_wrapped {next : Scan.Place} (hnext : next = .arrayNext ∨ next = .objectNext)
    (hnote : l.note? = none) (hkeeps : KeepsNote l (addAll source l events)) :
    addAll source l (Scan.wrapped next start stop events) = addAll source l events := by
  rw [Scan.wrapped]
  rcases hnext with rfl | rfl
  all_goals
    change addAll source l (_ :: (events ++ [_])) = _
    rw [addAll_cons hnote]
    change addAll source l (events ++ [_]) = _
    rw [addAll_append]
    cases h : addAll source l events with
    | error => rfl
    | ok m =>
      change addAll source m [_] = _
      rw [addAll_cons ((hkeeps.of_ok h).trans hnote)]
      rfl

/-- A construct is taken with what is inside it. -/
theorem addAll_enclosed (hnote : l.note? = none) (c : Construct) :
    addAll source l (enclosed c start stop events) =
      l.addEvent ⟨source, .opening c, start, start⟩ >>= fun m =>
        addAll source m events >>= fun m => addAll source m [⟨.closing c, start, stop⟩] := by
  rw [enclosed, addAll_cons hnote]
  exact bind_congr fun m => addAll_append

/-- What is put somewhere is what the next note describes, whatever was so before. -/
theorem place_target (l : Loader) (target : NoteTarget) (node : Node) :
    place { l with target } node = l.place node := rfl

/-! ## Repetitions -/

/-- Fails at the first of some repetitions. -/
def refuse : List Json.Entry → Outcome Unit
  | [] => .ok ()
  | e :: _ => .error ((Cause.duplicateKey e.1).on e.2.1)

theorem refuse_append (entries more : List Json.Entry) :
    refuse (entries ++ more) = refuse entries >>= fun _ => refuse more := by
  cases entries <;> rfl

variable {header : Header} {properties : Properties} {items : List Node} {rest : List OpenNode}

/-- The names of the properties that are read so far. -/
def namesOf (properties : Properties) : List String := properties.map (·.1.name)

/-- The value of a property is refused if its name has come before. -/
theorem place_property {name : String} {mark : Mark}
    (hopen : l.openNodes = ⟨header, .object properties (some { name, mark })⟩ :: rest) (value : Value) :
    l.place value.asNode = refuse (Catalog.repeated (namesOf properties) [(name, mark, value)]) >>= fun _ =>
      .ok { l with openNodes := ⟨header, .object (({ name, mark }, value.asNode) :: properties) none⟩ :: rest,
                   target := .lastChild } := by
  have hnames : (properties.any fun p => p.1.name == name) = true ↔ name ∈ namesOf properties := by
    simp [namesOf]
  rw [place, hopen]
  simp only [OpenNode.place, Catalog.repeated, List.append_nil]
  by_cases hname : name ∈ namesOf properties
  · rw [if_pos (hnames.2 hname), if_pos hname]
    rfl
  · rw [if_neg (mt hnames.1 hname), if_neg hname]
    rfl

/-! ## Values -/

/-- A loader that takes the events of a value puts its node where it belongs, unless a name comes again inside. -/
def IsLoaded (t : Json) : Prop :=
  ∀ (source : Source) (start : Nat) (l : Loader), l.note? = none → source.Holds start t.bytes →
    Json.areValid t.names = true → addAll source l (t.events start) =
      refuse (t.repeats source start) >>= fun _ => l.place (t.value source start).asNode

/-- A loader that takes the events of items puts their nodes into the array that is open. -/
def AreLoaded (items : Json.Items) : Prop :=
  ∀ (source : Source) (start : Nat) (l : Loader) (header : Header) (nodes : List Node) (rest : List OpenNode),
    l.note? = none → l.openNodes = ⟨header, .array nodes⟩ :: rest → source.Holds start items.bytes →
    Json.areValid items.names = true → ∃ target, addAll source l (items.events start) =
      refuse (items.repeats source start) >>= fun _ => .ok { l with
        openNodes := ⟨header, .array ((Value.asNodes (items.values source start)).reverse ++ nodes)⟩ :: rest
        target }

/-- A loader that takes the events of members puts their nodes into the object that is open. -/
def AreLoadedMembers (members : Json.Members) : Prop :=
  ∀ (source : Source) (start : Nat) (l : Loader) (header : Header) (properties : Properties) (rest : List OpenNode),
    l.note? = none → l.openNodes = ⟨header, .object properties none⟩ :: rest → source.Holds start members.bytes →
    Json.areValid members.names = true → ∃ target, addAll source l (members.events start) =
      refuse (members.repeats source start (namesOf properties)) >>= fun _ => .ok { l with
        openNodes := ⟨header, .object
          ((Value.asProperties (members.entries source start)).reverse ++ properties) none⟩ :: rest
        target }

theorem IsLoaded.keepsNote {t : Json} (h : IsLoaded t) (hnote : l.note? = none)
    (hholds : source.Holds start t.bytes) (hvalid : Json.areValid t.names = true) :
    KeepsNote l (addAll source l (t.events start)) := by
  rw [h source start l hnote hholds hvalid]
  exact keepsNote_bind fun _ => keepsNote_place l _

theorem isLoaded_literal (token : Json.Literal) : IsLoaded (.literal token) := by
  intro source start l hnote _ _
  rw [Json.events, addAll_enclosed hnote]
  change addAll source l [_] = _
  rw [addAll_cons hnote]
  change l.place _ >>= pure = _
  rw [bind_pure]
  rfl

/-- **An array or an object is put where it belongs** when its end is read, unless what is inside fails. -/
theorem addAll_container (c : Construct) (type : JsonType) (empty full : Filling) {o : Outcome Unit}
    (hnote : l.note? = none)
    (hopening : ∀ mark : Mark, mark.kind = .opening c → l.addEvent mark = .ok (l.enter mark type empty))
    (hclosing : ∀ (m : Loader) (mark : Mark), mark.kind = .closing c → m.addEvent mark = m.leave mark)
    (hinside : ∀ mark : Mark, ∃ target, addAll source (l.enter mark type empty) events = o >>= fun _ =>
      .ok { l with openNodes := ⟨{ jsonType := type, basis := mark }, full⟩ :: l.openNodes, target }) :
    addAll source l (enclosed c start stop events) = o >>= fun _ =>
      l.place (OpenNode.close ⟨{ jsonType := type, basis := ⟨source, .closing c, start, stop⟩ }, full⟩
        ⟨source, .closing c, start, stop⟩) := by
  obtain ⟨target, hinside⟩ := hinside ⟨source, .opening c, start, start⟩
  rw [addAll_enclosed hnote, hopening _ rfl]
  change addAll source (l.enter _ type empty) events >>= _ = _
  rw [hinside, bind_assoc]
  refine bind_congr fun _ => ?_
  change addAll source { l with openNodes := _ :: l.openNodes, target } [_] = _
  refine (addAll_cons (l := { l with openNodes := _ :: l.openNodes, target }) hnote).trans ?_
  rw [hclosing _ _ rfl]
  exact bind_pure _

theorem isLoaded_emptyArray (blank : Json.Blank) : IsLoaded (.emptyArray blank) := by
  intro source start l hnote _ _
  refine addAll_container .array .array (.array []) (.array []) (o := .ok ()) hnote
    (fun _ h => by rw [addEvent, h]) (fun _ _ h => by rw [addEvent, h]) fun mark => ?_
  exact addAll_blankEvents (l := l.enter mark .array (.array [])) source _ hnote blank.1

theorem isLoaded_emptyObject (blank : Json.Blank) : IsLoaded (.emptyObject blank) := by
  intro source start l hnote _ _
  refine addAll_container .object .object (.object [] none) (.object [] none) (o := .ok ()) hnote
    (fun _ h => by rw [addEvent, h]) (fun _ _ h => by rw [addEvent, h]) fun mark => ?_
  exact addAll_blankEvents (l := l.enter mark .object (.object [] none)) source _ hnote blank.1

theorem isLoaded_array {items : Json.Items} (hitems : AreLoaded items) : IsLoaded (.array items) := by
  intro source start l hnote h hvalid
  rw [Json.bytes] at h
  have hinside := fun mark => hitems source (start + 1) (l.enter mark .array (.array [])) _ _ _ hnote rfl
    h.tail.left hvalid
  rw [Json.events, addAll_container .array .array (.array []) _ hnote
    (fun _ h => by rw [addEvent, h]) (fun _ _ h => by rw [addEvent, h]) hinside, List.append_nil]
  change _ >>= (fun _ => l.place (.array _ (List.reverse (List.reverse _)))) = _
  rw [List.reverse_reverse]
  rfl

theorem isLoaded_object {members : Json.Members} (hmembers : AreLoadedMembers members) :
    IsLoaded (.object members) := by
  intro source start l hnote h hvalid
  rw [Json.bytes] at h
  have hinside := fun mark => hmembers source (start + 1) (l.enter mark .object (.object [] none)) _ _ _ hnote rfl
    h.tail.left hvalid
  rw [Json.events, addAll_container .object .object (.object [] none) _ hnote
    (fun _ h => by rw [addEvent, h]) (fun _ _ h => by rw [addEvent, h]) hinside, List.append_nil]
  change refuse (members.repeats source (start + 1) []) >>= (fun _ =>
    l.place (.object _ (List.reverse (List.reverse _)))) = _
  rw [Json.repeats, Json.value, List.reverse_reverse]
  -- a name that comes again is refused, so there is nothing to gather
  cases hrepeats : members.repeats source (start + 1) [] with
  | cons e more => rfl
  | nil =>
    rw [Catalog.gather_eq_self (Json.Members.nodup_of_repeats_eq_nil hrepeats)]
    rfl

/-- A value in an open array or object is put there, and the blanks after it do not matter. -/
theorem addAll_value {t : Json} {next : Scan.Place} {valueStart valueStop : Nat} {o : Outcome Unit}
    {nodes : List OpenNode} (ht : IsLoaded t) (hnext : next = .arrayNext ∨ next = .objectNext)
    (hnote : l.note? = none) (h : source.Holds valueStart t.bytes) (hvalid : Json.areValid t.names = true)
    (hplace : l.place (t.value source valueStart).asNode = o >>= fun _ =>
      .ok { l with openNodes := nodes, target := .lastChild }) (after : Json.Blank) :
    ∃ target, addAll source l (Scan.wrapped next valueStart stop (t.events valueStart) ++
        (blankEvents valueStop after.1 ++ events)) =
      refuse (t.repeats source valueStart) >>= fun _ => o >>= fun _ =>
        addAll source { l with openNodes := nodes, target } events := by
  obtain ⟨target, hafter⟩ := addAll_blankEvents_append source valueStop
    (l := { l with openNodes := nodes, target := .lastChild }) hnote after.1 events
  refine ⟨target, ?_⟩
  rw [addAll_append, addAll_wrapped hnext hnote (ht.keepsNote hnote h hvalid), ht source valueStart l hnote h hvalid,
    hplace, bind_assoc, bind_assoc]
  exact bind_congr fun _ => bind_congr fun _ => hafter

/-- An item and the blanks around it are put into the array that is open. -/
theorem addAll_item {item : Json} {itemStart itemStop : Nat} (hitem : IsLoaded item) (hnote : l.note? = none)
    (hopen : l.openNodes = ⟨header, .array items⟩ :: rest) (before after : Json.Blank) (events : List Event)
    (h : source.Holds itemStart item.bytes) (hvalid : Json.areValid item.names = true) :
    ∃ target, addAll source l (blankEvents start before.1 ++
        (Scan.wrapped .arrayNext itemStart stop (item.events itemStart) ++
          (blankEvents itemStop after.1 ++ events))) =
      refuse (item.repeats source itemStart) >>= fun _ => addAll source { l with
        openNodes := ⟨header, .array ((item.value source itemStart).asNode :: items)⟩ :: rest
        target } events := by
  obtain ⟨target, hbefore⟩ := addAll_blankEvents_append source start hnote before.1 _
  rw [hbefore]
  refine addAll_value (l := { l with target }) (o := .ok ()) hitem (.inl rfl) hnote h hvalid ?_ after
  rw [place_target, place, hopen]
  rfl

theorem areLoaded_last {item : Json} (hitem : IsLoaded item) (before after : Json.Blank) :
    AreLoaded (.last before item after) := by
  intro source start l header nodes rest hnote hopen h hvalid
  rw [Json.Items.bytes] at h
  obtain ⟨target, hall⟩ := addAll_item hitem hnote hopen before after [] h.right.left hvalid
  refine ⟨target, ?_⟩
  rw [Json.Items.events, ← List.append_nil (blankEvents _ after.1), hall]
  rfl

theorem areLoaded_more {item : Json} {more : Json.Items} (hitem : IsLoaded item) (hmore : AreLoaded more)
    (before after : Json.Blank) : AreLoaded (.more before item after more) := by
  intro source start l header nodes rest hnote hopen h hvalid
  rw [Json.Items.bytes] at h
  rw [Json.Items.names, Json.areValid_append, Bool.and_eq_true] at hvalid
  obtain ⟨first, hall⟩ := addAll_item hitem hnote hopen before after _ h.right.left hvalid.1
  obtain ⟨target, hrest⟩ := hmore source _ { l with openNodes := _, target := first } header _ rest hnote rfl
    h.right.right.right.tail hvalid.2
  refine ⟨target, ?_⟩
  rw [Json.Items.events, hall, hrest, Json.Items.repeats, refuse_append, bind_assoc, Json.Items.values,
    Value.asNodes, List.reverse_cons, List.append_assoc]
  rfl

/-- How a property is written whose name begins at some offset. -/
def keyOf (source : Source) (start : Nat) (name : Json.Name) : PropertyKey :=
  { name := name.text, mark := Json.spanOf source .objectKey start name.1 }

/-- The name of a property is taken for the next value. -/
theorem addAll_objectKey {name : Json.Name} (hname : (Quoted.decode? name.1).isSome = true) (hnote : l.note? = none)
    (hopen : l.openNodes = ⟨header, .object properties none⟩ :: rest) (h : source.Holds start name.1) :
    addAll source l (enclosed .objectKey start (start + name.1.length) [] ++ events) =
      addAll source { l with openNodes := ⟨header, .object properties (some (keyOf source start name))⟩ :: rest }
        events := by
  obtain ⟨text, htext⟩ := Option.isSome_iff_exists.1 hname
  have htake : l.takeName (Json.spanOf source .objectKey start name.1) = .ok { l with
      openNodes := ⟨header, .object properties (some (keyOf source start name))⟩ :: rest } := by
    rw [takeName, hopen, h.bytes_spanOf, Literal.string, keyOf, Json.Name.text, htext]
    change Except.ok (l.takeKey _) = _
    rw [takeKey, hopen]
    rfl
  change addAll source l (_ :: _ :: events) = _
  rw [addAll_cons hnote]
  change addAll source l (_ :: events) = _
  rw [addAll_cons hnote]
  change l.takeName (Json.spanOf source .objectKey start name.1) >>= _ = _
  rw [htake]
  rfl

theorem addAll_colon (source : Source) (start : Nat) (hnote : l.note? = none) (colon : Json.Colon)
    (events : List Event) :
    ∃ target, addAll source l (colon.events start ++ events) = addAll source { l with target } events := by
  obtain ⟨first, hbefore⟩ := addAll_blankEvents_append source start hnote colon.before.1
    (blankEvents (start + colon.before.1.length + 1) colon.after.1 ++ events)
  obtain ⟨target, hafter⟩ := addAll_blankEvents_append source (start + colon.before.1.length + 1)
    (l := { l with target := first }) hnote colon.after.1 events
  exact ⟨target, by rw [Json.Colon.events, List.append_assoc, hbefore, hafter]⟩

/-- A member and the blanks inside and around it are put into the object that is open. -/
theorem addAll_member {value : Json} {nameStart nameStop valueStart valueStop : Nat} (hvalue : IsLoaded value)
    (hnote : l.note? = none) (hopen : l.openNodes = ⟨header, .object properties none⟩ :: rest)
    (before : Json.Blank) (name : Json.Name) (colon : Json.Colon) (after : Json.Blank) (events : List Event)
    (hholds : source.Holds nameStart name.1) (h : source.Holds valueStart value.bytes)
    (hname : (Quoted.decode? name.1).isSome = true) (hvalid : Json.areValid value.names = true) :
    ∃ target, addAll source l (blankEvents start before.1 ++
        (enclosed .objectKey nameStart (nameStart + name.1.length) [] ++
          (colon.events nameStop ++
            (Scan.wrapped .objectNext valueStart stop (value.events valueStart) ++
              (blankEvents valueStop after.1 ++ events))))) =
      refuse (value.repeats source valueStart) >>= fun _ =>
        refuse (Catalog.repeated (namesOf properties)
          [(name.text, Json.spanOf source .objectKey nameStart name.1, value.value source valueStart)]) >>= fun _ =>
            addAll source { l with
              openNodes := ⟨header, .object
                ((keyOf source nameStart name, (value.value source valueStart).asNode) :: properties) none⟩ :: rest
              target } events := by
  obtain ⟨first, hbefore⟩ := addAll_blankEvents_append source start hnote before.1 _
  rw [hbefore, addAll_objectKey (l := { l with target := first }) hname hnote hopen hholds]
  obtain ⟨second, hcolon⟩ := addAll_colon source nameStop (l := { l with
    openNodes := ⟨header, .object properties (some (keyOf source nameStart name))⟩ :: rest
    target := first }) hnote colon _
  rw [hcolon]
  exact addAll_value (l := { l with openNodes := _, target := second }) hvalue (.inr rfl) hnote h hvalid
    (place_property rfl _) after

theorem areLoadedMembers_last {value : Json} (hvalue : IsLoaded value) (before : Json.Blank) (name : Json.Name)
    (colon : Json.Colon) (after : Json.Blank) : AreLoadedMembers (.last before name colon value after) := by
  intro source start l header properties rest hnote hopen h hvalid
  rw [Json.Members.bytes] at h
  rw [Json.Members.names, Json.areValid_cons, Bool.and_eq_true] at hvalid
  obtain ⟨target, hall⟩ := addAll_member hvalue hnote hopen before name colon after [] h.right.left
    h.right.right.right.left hvalid.1 hvalid.2
  refine ⟨target, ?_⟩
  rw [Json.Members.events, ← List.append_nil (blankEvents _ after.1), hall, Json.Members.repeats, refuse_append,
    bind_assoc]
  rfl

theorem areLoadedMembers_more {value : Json} {more : Json.Members} (hvalue : IsLoaded value)
    (hmore : AreLoadedMembers more) (before : Json.Blank) (name : Json.Name) (colon : Json.Colon)
    (after : Json.Blank) : AreLoadedMembers (.more before name colon value after more) := by
  intro source start l header properties rest hnote hopen h hvalid
  rw [Json.Members.bytes] at h
  rw [Json.Members.names, Json.areValid_cons, Json.areValid_append, Bool.and_eq_true, Bool.and_eq_true] at hvalid
  obtain ⟨first, hall⟩ := addAll_member hvalue hnote hopen before name colon after _ h.right.left
    h.right.right.right.left hvalid.1 hvalid.2.1
  obtain ⟨target, hrest⟩ := hmore source _ { l with openNodes := _, target := first } header _ rest hnote rfl
    h.right.right.right.right.right.tail hvalid.2.2
  refine ⟨target, ?_⟩
  rw [Json.Members.events, hall, hrest, Json.Members.repeats, refuse_append, refuse_append, bind_assoc, bind_assoc,
    Json.Members.entries, Value.asProperties, List.reverse_cons, List.append_assoc]
  rfl

mutual

/-- **A loader that takes the events of a value puts its node where it belongs**, or fails at the first name that
comes again. -/
theorem isLoaded : ∀ t : Json, IsLoaded t
  | .literal token => isLoaded_literal token
  | .emptyArray blank => isLoaded_emptyArray blank
  | .array items => isLoaded_array (areLoaded items)
  | .emptyObject blank => isLoaded_emptyObject blank
  | .object members => isLoaded_object (areLoadedMembers members)

theorem areLoaded : ∀ items : Json.Items, AreLoaded items
  | .last before item after => areLoaded_last (isLoaded item) before after
  | .more before item after more => areLoaded_more (isLoaded item) (areLoaded more) before after

theorem areLoadedMembers : ∀ members : Json.Members, AreLoadedMembers members
  | .last before name colon value after => areLoadedMembers_last (isLoaded value) before name colon after
  | .more before name colon value after more =>
    areLoadedMembers_more (isLoaded value) (areLoadedMembers more) before name colon after

end

/-- What a loader makes of the events of a whole text. -/
theorem addAll_document (t : Json.Document) (hbytes : t.bytes = source.content)
    (hvalid : Json.areValid t.root.names = true) (hnote : l.note? = none) (hopen : l.openNodes = []) :
    ∃ target, addAll source l t.events = refuse (t.root.repeats source t.before.1.length) >>= fun _ =>
      .ok { l with root? := some (t.value source).asNode, target } := by
  obtain ⟨first, hbefore⟩ := addAll_blankEvents_append source 0 hnote t.before.1
    (t.root.events t.before.1.length ++ (blankEvents (t.before.1.length + t.root.bytes.length) t.after.1 ++
      [⟨.endTop, t.before.1.length + t.root.bytes.length, t.before.1.length + t.root.bytes.length⟩]))
  obtain ⟨target, hafter⟩ := addAll_blankEvents_append source (t.before.1.length + t.root.bytes.length)
    (l := { l with root? := some (t.value source).asNode, target := .root }) hnote t.after.1
    [⟨.endTop, t.before.1.length + t.root.bytes.length, t.before.1.length + t.root.bytes.length⟩]
  have hplace : place { l with target := first } (t.value source).asNode =
      .ok { l with root? := some (t.value source).asNode, target := .root } := by
    rw [place_target, place, hopen]
  refine ⟨target, ?_⟩
  rw [Json.Document.events, hbefore, addAll_append,
    isLoaded t.root source _ { l with target := first } hnote (t.holds_root hbytes) hvalid, bind_assoc]
  refine bind_congr fun _ => ?_
  refine (congrArg (· >>= _) hplace).trans ?_
  refine hafter.trans ?_
  rw [addAll_cons (l := { l with root? := _, target }) hnote]
  rfl

end Loader

namespace Schema

variable {source : Source}

/-- A plain text is loaded as the node of its value, unless a name comes again in one of its objects. -/
theorem load_document {t : Json.Document} (hbytes : t.bytes = source.content) (hdepth : t.root.depth ≤ 256)
    (hvalid : Json.areValid t.root.names = true) (owner : String) :
    Schema.load source owner = Loader.refuse (t.root.repeats source t.before.1.length) >>= fun _ =>
      .ok { root := (t.value source).asNode } := by
  have hread : Scan.read {} source.content = ⟨t.events, none⟩ := by
    rw [← hbytes]
    exact Scan.read_document {} t hdepth
  obtain ⟨target, hall⟩ := Loader.addAll_document (l := { unnamed := { source, owner } }) t hbytes hvalid rfl rfl
  rw [Schema.load, Scan.foldMarks, hread]
  change (Loader.addAll source { unnamed := { source, owner } } t.events >>= fun l => pure l) >>= _ = _
  rw [bind_pure, hall, bind_assoc]
  rfl

/-- **A value and a schema are read from a plain text alike.**  A text that is parsed as a value is loaded as the
node of the value, with no rules, no comments and no unnamed types, if in each of its objects all names are
distinct.  Otherwise loading fails at a name that has come before in its object.  Of all of these it is the one whose
value ends first, which need not be the one that is written first: names inside the value come before it. -/
theorem load_of_parse {v : Value} (h : Value.parse source = .ok v) (owner : String) :
    ∃ t : Json.Document, t.bytes = source.content ∧ t.value source = v ∧
      ((∀ members ∈ t.root.objects source t.before.1.length, (Catalog.keys members).Nodup) →
        Schema.load source owner = .ok { root := v.asNode, types := [] }) ∧
      ((∃ members ∈ t.root.objects source t.before.1.length, ¬ (Catalog.keys members).Nodup) →
        ∃ e : Json.Entry, t.Repeats source e ∧ (∀ other, t.Repeats source other → other = e ∨ e.stop < other.stop) ∧
          Schema.load source owner = .error ((Cause.duplicateKey e.1).on e.2.1)) := by
  obtain ⟨t, hbytes, hdepth, hvalid, rfl⟩ := Value.exists_document_of_parse_eq_ok h
  have hload := load_document hbytes hdepth hvalid owner
  refine ⟨t, hbytes, rfl, fun hnodup => ?_, ?_⟩
  · rw [hload, (t.repeats_eq_nil_iff source).2 hnodup]
    rfl
  · rintro ⟨members, hmem, hrepeat⟩
    cases hrepeats : t.root.repeats source t.before.1.length with
    | nil => exact (hrepeat ((t.repeats_eq_nil_iff source).1 hrepeats members hmem)).elim
    | cons e more =>
      have hsorted := (t.root.inOrder_repeats source t.before.1.length).sorted
      rw [hrepeats, List.pairwise_cons] at hsorted
      have hrepeats_iff : ∀ {other}, t.Repeats source other ↔ other = e ∨ other ∈ more := by
        intro other
        rw [← t.mem_repeats_iff, hrepeats, List.mem_cons]
      refine ⟨e, hrepeats_iff.2 (.inl rfl), fun other hother => ?_, ?_⟩
      · exact (hrepeats_iff.1 hother).imp_right (hsorted.1 other)
      · rw [hload, hrepeats]
        rfl

end Schema

/-! ## A text with an object inside an object -/

namespace Json

theorem isString_letter (letter : UInt8) (hquote : Bytes.char letter ≠ '"') (hescape : Bytes.char letter ≠ '\\')
    (hcontrol : 0x20 ≤ letter.toNat) : IsString [Char.toUInt8 '"', letter, Char.toUInt8 '"'] :=
  .quoted (.plain hquote hescape hcontrol .close)

/-- The name `"a"`. -/
def nameA : Name :=
  ⟨_, isString_letter (Char.toUInt8 'a') (by decide) (by decide) (by decide)⟩

/-- The name `"b"`. -/
def nameB : Name :=
  ⟨_, isString_letter (Char.toUInt8 'b') (by decide) (by decide) (by decide)⟩

/-- The number `1`. -/
def one : Json :=
  .literal ⟨[Char.toUInt8 '1'], .number (.positive
    ⟨[Char.toUInt8 '1'], [], [], rfl, .digits (by decide) (by decide) nofun, .missing, .missing⟩)⟩

/-- The text `{"a":1,outer:{"b":1,inner:1}}`. -/
def nested (outer inner : Name) : Document where
  before := noBlank
  root := .object (.more noBlank nameA bareColon one noBlank (.last noBlank outer bareColon
    (.object (.more noBlank nameB bareColon one noBlank (.last noBlank inner bareColon one noBlank))) noBlank))
  after := noBlank

/-- A document with such a text. -/
def nestedSource (outer inner : Name) : Source := ⟨"test", (nested outer inner).bytes⟩

theorem parse_nested {outer inner : Name} (hvalid : areValid (nested outer inner).root.names = true) :
    Value.parse (nestedSource outer inner) = .ok ((nested outer inner).value (nestedSource outer inner)) :=
  Value.parse_eq_ok_of_areValid rfl (by decide : 2 ≤ 256) hvalid

/-- In `{"a":1,"a":{"b":1,"b":1}}` two names come again.  The value of the second one ends first. -/
theorem exists_repeats_nested : ∃ inner outer : Entry,
    (∀ e, (nested nameA nameB).Repeats (nestedSource nameA nameB) e ↔ e = inner ∨ e = outer) ∧
      (inner.1 = "b" ∧ inner.2.1 = ⟨nestedSource nameA nameB, .closing .objectKey, 18, 21⟩ ∧ inner.stop = 23) ∧
      (outer.1 = "a" ∧ outer.2.1 = ⟨nestedSource nameA nameB, .closing .objectKey, 7, 10⟩ ∧ outer.stop = 24) := by
  have hkeys : ((nested nameA nameB).root.repeats (nestedSource nameA nameB) 0).map (fun e => (e.1, e.2.1, e.stop)) =
      [("b", ⟨nestedSource nameA nameB, .closing .objectKey, 18, 21⟩, 23),
        ("a", ⟨nestedSource nameA nameB, .closing .objectKey, 7, 10⟩, 24)] := by decide +kernel
  obtain ⟨inner, rest, hrepeats, hinner, hrest⟩ := List.map_eq_cons_iff.1 hkeys
  obtain ⟨outer, nothing, rfl, houter, hnothing⟩ := List.map_eq_cons_iff.1 hrest
  obtain rfl := List.map_eq_nil_iff.1 hnothing
  refine ⟨inner, outer, fun e => ?_, by simpa using hinner, by simpa using houter⟩
  rw [← Document.mem_repeats_iff]
  change e ∈ (nested nameA nameB).root.repeats (nestedSource nameA nameB) 0 ↔ _
  rw [hrepeats, List.mem_cons, List.mem_singleton]

end Json

namespace Schema

open Json (nested nestedSource nameA nameB)

/-- In `{"a":1,"b":{"b":1,"a":1}}` no name comes again in its object.  In `{"a":1,"a":{"b":1,"b":1}}` the name that is
reported is the last one. -/
theorem load_of_parse_nested :
    Schema.load (nestedSource nameB nameA) "test" =
        .ok { root := ((nested nameB nameA).value (nestedSource nameB nameA)).asNode, types := [] } ∧
      Schema.load (nestedSource nameA nameB) "test" =
        .error ((Cause.duplicateKey "b").on ⟨nestedSource nameA nameB, .closing .objectKey, 18, 21⟩) := by
  constructor
  · have hvalid : Json.areValid (nested nameB nameA).root.names = true := by decide +kernel
    obtain ⟨t, hbytes, -, hload, -⟩ := load_of_parse (Json.parse_nested hvalid) "test"
    obtain rfl : t = nested nameB nameA := Json.Document.eq_of_bytes_eq hbytes
    exact hload (by decide +kernel)
  · have hvalid : Json.areValid (nested nameA nameB).root.names = true := by decide +kernel
    obtain ⟨t, hbytes, -, -, hload⟩ := load_of_parse (Json.parse_nested hvalid) "test"
    obtain rfl : t = nested nameA nameB := Json.Document.eq_of_bytes_eq hbytes
    obtain ⟨e, he, hfirst, hload⟩ := hload (by decide +kernel)
    obtain ⟨inner, outer, hrepeats, ⟨hname, hkey, hinner⟩, -, -, houter⟩ := Json.exists_repeats_nested
    obtain rfl : inner = e := by
      rcases (hrepeats e).1 he with rfl | rfl
      · rfl
      · refine (hfirst inner ((hrepeats inner).2 (.inl rfl))).resolve_right fun hlt => ?_
        rw [hinner, houter] at hlt
        exact absurd hlt (by decide)
    rw [hload, hname, hkey]

/-- **The name that comes again first in a text need not be the one that is reported**: in
`{"a":1,"a":{"b":1,"b":1}}` it is the second `"a"`, and loading does not fail there. -/
theorem load_ne_first_written :
    Value.parse (nestedSource nameA nameB) = .ok ((nested nameA nameB).value (nestedSource nameA nameB)) ∧
      ∃ e : Json.Entry, (nested nameA nameB).Repeats (nestedSource nameA nameB) e ∧
        (∀ other, (nested nameA nameB).Repeats (nestedSource nameA nameB) other →
          other = e ∨ e.2.1.start < other.2.1.start) ∧
        Schema.load (nestedSource nameA nameB) "test" ≠ .error ((Cause.duplicateKey e.1).on e.2.1) := by
  have hvalid : Json.areValid (nested nameA nameB).root.names = true := by decide +kernel
  obtain ⟨inner, outer, hrepeats, ⟨-, hinner, -⟩, hname, houter, -⟩ := Json.exists_repeats_nested
  refine ⟨Json.parse_nested hvalid, outer, (hrepeats outer).2 (.inr rfl), fun other hother => ?_, ?_⟩
  · rcases (hrepeats other).1 hother with rfl | rfl
    · right
      rw [hinner, houter]
      decide
    · exact .inl rfl
  · have hdepth : (nested nameA nameB).root.depth ≤ 256 := by decide
    have hrefuse : Loader.refuse ((nested nameA nameB).root.repeats (nestedSource nameA nameB) 0) =
        .error ((Cause.duplicateKey "b").on ⟨nestedSource nameA nameB, .closing .objectKey, 18, 21⟩) := by
      decide +kernel
    have hbytes : (nested nameA nameB).bytes = (nestedSource nameA nameB).content := rfl
    have hload := load_document hbytes hdepth hvalid "test"
    change _ = Loader.refuse ((nested nameA nameB).root.repeats (nestedSource nameA nameB) 0) >>= _ at hload
    rw [hrefuse] at hload
    rw [hload, hname]
    intro herror
    have hcause := congrArg Problem.cause (Except.error.inj herror)
    exact absurd (Cause.duplicateKey.inj hcause) (by decide)

end Schema
end ExampleSchema
