import ExampleSchema.Proofs.Json.Recognition

/-!
# Names that come again

In the text of an object a name may come more than once.  A member whose name has come before it in its object
is a repetition, whatever is inside the values between the two.  Repetitions have an order of their own: a value
ends before the objects that it is in, so a member is complete only after every member inside its value.

* `Catalog.repeated`: the entries whose names have come before, and `mem_repeated_iff`, which of a list they are.
* `Json.objects`: the members of every object of a text.
* `Json.repeats`: the repetitions of a text, in the order in which their values end.
* `Json.mem_repeats_iff`: they are the members whose names have come before in their objects.
* `Json.inOrder_repeats`: their values end one after another.
-/

namespace ExampleSchema

/-! ## Entries -/

namespace Catalog

variable {α : Type} {seen : List String} {entries : List (String × α)} {e : String × α}

/-- The entries whose names have come before, in an entry or among some names seen before the entries. -/
def repeated (seen : List String) : List (String × α) → List (String × α)
  | [] => []
  | e :: rest => (if e.1 ∈ seen then [e] else []) ++ repeated (e.1 :: seen) rest

theorem mem_repeated_iff : e ∈ repeated seen entries ↔
    ∃ before after, entries = before ++ e :: after ∧ (e.1 ∈ seen ∨ e.1 ∈ keys before) := by
  induction entries generalizing seen with
  | nil => simp [repeated]
  | cons first rest ih =>
    have hfirst : e ∈ (if first.1 ∈ seen then [first] else []) ↔ e = first ∧ e.1 ∈ seen := by
      split
      · next h => rw [List.mem_singleton, iff_self_and]; rintro rfl; exact h
      · next h => simpa using fun heq => heq ▸ h
    rw [repeated, List.mem_append, hfirst, ih]
    constructor
    · rintro (⟨rfl, hseen⟩ | ⟨before, after, rfl, hname⟩)
      · exact ⟨[], rest, rfl, .inl hseen⟩
      · refine ⟨first :: before, after, rfl, ?_⟩
        rw [keys, List.map_cons, List.mem_cons, or_left_comm, ← or_assoc, ← List.mem_cons]
        exact hname
    · rintro ⟨before, after, heq, hname⟩
      cases before with
      | nil =>
        obtain ⟨rfl, rfl⟩ := List.cons.inj heq
        exact .inl ⟨rfl, hname.resolve_right (List.not_mem_nil)⟩
      | cons _ before =>
        obtain ⟨rfl, rfl⟩ := List.cons.inj heq
        refine .inr ⟨before, after, rfl, ?_⟩
        rw [keys, List.map_cons, List.mem_cons, or_left_comm, ← or_assoc, ← List.mem_cons] at hname
        exact hname

/-- Nothing is repeated where the names are distinct and none of them has been seen. -/
theorem repeated_eq_nil_iff :
    repeated seen entries = [] ↔ (∀ name ∈ keys entries, name ∉ seen) ∧ (keys entries).Nodup := by
  induction entries generalizing seen with
  | nil => simp [repeated, keys]
  | cons first rest ih =>
    have hfirst : (if first.1 ∈ seen then [first] else []) = [] ↔ first.1 ∉ seen := by
      split <;> simp_all
    have hrest : (∀ name ∈ keys rest, name ∉ first.1 :: seen) ↔
        first.1 ∉ keys rest ∧ ∀ name ∈ keys rest, name ∉ seen := by
      constructor
      · intro h
        exact ⟨fun hmem => h _ hmem (List.mem_cons_self ..), fun name hname hseen => h name hname (.tail _ hseen)⟩
      · rintro ⟨hfirst, hseen⟩ name hname hmem
        rcases List.mem_cons.1 hmem with rfl | hmem
        · exact hfirst hname
        · exact hseen name hname hmem
    rw [repeated, List.append_eq_nil_iff, hfirst, ih, hrest]
    change _ ↔ (∀ name ∈ first.1 :: keys rest, name ∉ seen) ∧ (first.1 :: keys rest).Nodup
    rw [List.forall_mem_cons, List.nodup_cons]
    tauto

end Catalog

namespace Json

/-- A member of an object as it is read: its name, the mark of the name and its value. -/
abbrev Entry := String × Mark × Value

/-- Where the value of a member ends. -/
def Entry.stop (e : Entry) : Nat := e.2.2.mark.stop

variable {source : Source} {start mid stop : Nat}

/-- A value ends behind its last byte. -/
theorem stop_value (t : Json) (source : Source) (start : Nat) :
    (t.value source start).mark.stop = start + t.bytes.length := by
  cases t <;> rfl

/-! ## Objects and repetitions -/

mutual

/-- The members of every object in a value that is written from some offset on. -/
def objects (source : Source) (start : Nat) : Json → List (List Entry)
  | literal _ | emptyArray _ => []
  | array items => items.objects source (start + 1)
  | emptyObject _ => [[]]
  | object members => members.entries source (start + 1) :: members.objects source (start + 1)

/-- The members of every object in some items. -/
def Items.objects (source : Source) (start : Nat) : Items → List (List Entry)
  | .last before item _ => item.objects source (start + before.1.length)
  | .more before item after rest =>
    let itemStart := start + before.1.length
    let afterStart := itemStart + item.bytes.length
    item.objects source itemStart ++ rest.objects source (afterStart + after.1.length + 1)

/-- The members of every object in the values of some members. -/
def Members.objects (source : Source) (start : Nat) : Members → List (List Entry)
  | .last before name colon value _ =>
    value.objects source (start + before.1.length + name.1.length + colon.bytes.length)
  | .more before name colon value after rest =>
    let valueStart := start + before.1.length + name.1.length + colon.bytes.length
    let afterStart := valueStart + value.bytes.length
    value.objects source valueStart ++ rest.objects source (afterStart + after.1.length + 1)

end

mutual

/-- The members of a value whose names have come before in their objects, in the order in which their values end. -/
def repeats (source : Source) (start : Nat) : Json → List Entry
  | literal _ | emptyArray _ | emptyObject _ => []
  | array items => items.repeats source (start + 1)
  | object members => members.repeats source (start + 1) []

/-- The repetitions in some items. -/
def Items.repeats (source : Source) (start : Nat) : Items → List Entry
  | .last before item _ => item.repeats source (start + before.1.length)
  | .more before item after rest =>
    let itemStart := start + before.1.length
    let afterStart := itemStart + item.bytes.length
    item.repeats source itemStart ++ rest.repeats source (afterStart + after.1.length + 1)

/-- The repetitions among some members and in their values; other names of the object have come before. -/
def Members.repeats (source : Source) (start : Nat) (seen : List String) : Members → List Entry
  | .last before name colon value _ =>
    let nameStart := start + before.1.length
    let valueStart := nameStart + name.1.length + colon.bytes.length
    value.repeats source valueStart ++ Catalog.repeated seen
      [(name.text, spanOf source .objectKey nameStart name.1, value.value source valueStart)]
  | .more before name colon value after rest =>
    let nameStart := start + before.1.length
    let valueStart := nameStart + name.1.length + colon.bytes.length
    let afterStart := valueStart + value.bytes.length
    value.repeats source valueStart ++ (Catalog.repeated seen
      [(name.text, spanOf source .objectKey nameStart name.1, value.value source valueStart)] ++
        rest.repeats source (afterStart + after.1.length + 1) (name.text :: seen))

end

/-- A member of some object in a text whose name has come before in the object. -/
def Document.Repeats (t : Document) (source : Source) (e : Entry) : Prop :=
  ∃ members ∈ t.root.objects source t.before.1.length,
    ∃ before after, members = before ++ e :: after ∧ e.1 ∈ Catalog.keys before

/-- A member of one of some objects whose name has come before in its object. -/
def RepeatsIn (objects : List (List Entry)) (e : Entry) : Prop :=
  ∃ members ∈ objects, e ∈ Catalog.repeated [] members

theorem repeatsIn_append_iff {objects others : List (List Entry)} {e : Entry} :
    RepeatsIn (objects ++ others) e ↔ RepeatsIn objects e ∨ RepeatsIn others e := by
  simp only [RepeatsIn, List.mem_append, or_and_right, exists_or]

theorem repeatsIn_cons_iff {members : List Entry} {others : List (List Entry)} {e : Entry} :
    RepeatsIn (members :: others) e ↔ e ∈ Catalog.repeated [] members ∨ RepeatsIn others e := by
  simp only [RepeatsIn, List.mem_cons, or_and_right, exists_or, exists_eq_left]

mutual

/-- **Repetitions are the members whose names have come before.** -/
theorem mem_repeats_iff {e : Entry} : ∀ (t : Json) {start : Nat},
    e ∈ t.repeats source start ↔ RepeatsIn (t.objects source start) e
  | .literal _, _ | .emptyArray _, _ | .emptyObject _, _ => by simp [repeats, objects, RepeatsIn, Catalog.repeated]
  | .array items, _ => by rw [repeats, objects, mem_repeats_items_iff items]
  | .object members, _ => by rw [repeats, objects, mem_repeats_members_iff members, repeatsIn_cons_iff]

theorem mem_repeats_items_iff {e : Entry} : ∀ (items : Items) {start : Nat},
    e ∈ items.repeats source start ↔ RepeatsIn (items.objects source start) e
  | .last before item after, _ => by rw [Items.repeats, Items.objects, mem_repeats_iff item]
  | .more before item after rest, _ => by
    simp only [Items.repeats, Items.objects]
    rw [List.mem_append, repeatsIn_append_iff, mem_repeats_iff item, mem_repeats_items_iff rest]

theorem mem_repeats_members_iff {e : Entry} : ∀ (members : Members) {start : Nat} {seen : List String},
    e ∈ members.repeats source start seen ↔
      e ∈ Catalog.repeated seen (members.entries source start) ∨ RepeatsIn (members.objects source start) e
  | .last before name colon value after, _, _ => by
    simp only [Members.repeats, Members.objects, Members.entries]
    rw [List.mem_append, mem_repeats_iff value, or_comm]
  | .more before name colon value after rest, _, _ => by
    simp only [Members.repeats, Members.objects, Members.entries, Catalog.repeated, List.append_nil]
    rw [List.mem_append, List.mem_append, List.mem_append, repeatsIn_append_iff, mem_repeats_iff value,
      mem_repeats_members_iff rest, or_left_comm, or_left_comm (a := RepeatsIn _ e), or_assoc]

end

theorem Document.mem_repeats_iff (t : Document) {e : Entry} :
    e ∈ t.root.repeats source t.before.1.length ↔ t.Repeats source e := by
  rw [Json.mem_repeats_iff, RepeatsIn, Repeats]
  refine exists_congr fun members => and_congr_right fun _ => ?_
  rw [Catalog.mem_repeated_iff]
  simp only [List.not_mem_nil, false_or]

/-! ## The order of repetitions -/

/-- The values of some members end one after another, between two offsets. -/
structure InOrder (start stop : Nat) (entries : List Entry) : Prop where
  sorted : entries.Pairwise fun e other => e.stop < other.stop
  within : ∀ e ∈ entries, start ≤ e.stop ∧ e.stop < stop

theorem InOrder.nil : InOrder start stop [] := ⟨.nil, List.forall_mem_nil _⟩

theorem InOrder.mono {start' stop' : Nat} {entries : List Entry} (h : InOrder start stop entries)
    (hstart : start' ≤ start) (hstop : stop ≤ stop') : InOrder start' stop' entries := by
  refine ⟨h.sorted, fun e he => ?_⟩
  obtain ⟨hfrom, hto⟩ := h.within e he
  exact ⟨Nat.le_trans hstart hfrom, Nat.lt_of_lt_of_le hto hstop⟩

theorem InOrder.append {entries more : List Entry} (h : InOrder start mid entries) (hmore : InOrder mid stop more)
    (hstart : start ≤ mid) (hstop : mid ≤ stop) : InOrder start stop (entries ++ more) := by
  refine ⟨List.pairwise_append.2 ⟨h.sorted, hmore.sorted, fun e he other hother => ?_⟩, fun e he => ?_⟩
  · exact Nat.lt_of_lt_of_le (h.within e he).2 (hmore.within other hother).1
  · rcases List.mem_append.1 he with he | he
    · exact (h.mono (Nat.le_refl start) hstop).within e he
    · exact (hmore.mono hstart (Nat.le_refl stop)).within e he

/-- A member ends with its value, after all members inside the value. -/
theorem InOrder.entry {value : Json} {seen : List String} {name : String} {key : Mark}
    (h : InOrder start (start + value.bytes.length) (value.repeats source start)) :
    InOrder start (start + value.bytes.length + 1)
      (value.repeats source start ++ Catalog.repeated seen [(name, key, value.value source start)]) := by
  refine h.append ⟨?_, fun e he => ?_⟩ (by omega) (by omega)
  · rw [Catalog.repeated, Catalog.repeated, List.append_nil]
    split
    · exact List.pairwise_singleton _ _
    · exact .nil
  · obtain ⟨before, after, heq, -⟩ := Catalog.mem_repeated_iff.1 he
    obtain rfl : e = (name, key, value.value source start) :=
      List.mem_singleton.1 (heq ▸ List.mem_append_right before (List.mem_cons_self ..))
    rw [Entry.stop, stop_value]
    omega

mutual

/-- **The values of repetitions end one after another**, inside the value that they are in. -/
theorem inOrder_repeats : ∀ (t : Json) (source : Source) (start : Nat),
    InOrder start (start + t.bytes.length) (t.repeats source start)
  | .literal _, _, _ | .emptyArray _, _, _ | .emptyObject _, _, _ => .nil
  | .array items, source, start => by
    rw [repeats, bytes]
    refine (inOrder_repeats_items items source (start + 1)).mono (by omega) ?_
    simp only [List.length_cons, List.length_append]
    omega
  | .object members, source, start => by
    rw [repeats, bytes]
    refine (inOrder_repeats_members members source (start + 1) []).mono (by omega) ?_
    simp only [List.length_cons, List.length_append, List.length_nil]
    omega

theorem inOrder_repeats_items : ∀ (items : Items) (source : Source) (start : Nat),
    InOrder start (start + items.bytes.length) (items.repeats source start)
  | .last before item after, source, start => by
    rw [Items.repeats, Items.bytes]
    refine (inOrder_repeats item source _).mono (by omega) ?_
    simp only [List.length_append]
    omega
  | .more before item after rest, source, start => by
    simp only [Items.repeats, Items.bytes, List.length_cons, List.length_append]
    exact ((inOrder_repeats item source _).mono (by omega) (Nat.le_refl _)).append
      ((inOrder_repeats_items rest source _).mono (by omega) (by omega)) (by omega) (by omega)

theorem inOrder_repeats_members : ∀ (members : Members) (source : Source) (start : Nat) (seen : List String),
    InOrder start (start + members.bytes.length + 1) (members.repeats source start seen)
  | .last before name colon value after, source, start, seen => by
    simp only [Members.repeats, Members.bytes, List.length_append]
    exact (inOrder_repeats value source _).entry.mono (by omega) (by omega)
  | .more before name colon value after rest, source, start, seen => by
    simp only [Members.repeats, Members.bytes, List.length_cons, List.length_append]
    rw [← List.append_assoc]
    exact ((inOrder_repeats value source _).entry.mono (by omega) (Nat.le_refl _)).append
      ((inOrder_repeats_members rest source _ _).mono (by omega) (by omega)) (by omega) (by omega)

end

/-! ## Texts without repetitions -/

/-- Nothing is repeated in a text whose objects have distinct names, and only there. -/
theorem Document.repeats_eq_nil_iff (t : Document) (source : Source) :
    t.root.repeats source t.before.1.length = [] ↔
      ∀ members ∈ t.root.objects source t.before.1.length, (Catalog.keys members).Nodup := by
  rw [List.eq_nil_iff_forall_not_mem]
  simp only [Json.mem_repeats_iff, RepeatsIn, not_exists, not_and]
  rw [forall_comm]
  refine forall_congr' fun members => ?_
  rw [forall_comm]
  refine forall_congr' fun _ => ?_
  rw [← List.eq_nil_iff_forall_not_mem, Catalog.repeated_eq_nil_iff]
  simp only [List.not_mem_nil, not_false_eq_true, implies_true, true_and]

/-- Where an object has no repetitions, its names are distinct. -/
theorem Members.nodup_of_repeats_eq_nil {members : Members} (h : members.repeats source start [] = []) :
    (Catalog.keys (members.entries source start)).Nodup := by
  have hnil : Catalog.repeated [] (members.entries source start) = [] := by
    refine List.eq_nil_iff_forall_not_mem.2 fun e he => ?_
    have hmem := (mem_repeats_members_iff members).2 (.inl he)
    rw [h] at hmem
    cases hmem
  exact (Catalog.repeated_eq_nil_iff.1 hnil).2

end Json
end ExampleSchema
