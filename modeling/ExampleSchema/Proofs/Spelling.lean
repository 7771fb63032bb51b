import ExampleSchema.Proofs.Accept.Data
import ExampleSchema.Proofs.Json.Unique
import ExampleSchema.Proofs.Session

/-!
# Spelling

The same value may be spelled in many ways: with other blanks between the tokens, with other escapes in strings
and names, and with the members of an object in another order.  None of this changes whether the value is
accepted.

* `Json.Respells`: two values differ only in their spelling.
* `Json.Respells.isReadable_iff`: either both can be parsed or neither.
* `Datum.Respells`: the same, of what the values are read as.
* `Value.resembles_of_respells`: validation compares the same at one level.
* `Session.validate_iff_of_respells`: whole texts.
-/

namespace ExampleSchema

open Literal (SaysSame string_eq_ok_iff)

namespace Json

/-! ## Items and members -/

/-- The items between two brackets. -/
def Items.toList : Items → List Json
  | .last _ item _ => [item]
  | .more _ item _ rest => item :: rest.toList

/-- The members between two brackets. -/
def Members.toList : Members → List (Name × Json)
  | .last _ name _ value _ => [(name, value)]
  | .more _ name _ value _ rest => (name, value) :: rest.toList

/-- The items of an array. -/
def items? : Json → Option (List Json)
  | emptyArray _ => some []
  | array items => some items.toList
  | _ => none

/-- The members of an object. -/
def members? : Json → Option (List (Name × Json))
  | emptyObject _ => some []
  | object members => some members.toList
  | _ => none

/-! ## Spelling -/

/-- **Two values differ only in their spelling**: in the blanks between tokens, in how strings and names are
escaped, and in the order of the members of objects whose names are distinct. -/
inductive Respells : Json → Json → Prop
  | literal {token token' : Json.Literal} (h : SaysSame token.1 token'.1) :
    Respells (.literal token) (.literal token')
  | array {t t' : Json} {items items' : List Json} (h : t.items? = some items) (h' : t'.items? = some items')
      (hlength : items.length = items'.length)
      (hitems : ∀ {item item'}, (item, item') ∈ items.zip items' → Respells item item') :
    Respells t t'
  | object {t t' : Json} {members reordered members' : List (Name × Json)} (h : t.members? = some members)
      (h' : t'.members? = some members')
      (horder : members = reordered ∨
        members.Perm reordered ∧ (members.map fun member => member.1.text).Nodup)
      (hlength : reordered.length = members'.length)
      (hnames : ∀ {member member'}, (member, member') ∈ reordered.zip members' →
        SaysSame member.1.1 member'.1.1)
      (hmembers : ∀ {member member'}, (member, member') ∈ reordered.zip members' →
        Respells member.2 member'.2) :
    Respells t t'

/-- Names that say the same are read as the same text. -/
theorem Name.text_eq_of_saysSame {name name' : Name} (h : SaysSame name.1 name'.1) :
    name.text = name'.text := by
  rw [Name.text, Name.text]
  rcases h with h | ⟨text, hname, hname'⟩
  · rw [h]
  · rw [string_eq_ok_iff.1 hname, string_eq_ok_iff.1 hname']

/-! ## What can be parsed -/

/-- The containers of a value do not nest too deep, and its names are all valid. -/
def IsReadable (levels : Nat) (t : Json) : Prop :=
  t.depth ≤ levels ∧ ∀ name ∈ t.names, (Quoted.decode? name).isSome = true

variable {t : Json} {levels : Nat}

theorem Items.isReadable_iff (items : Items) :
    (items.depth ≤ levels ∧ ∀ name ∈ items.names, (Quoted.decode? name).isSome = true) ↔
      ∀ item ∈ items.toList, item.IsReadable levels := by
  induction items using toList.induct with
  | case1 before item after =>
    rw [toList, List.forall_mem_singleton]
    exact Iff.rfl
  | case2 before item after rest ih =>
    rw [toList, List.forall_mem_cons, ← ih, depth, names, Nat.max_le, List.forall_mem_append, IsReadable]
    exact and_and_and_comm

theorem Members.isReadable_iff (members : Members) :
    (members.depth ≤ levels ∧ ∀ name ∈ members.names, (Quoted.decode? name).isSome = true) ↔
      ∀ member ∈ members.toList,
        (Quoted.decode? member.1.1).isSome = true ∧ member.2.IsReadable levels := by
  induction members using toList.induct with
  | case1 before name colon value after =>
    rw [toList, List.forall_mem_singleton, depth, names, List.forall_mem_cons, IsReadable]
    exact and_left_comm
  | case2 before name colon value after rest ih =>
    rw [toList, List.forall_mem_cons, ← ih, depth, names, Nat.max_le, List.forall_mem_cons,
      List.forall_mem_append, IsReadable]
    tauto

/-- An array can be read if its items can be, with one level less. -/
theorem isReadable_iff_of_items? {items : List Json} (h : t.items? = some items) :
    t.IsReadable levels ↔ 0 < levels ∧ ∀ item ∈ items, item.IsReadable (levels - 1) := by
  cases t with
  | literal | emptyObject | object => cases h
  | emptyArray blank =>
    obtain rfl := Option.some.inj h
    simp [IsReadable, depth, names, Nat.succ_le_iff]
  | array inner =>
    obtain rfl := Option.some.inj h
    rw [← inner.isReadable_iff, IsReadable, depth, names, ← and_assoc]
    exact and_congr_left fun _ => by omega

/-- An object can be read if its members can be, with one level less, and its names. -/
theorem isReadable_iff_of_members? {members : List (Name × Json)} (h : t.members? = some members) :
    t.IsReadable levels ↔ 0 < levels ∧ ∀ member ∈ members,
      (Quoted.decode? member.1.1).isSome = true ∧ member.2.IsReadable (levels - 1) := by
  cases t with
  | literal | emptyArray | array => cases h
  | emptyObject blank =>
    obtain rfl := Option.some.inj h
    simp [IsReadable, depth, names, Nat.succ_le_iff]
  | object inner =>
    obtain rfl := Option.some.inj h
    rw [← inner.isReadable_iff, IsReadable, depth, names, ← and_assoc]
    exact and_congr_left fun _ => by omega

/-- **Values that differ only in their spelling** can be read or not alike. -/
theorem Respells.isReadable_iff {t t' : Json} (h : t.Respells t') (levels : Nat) :
    t.IsReadable levels ↔ t'.IsReadable levels := by
  induction h generalizing levels with
  | literal => exact iff_of_true ⟨Nat.zero_le _, nofun⟩ ⟨Nat.zero_le _, nofun⟩
  | array h h' hlength _ ih =>
    rw [isReadable_iff_of_items? h, isReadable_iff_of_items? h']
    refine and_congr_right fun _ => ?_
    exact (AreMatched.of_forall₂ (List.forall₂_iff_zip.2 ⟨hlength, id⟩)).forall_iff
      fun item item' hpair => ih hpair (levels - 1)
  | @object t t' members reordered members' h h' horder hlength hnames _ ih =>
    have hmem : ∀ member, member ∈ members ↔ member ∈ reordered := by
      rcases horder with rfl | ⟨hperm, -⟩
      · exact fun _ => Iff.rfl
      · exact fun _ => hperm.mem_iff
    rw [isReadable_iff_of_members? h, isReadable_iff_of_members? h']
    simp only [hmem]
    refine and_congr_right fun _ => ?_
    refine (AreMatched.of_forall₂ (List.forall₂_iff_zip.2 ⟨hlength, id⟩)).forall_iff
      fun member member' hpair => and_congr ?_ (ih hpair (levels - 1))
    rcases hnames hpair with hsame | ⟨text, hname, hname'⟩
    · rw [hsame]
    · rw [string_eq_ok_iff.1 hname, string_eq_ok_iff.1 hname']

/-! ## What is read -/

theorem Items.data_eq (items : Items) : items.data = items.toList.map datum := by
  induction items using toList.induct with
  | case1 => rfl
  | case2 before item after rest ih => exact congrArg (item.datum :: ·) ih

/-- A name with what its value is read as. -/
def entry (member : Name × Json) : String × Datum := (member.1.text, member.2.datum)

theorem Members.data_eq (members : Members) : members.data = members.toList.map entry := by
  induction members using toList.induct with
  | case1 => rfl
  | case2 before name colon value after rest ih => exact congrArg (entry (name, value) :: ·) ih

theorem datum_eq_of_items? {items : List Json} (h : t.items? = some items) :
    t.datum = .array (items.map datum) := by
  cases t with
  | literal | emptyObject | object => cases h
  | emptyArray blank =>
    obtain rfl := Option.some.inj h
    rfl
  | array inner =>
    obtain rfl := Option.some.inj h
    rw [datum, inner.data_eq]

theorem datum_eq_of_members? {members : List (Name × Json)} (h : t.members? = some members) :
    t.datum = .object (Catalog.gather (members.map entry)) := by
  cases t with
  | literal | emptyArray | array => cases h
  | emptyObject blank =>
    obtain rfl := Option.some.inj h
    rfl
  | object inner =>
    obtain rfl := Option.some.inj h
    rw [datum, inner.data_eq]

end Json

/-- Two data are read from values that differ only in their spelling. -/
def Datum.Respells (d d' : Datum) : Prop := ∃ t t' : Json, t.datum = d ∧ t'.datum = d' ∧ t.Respells t'

namespace Value

/-- Two values have the same data, or data that differ only in their spelling. -/
def Respells (v w : Value) : Prop := v.datum = w.datum ∨ v.datum.Respells w.datum

/-- What is found under a name is spelled in two ways. -/
theorem find?_gather_rel {members reordered members' : List (Json.Name × Json)}
    (horder : members = reordered ∨
      members.Perm reordered ∧ (members.map fun member => member.1.text).Nodup)
    (h : List.Forall₂ (fun member member' : Json.Name × Json =>
      SaysSame member.1.1 member'.1.1 ∧ member.2.Respells member'.2) reordered members')
    (name : String) :
    Option.Rel Datum.Respells (Catalog.find? (Catalog.gather (members.map Json.entry)) name)
      (Catalog.find? (Catalog.gather (members'.map Json.entry)) name) := by
  have hreordered : Catalog.find? (members.map Json.entry).reverse name
      = Catalog.find? (reordered.map Json.entry).reverse name := by
    rcases horder with rfl | ⟨hperm, hnodup⟩
    · rfl
    · refine Catalog.find?_congr_of_perm ?_ ?_ name
      · exact (List.reverse_perm _).trans ((hperm.map _).trans (List.reverse_perm _).symm)
      · rw [Catalog.keys, List.map_reverse, List.nodup_reverse, List.map_map]
        exact hnodup
  rw [Catalog.find?_gather, Catalog.find?_gather, hreordered]
  refine Catalog.find?_rel (List.forall₂_reverse_iff.2 ?_) name
  rw [List.forall₂_map_left_iff, List.forall₂_map_right_iff]
  refine h.imp fun member member' hmember => ?_
  exact ⟨Json.Name.text_eq_of_saysSame hmember.1, member.2, member'.2, rfl, rfl, hmember.2⟩

/-- A member is matched by what is found under its name. -/
theorem exists_of_find?_rel {V : Value → Value → Prop} {members members' : List (String × Mark × Value)}
    (hnodup : (Catalog.keys members).Nodup)
    (hfind : ∀ name, Option.Rel (fun entry entry' : Mark × Value => V entry.2 entry'.2)
      (Catalog.find? members name) (Catalog.find? members' name))
    {name : String} {entry : Mark × Value} (hmember : (name, entry) ∈ members) :
    ∃ entry', (name, entry') ∈ members' ∧ V entry.2 entry'.2 := by
  have hfound := hfind name
  rw [Catalog.find?_eq_some_of_unique hmember fun _ => Catalog.eq_of_mem_of_nodup hnodup hmember] at hfound
  cases hother : Catalog.find? members' name with
  | none =>
    rw [hother] at hfound
    cases hfound
  | some entry' =>
    rw [hother] at hfound
    cases hfound with
    | some hrelated => exact ⟨entry', Catalog.mem_of_find?_eq_some hother, hrelated⟩

/-- Members are matched by their names if all of them can be found. -/
theorem areMatched_of_find?_rel {V : Value → Value → Prop} {members members' : List (String × Mark × Value)}
    (hnodup : (Catalog.keys members).Nodup) (hnodup' : (Catalog.keys members').Nodup)
    (hfind : ∀ name, Option.Rel (fun entry entry' : Mark × Value => V entry.2 entry'.2)
      (Catalog.find? members name) (Catalog.find? members' name)) :
    AreMatched (fun member member' => member.1 = member'.1 ∧ V member.2.2 member'.2.2) members members' := by
  constructor
  · rintro ⟨name, entry⟩ hmember
    obtain ⟨entry', hmember', hrelated⟩ := exists_of_find?_rel hnodup hfind hmember
    exact ⟨(name, entry'), hmember', rfl, hrelated⟩
  · rintro ⟨name, entry'⟩ hmember'
    have hback : ∀ name, Option.Rel (fun entry' entry : Mark × Value => V entry.2 entry'.2)
        (Catalog.find? members' name) (Catalog.find? members name) := by
      intro name
      have hrelated := hfind name
      revert hrelated
      generalize Catalog.find? members name = found, Catalog.find? members' name = found'
      rintro (hrelated | -)
      · exact .some hrelated
      · exact .none
    obtain ⟨entry, hmember, hrelated⟩ :=
      exists_of_find?_rel (V := fun value' value => V value value') hnodup' hback hmember'
    exact ⟨(name, entry), hmember, rfl, hrelated⟩

/-- Arrays of which the items are spelled in two ways resemble one another. -/
theorem resembles_array {mark mark' : Mark} {values values' : List Value} {items items' : List Json}
    (hdata : items.map Json.datum = dataOfItems values) (hdata' : items'.map Json.datum = dataOfItems values')
    (hitems : List.Forall₂ Json.Respells items items') :
    (array mark values).Resembles Respells (array mark' values') := by
  have hrelated : List.Forall₂ Datum.Respells (items.map Json.datum) (items'.map Json.datum) := by
    rw [List.forall₂_map_left_iff, List.forall₂_map_right_iff]
    exact hitems.imp fun item item' hitem => ⟨item, item', rfl, rfl, hitem⟩
  rw [hdata, hdata', dataOfItems_eq, dataOfItems_eq, List.forall₂_map_left_iff, List.forall₂_map_right_iff]
    at hrelated
  exact .array (hrelated.imp fun _ _ => Or.inr)

/-- Members of which the data are gathered have different names. -/
theorem nodup_keys_of_gather_eq {members : List (String × Mark × Value)} {written : List (String × Datum)}
    (h : Catalog.gather written = dataOfMembers members) : (Catalog.keys members).Nodup := by
  have hnodup := Catalog.nodup_keys_gather written
  rw [h, dataOfMembers_eq, Catalog.keys, List.map_map] at hnodup
  exact hnodup

/-- Objects resemble one another if what is found under each name is spelled in two ways. -/
theorem resembles_object {mark mark' : Mark} {members members' : List (String × Mark × Value)}
    {written written' : List (String × Datum)} (hdata : Catalog.gather written = dataOfMembers members)
    (hdata' : Catalog.gather written' = dataOfMembers members')
    (hfound : ∀ name, Option.Rel Datum.Respells (Catalog.find? (Catalog.gather written) name)
      (Catalog.find? (Catalog.gather written') name)) :
    (object mark members).Resembles Respells (object mark' members') := by
  have hfind : ∀ name, Option.Rel (fun entry entry' : Mark × Value => entry.2.Respells entry'.2)
      (Catalog.find? members name) (Catalog.find? members' name) := by
    intro name
    have hrelated := hfound name
    have hmap := Catalog.find?_map (fun entry : Mark × Value => entry.2.datum)
    rw [hdata, hdata', dataOfMembers_eq, dataOfMembers_eq, hmap, hmap] at hrelated
    cases hleft : Catalog.find? members name <;> cases hright : Catalog.find? members' name <;>
      rw [hleft, hright] at hrelated <;> cases hrelated
    · exact .none
    · next hrelated => exact .some (Or.inr hrelated)
  exact .object hfind (areMatched_of_find?_rel (nodup_keys_of_gather_eq hdata)
    (nodup_keys_of_gather_eq hdata') hfind)

/-- **Values that are spelled in two ways** resemble one another. -/
theorem resembles_of_datum_respells {v w : Value} (h : v.datum.Respells w.datum) : v.Resembles Respells w := by
  obtain ⟨t, t', hv, hw, hspelling⟩ := h
  cases hspelling with
  | literal hsame =>
    cases v with
    | array | object => cases hv
    | literal mark =>
      cases w with
      | array | object => cases hw
      | literal mark' =>
        rw [Datum.literal.inj hv, Datum.literal.inj hw] at hsame
        exact .literal hsame
  | array ht ht' hlength hitems =>
    rw [Json.datum_eq_of_items? ht] at hv
    rw [Json.datum_eq_of_items? ht'] at hw
    cases v with
    | literal | object => cases hv
    | array mark values =>
      cases w with
      | literal | object => cases hw
      | array mark' values' =>
        exact resembles_array (Datum.array.inj hv) (Datum.array.inj hw)
          (List.forall₂_iff_zip.2 ⟨hlength, hitems⟩)
  | object ht ht' horder hlength hnames hmembers =>
    rw [Json.datum_eq_of_members? ht] at hv
    rw [Json.datum_eq_of_members? ht'] at hw
    cases v with
    | literal | array => cases hv
    | object mark entries =>
      cases w with
      | literal | array => cases hw
      | object mark' entries' =>
        have hpairs : List.Forall₂ (fun member member' : Json.Name × Json =>
            SaysSame member.1.1 member'.1.1 ∧ member.2.Respells member'.2) _ _ :=
          List.forall₂_iff_zip.2 ⟨hlength, fun hpair => ⟨hnames hpair, hmembers hpair⟩⟩
        exact resembles_object (Datum.object.inj hv) (Datum.object.inj hw) (find?_gather_rel horder hpairs)

/-- **Values that are spelled in two ways** resemble one another, and so do their parts. -/
theorem resembles_of_respells {v w : Value} (h : v.Respells w) : v.Resembles Respells w :=
  h.elim (fun hsame => (resembles_of_datum_eq hsame).mono fun _ _ => Or.inl) resembles_of_datum_respells

end Value

/-! ## Validation -/

/-- **Spelling makes no difference to validation.** -/
theorem Schema.accept_iff_of_respells (schema : Schema) {v w : Value} (h : v.Respells w) :
    schema.accept v = .ok () ↔ schema.accept w = .ok () := by
  have hsimulates : schema.types.Simulates schema.types Eq Value.Respells :=
    schema.types.simulates_self (fun _ _ => Value.resembles_of_respells) fun _ => Or.inl rfl
  exact accept_iff_of_simulates hsimulates rfl h

/-- Two texts are of values that differ only in their spelling. -/
def Bytes.Respells (text text' : Bytes) : Prop :=
  ∃ t t' : Json.Document, t.bytes = text ∧ t'.bytes = text' ∧ t.root.Respells t'.root

/-- Texts that differ only in their spelling are parsed to such values, or neither is parsed. -/
theorem Value.parse_of_respells {text text' : Bytes} (h : text.Respells text') (name : String) :
    (∃ v w, parse ⟨name, text⟩ = .ok v ∧ parse ⟨name, text'⟩ = .ok w ∧ v.Respells w) ∨
      (∀ v, parse ⟨name, text⟩ ≠ .ok v) ∧ ∀ w, parse ⟨name, text'⟩ ≠ .ok w := by
  obtain ⟨t, t', rfl, rfl, hspelling⟩ := h
  have hreadable := hspelling.isReadable_iff 256
  rw [Json.IsReadable, Json.IsReadable, ← Json.areValid_iff, ← Json.areValid_iff] at hreadable
  by_cases ht : t.root.depth ≤ 256 ∧ Json.areValid t.root.names = true
  · have ht' := hreadable.1 ht
    refine Or.inl ⟨_, _, parse_bytes_eq_ok_iff.2 ⟨ht.1, ht.2, rfl⟩, parse_bytes_eq_ok_iff.2 ⟨ht'.1, ht'.2, rfl⟩,
      Or.inr ⟨t.root, t'.root, ?_, ?_, hspelling⟩⟩
    · exact (datum_value t.root (t.holds_root rfl)).symm
    · exact (datum_value t'.root (t'.holds_root rfl)).symm
  · refine Or.inr ⟨fun v hv => ?_, fun w hw => ?_⟩
    · obtain ⟨hdepth, hnames, -⟩ := parse_bytes_eq_ok_iff.1 hv
      exact ht ⟨hdepth, hnames⟩
    · obtain ⟨hdepth, hnames, -⟩ := parse_bytes_eq_ok_iff.1 hw
      exact ht (hreadable.2 ⟨hdepth, hnames⟩)

namespace Session

/-- **The spelling of a value never changes its verdict.** -/
theorem validate_iff_of_respells (s : Session) {text text' : Bytes} (h : text.Respells text') :
    s.validate text = .ok () ↔ s.validate text' = .ok () := by
  rw [validate, validate, Except.bind_eq_ok_iff, Except.bind_eq_ok_iff]
  refine exists_congr fun schema => and_congr_right fun _ => ?_
  rw [Except.bind_eq_ok_iff, Except.bind_eq_ok_iff]
  rcases Value.parse_of_respells h "value" with ⟨v, w, hv, hw, hspelling⟩ | ⟨hnone, hnone'⟩
  · simp only [hv, hw, Except.ok.injEq, exists_eq_left', schema.accept_iff_of_respells hspelling]
  · exact iff_of_false (fun ⟨v, hv, _⟩ => hnone v hv) fun ⟨w, hw, _⟩ => hnone' w hw

end Session

/-! ## An example -/

namespace Json

/-- A string, from what follows its opening quote. -/
def quoted (tail : String) (h : (Quoted.body? (Bytes.ofString tail)).isSome = true) : Name :=
  ⟨Char.toUInt8 '"' :: Bytes.ofString tail, .quoted (Quoted.isStringTail_of_body? (Option.get_mem h))⟩

/-- Blanks, spelled out. -/
def blank (text : Bytes) (h : text.all Bytes.isSpace = true) : Blank := ⟨text, List.all_eq_true.1 h⟩

/-- The value `true`. -/
def yes : Json := .literal ⟨_, .keyword .yes⟩

/-- A person who is called Ann. -/
def plainPerson : Document where
  before := noBlank
  root := .object
    (.more noBlank (quoted "name\"" (by decide +kernel)) bareColon
      (.literal ⟨(quoted "Ann\"" (by decide +kernel)).1, .string (Subtype.property _)⟩) noBlank
      (.last noBlank (quoted "adult\"" (by decide +kernel)) bareColon yes noBlank))
  after := noBlank

/-- The same person with other blanks, other escapes and the members in the other order. -/
def respelledPerson : Document where
  before := noBlank
  root := .object
    (.more noBlank (quoted "adult\"" (by decide +kernel)) ⟨noBlank, blank [32] rfl⟩ yes noBlank
      (.last (blank [10, 32] rfl) (quoted "n\\u0061me\"" (by decide +kernel)) bareColon
        (.literal ⟨(quoted "\\u0041nn\"" (by decide +kernel)).1, .string (Subtype.property _)⟩) noBlank))
  after := blank [10] rfl

theorem respells_person : plainPerson.root.Respells respelledPerson.root := by
  refine .object rfl rfl (Or.inr ⟨List.Perm.swap .., by decide +kernel⟩) rfl ?_ ?_
  · intro member member' hpair
    rcases List.mem_cons.1 hpair with hpair | hpair
    · cases hpair
      exact .inl rfl
    · cases List.mem_singleton.1 hpair
      exact .inr ⟨"name", string_eq_ok_iff.2 (by decide +kernel), string_eq_ok_iff.2 (by decide +kernel)⟩
  · intro member member' hpair
    rcases List.mem_cons.1 hpair with hpair | hpair
    · cases hpair
      exact .literal (.inl rfl)
    · cases List.mem_singleton.1 hpair
      exact .literal (.inr
        ⟨"Ann", string_eq_ok_iff.2 (by decide +kernel), string_eq_ok_iff.2 (by decide +kernel)⟩)

end Json

namespace Session

/-- The schema of people whose names have three letters or more. -/
def people : Session :=
  ofText "\x7b\"name\": \"Tom\", // \x7bminLength: 3\x7d\n\"adult\": false\x7d"

/-- Both spellings of a person are accepted. -/
theorem validate_respelled_person :
    Json.plainPerson.bytes.Respells Json.respelledPerson.bytes ∧ people.validate Json.plainPerson.bytes = .ok () ∧
      people.validate Json.respelledPerson.bytes = .ok () := by
  have hspelling : Json.plainPerson.bytes.Respells Json.respelledPerson.bytes :=
    ⟨_, _, rfl, rfl, Json.respells_person⟩
  have hplain : people.validate Json.plainPerson.bytes = .ok () := isOk_iff.1 (by decide +kernel)
  exact ⟨hspelling, hplain, (validate_iff_of_respells people hspelling).1 hplain⟩

end Session
end ExampleSchema
