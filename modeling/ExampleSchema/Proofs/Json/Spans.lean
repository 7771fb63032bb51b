import ExampleSchema.Proofs.Json.Writing

/-!
# Values inside values

A value that has been parsed marks the bytes that it is written with, and so does every value inside it.  Each of
them can be cut out: its bytes by themselves are parsed to the same value, with every mark as many bytes further to
the front as the value begins in the document.

* `Value.IsWithin`: a value stands somewhere inside another, or is that value.
* `Value.mapMarks`: the value with all its marks changed, those of its names included.
* `Mark.Carries`, `Value.mapMarks_value`: what is written in one document is carried over to another.
* `Value.exists_json_of_isWithin`: what stands inside a value that is written somewhere is written there.
* `Value.parse_bytes_of_isWithin`: the bytes of a value inside another are parsed to that value.
-/

namespace ExampleSchema

/-! ## Values inside others -/

namespace Value

/-- A value stands somewhere inside another, or is that value. -/
inductive IsWithin (w : Value) : Value → Prop
  | self : IsWithin w w
  | item {mark : Mark} {items : List Value} {item : Value} (hmem : item ∈ items) (h : IsWithin w item) :
      IsWithin w (.array mark items)
  | member {mark : Mark} {members : List (String × Mark × Value)} {member : String × Mark × Value}
      (hmem : member ∈ members) (h : IsWithin w member.2.2) : IsWithin w (.object mark members)

/-! ## Other marks -/

mutual

/-- The value with all its marks changed, those of its names included. -/
def mapMarks (f : Mark → Mark) : Value → Value
  | literal mark => .literal (f mark)
  | array mark items => .array (f mark) (mapMarksOfItems f items)
  | object mark members => .object (f mark) (mapMarksOfMembers f members)

/-- The items of an array with all their marks changed. -/
def mapMarksOfItems (f : Mark → Mark) : List Value → List Value
  | [] => []
  | item :: rest => item.mapMarks f :: mapMarksOfItems f rest

/-- The members of an object with all their marks changed. -/
def mapMarksOfMembers (f : Mark → Mark) : List (String × Mark × Value) → List (String × Mark × Value)
  | [] => []
  | (name, mark, value) :: rest => (name, f mark, value.mapMarks f) :: mapMarksOfMembers f rest

end

theorem mapMarksOfMembers_eq (f : Mark → Mark) (members : List (String × Mark × Value)) :
    mapMarksOfMembers f members = members.map fun member => (member.1, f member.2.1, member.2.2.mapMarks f) := by
  induction members with
  | nil => rfl
  | cons member rest ih => rw [mapMarksOfMembers, ih, List.map_cons]

end Value

namespace Mark

/-- The mark in another document, as many bytes further to the front. -/
def back (source : Source) (offset : Nat) (m : Mark) : Mark := ⟨source, m.kind, m.start - offset, m.stop - offset⟩

/-- The mark in another document, as many bytes further to the end. -/
def forth (source : Source) (offset : Nat) (m : Mark) : Mark := ⟨source, m.kind, m.start + offset, m.stop + offset⟩

/-- Marks from some offset of a document on are carried over to another document, where they stand as far behind
another offset. -/
def Carries (f : Mark → Mark) (source : Source) (start : Nat) (source' : Source) (start' : Nat) : Prop :=
  ∀ (c : Construct) (more : Nat) (bytes : Bytes),
    f (Json.spanOf source c (start + more) bytes) = Json.spanOf source' c (start' + more) bytes

variable {f : Mark → Mark} {source source' : Source} {start start' : Nat}

theorem Carries.span (h : Carries f source start source' start') (c : Construct) (bytes : Bytes) :
    f (Json.spanOf source c start bytes) = Json.spanOf source' c start' bytes := h c 0 bytes

/-- Marks further on are carried over as well. -/
theorem Carries.add (h : Carries f source start source' start') (more : Nat) :
    Carries f source (start + more) source' (start' + more) := by
  intro c further bytes
  rw [Nat.add_assoc, Nat.add_assoc]
  exact h c (more + further) bytes

theorem carries_back (source source' : Source) (start : Nat) : Carries (back source' start) source start source' 0 := by
  intro c more bytes
  have hstart : start + more - start = 0 + more := by omega
  have hstop : start + more + bytes.length - start = 0 + more + bytes.length := by omega
  change Mark.mk source' ⟨.closing c, start + more - start, start + more + bytes.length - start⟩ = _
  rw [hstart, hstop]
  rfl

theorem carries_forth (source source' : Source) (start : Nat) : Carries (forth source start) source' 0 source start := by
  intro c more bytes
  have hstart : 0 + more + start = start + more := by omega
  have hstop : 0 + more + bytes.length + start = start + more + bytes.length := by omega
  change Mark.mk source ⟨.closing c, 0 + more + start, 0 + more + bytes.length + start⟩ = _
  rw [hstart, hstop]
  rfl

end Mark

namespace Value

open Mark (Carries)

section

variable {f : Mark → Mark} {source source' : Source} {start start' : Nat}

mutual

/-- **What is written in one document is carried over** to another. -/
theorem mapMarks_value : ∀ (t : Json) {start start' : Nat}, Carries f source start source' start' →
    (t.value source start).mapMarks f = t.value source' start'
  | .literal token, _, _, h => congrArg Value.literal (h.span .literal token.1)
  | .emptyArray blank, _, _, h => by
    rw [Json.value, mapMarks, h.span, mapMarksOfItems, Json.value]
  | .array items, _, _, h => by
    rw [Json.value, mapMarks, h.span, mapMarksOfItems_values items (h.add 1), Json.value]
  | .emptyObject blank, _, _, h => by
    rw [Json.value, mapMarks, h.span, mapMarksOfMembers, Json.value]
  | .object members, _, _, h => by
    have hgather := Catalog.gather_map (fun entry : Mark × Value => (f entry.1, entry.2.mapMarks f))
    rw [Json.value, mapMarks, h.span, mapMarksOfMembers_eq, ← hgather, ← mapMarksOfMembers_eq,
      mapMarksOfMembers_entries members (h.add 1), Json.value]

theorem mapMarksOfItems_values : ∀ (items : Json.Items) {start start' : Nat},
    Carries f source start source' start' →
    mapMarksOfItems f (items.values source start) = items.values source' start'
  | .last before item after, _, _, h => by
    rw [Json.Items.values, mapMarksOfItems, mapMarks_value item (h.add _), mapMarksOfItems, Json.Items.values]
  | .more before item after rest, _, _, h => by
    rw [Json.Items.values, mapMarksOfItems, mapMarks_value item (h.add _),
      mapMarksOfItems_values rest ((((h.add _).add _).add _).add 1), Json.Items.values]

theorem mapMarksOfMembers_entries : ∀ (members : Json.Members) {start start' : Nat},
    Carries f source start source' start' →
    mapMarksOfMembers f (members.entries source start) = members.entries source' start'
  | .last before name colon value after, _, _, h => by
    rw [Json.Members.entries, mapMarksOfMembers, (h.add _).span, mapMarks_value value (((h.add _).add _).add _),
      mapMarksOfMembers, Json.Members.entries]
  | .more before name colon value after rest, _, _, h => by
    rw [Json.Members.entries, mapMarksOfMembers, (h.add _).span, mapMarks_value value (((h.add _).add _).add _),
      mapMarksOfMembers_entries rest ((((((h.add _).add _).add _).add _).add _).add 1), Json.Members.entries]

end

end

/-! ## Where values inside others are written -/

variable {source : Source} {start : Nat} {v w : Value} {levels more : Nat} {names others : List Bytes}

/-- A value is written somewhere in a document, nests at most so deep and has no other names. -/
def IsCutFrom (source : Source) (levels : Nat) (names : List Bytes) (w : Value) : Prop :=
  ∃ (t : Json) (start : Nat), source.Holds start t.bytes ∧ t.value source start = w ∧ t.depth ≤ levels ∧
    ∀ name ∈ t.names, name ∈ names

theorem isCutFrom_value (t : Json) (h : source.Holds start t.bytes) :
    IsCutFrom source t.depth t.names (t.value source start) :=
  ⟨t, start, h, rfl, Nat.le_refl _, fun _ => id⟩

theorem IsCutFrom.mono (h : w.IsCutFrom source levels names) (hle : levels ≤ more)
    (hnames : ∀ name ∈ names, name ∈ others) : w.IsCutFrom source more others := by
  obtain ⟨t, start, hholds, hvalue, hdepth, hsub⟩ := h
  exact ⟨t, start, hholds, hvalue, hdepth.trans hle, fun name hname => hnames name (hsub name hname)⟩

mutual

/-- **What stands inside a value** that is written somewhere is written there. -/
theorem isCutFrom_of_isWithin : ∀ (t : Json) {start : Nat}, source.Holds start t.bytes →
    w.IsWithin (t.value source start) → w.IsCutFrom source t.depth t.names
  | .literal token, _, h, hw => by
    cases hw with
    | self => exact isCutFrom_value (.literal token) h
  | .emptyArray blank, _, h, hw => by
    cases hw with
    | self => exact isCutFrom_value (.emptyArray blank) h
    | item hmem => cases hmem
  | .array items, start, h, hw => by
    cases hw with
    | self => exact isCutFrom_value (.array items) h
    | item hmem hw =>
      rw [Json.bytes] at h
      exact (isCutFrom_of_mem_values items h.tail.left hmem hw).mono (Nat.le_succ _) fun _ => id
  | .emptyObject blank, _, h, hw => by
    cases hw with
    | self => exact isCutFrom_value (.emptyObject blank) h
    | member hmem => cases hmem
  | .object members, start, h, hw => by
    cases hw with
    | self => exact isCutFrom_value (.object members) h
    | member hmem hw =>
      rw [Json.bytes] at h
      exact (isCutFrom_of_mem_entries members h.tail.left (Catalog.mem_of_mem_gather hmem) hw).mono (Nat.le_succ _)
        fun _ => id

theorem isCutFrom_of_mem_values : ∀ (items : Json.Items) {start : Nat}, source.Holds start items.bytes →
    ∀ {item : Value}, item ∈ items.values source start → w.IsWithin item →
      w.IsCutFrom source items.depth items.names
  | .last before item after, _, h, _, hmem, hw => by
    rw [Json.Items.bytes] at h
    obtain rfl := List.mem_singleton.1 hmem
    exact isCutFrom_of_isWithin item h.right.left hw
  | .more before item after rest, _, h, _, hmem, hw => by
    rw [Json.Items.bytes] at h
    rcases List.mem_cons.1 hmem with rfl | hmem
    · exact (isCutFrom_of_isWithin item h.right.left hw).mono (Nat.le_max_left ..) fun _ => List.mem_append_left _
    · exact (isCutFrom_of_mem_values rest h.right.right.right.tail hmem hw).mono (Nat.le_max_right ..)
        fun _ => List.mem_append_right _

theorem isCutFrom_of_mem_entries : ∀ (members : Json.Members) {start : Nat}, source.Holds start members.bytes →
    ∀ {member : String × Mark × Value}, member ∈ members.entries source start → w.IsWithin member.2.2 →
      w.IsCutFrom source members.depth members.names
  | .last before name colon value after, _, h, _, hmem, hw => by
    rw [Json.Members.bytes] at h
    obtain rfl := List.mem_singleton.1 hmem
    exact (isCutFrom_of_isWithin value h.right.right.right.left hw).mono (Nat.le_refl _)
      fun _ => List.mem_cons_of_mem _
  | .more before name colon value after rest, _, h, _, hmem, hw => by
    rw [Json.Members.bytes] at h
    rcases List.mem_cons.1 hmem with rfl | hmem
    · exact (isCutFrom_of_isWithin value h.right.right.right.left hw).mono (Nat.le_max_left ..)
        fun _ hname => List.mem_cons_of_mem _ (List.mem_append_left _ hname)
    · exact (isCutFrom_of_mem_entries rest h.right.right.right.right.right.tail hmem hw).mono (Nat.le_max_right ..)
        fun _ hname => List.mem_cons_of_mem _ (List.mem_append_right _ hname)

end

/-- A value begins where it is written. -/
theorem start_mark_value (t : Json) : (t.value source start).mark.start = start := by
  cases t <;> rfl

/-! ## Cutting a value out -/

/-- **Every value inside a value that is parsed can be cut out.**  Its own bytes are parsed, to the same value with all
marks as many bytes further to the front as the value begins; and none of them is moved beyond the front, since
moving them to the end again gives the value as it was. -/
theorem parse_bytes_of_isWithin (h : parse source = .ok v) (hw : w.IsWithin v) (name : String) :
    parse ⟨name, w.bytes⟩ = .ok (w.mapMarks (Mark.back ⟨name, w.bytes⟩ w.mark.start)) ∧
      (w.mapMarks (Mark.back ⟨name, w.bytes⟩ w.mark.start)).mapMarks (Mark.forth source w.mark.start) = w := by
  obtain ⟨document, hbytes, hdepth, hvalid, rfl⟩ := exists_document_of_parse_eq_ok h
  obtain ⟨t, start, hholds, rfl, hle, hnames⟩ :=
    isCutFrom_of_isWithin document.root (document.holds_root hbytes) hw
  have hvalid : Json.areValid t.names = true :=
    Json.areValid_iff.2 fun name hname => Json.areValid_iff.1 hvalid name (hnames name hname)
  have hparse := @parse_eq_ok_of_areValid ⟨name, t.bytes⟩ ⟨Json.noBlank, t, Json.noBlank⟩ (List.append_nil t.bytes)
    (hle.trans hdepth) hvalid
  rw [bytes_value t hholds, start_mark_value, mapMarks_value t (Mark.carries_back source ⟨name, t.bytes⟩ start)]
  exact ⟨hparse, mapMarks_value t (Mark.carries_forth source ⟨name, t.bytes⟩ start)⟩

/-- An array with a string and an object, in an array behind a blank. -/
def arrayInside : Source := .ofString "outer" " [1,[\"x\",\x7b\x7d]]"

/-- The inner array as it is marked in a document where it begins at an offset. -/
def innerArray (source : Source) (start : Nat) : Value :=
  .array ⟨source, .closing .array, start, start + 8⟩ [.literal ⟨source, .closing .literal, start + 1, start + 4⟩,
    .object ⟨source, .closing .object, start + 5, start + 7⟩ []]

/-- The outer array as it is marked in its document. -/
def outerArray : Value :=
  .array ⟨arrayInside, .closing .array, 1, 13⟩
    [.literal ⟨arrayInside, .closing .literal, 2, 3⟩, innerArray arrayInside 4]

/-- The inner array is parsed by itself. -/
theorem parse_bytes_innerArray :
    parse arrayInside = .ok outerArray ∧ (innerArray arrayInside 4).IsWithin outerArray ∧
      (innerArray arrayInside 4).bytes = Bytes.ofString "[\"x\",\x7b\x7d]" ∧
      parse ⟨"inner", (innerArray arrayInside 4).bytes⟩ =
        .ok (innerArray ⟨"inner", (innerArray arrayInside 4).bytes⟩ 0) ∧
      (innerArray ⟨"inner", (innerArray arrayInside 4).bytes⟩ 0).mapMarks (Mark.forth arrayInside 4) =
        innerArray arrayInside 4 := by
  have hparse : parse arrayInside = .ok outerArray := by rfl
  have hwithin : (innerArray arrayInside 4).IsWithin outerArray :=
    .item (List.mem_cons_of_mem _ (List.mem_singleton_self _)) .self
  obtain ⟨hitself, hback⟩ := parse_bytes_of_isWithin hparse hwithin "inner"
  exact ⟨hparse, hwithin, by rfl, hitself, hback⟩

end Value
end ExampleSchema
