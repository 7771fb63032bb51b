import ExampleSchema.Constraint.Literal
import ExampleSchema.Proofs.Json.Literals
import Mathlib.Data.List.DropRight

/-!
# Writing a value

Every value without marks that is put together from literals of the grammar, and from names that can be
read, is written by some text, provided that its containers do not nest too deep.

* `Quoted.exists_isString_of_decode?`: what can be read as a string is a string of the grammar.
* `Literal.jsonType_of_string_eq_ok`: what is read as a string is one by its first byte.
* `Json.exists_parse`, `Value.exists_parse_member`: a text by itself, and the text of a member of a value.
* `Datum.IsWritable`: a text of the grammar writes a datum, with containers that nest so deep.
* `Datum.isWritable_literal`, `Datum.isWritable_array`, `Datum.isWritable_object`: how such data are put
  together.
* `Datum.IsWritable.exists_parse`: a text that is read as the datum.
-/

namespace ExampleSchema

/-! ## Strings that can be read -/

/-- Trimming twice is trimming once. -/
theorem Bytes.trim_trim (text : Bytes) : text.trim.trim = text.trim := by
  have hfirst : text.trim.dropWhile isSpace = text.trim := by
    refine List.dropWhile_eq_self_iff.2 fun hl => ?_
    have hpre : text.trim <+: text.dropWhile isSpace := List.rdropWhile_prefix isSpace _
    rw [hpre.getElem hl]
    exact List.dropWhile_get_zero_not _ _ _
  conv_lhs => rw [trim, hfirst]
  exact List.rdropWhile_idempotent isSpace _

namespace Quoted

/-- A number of four digits is one only if all of them are digits. -/
theorem isHexDigit_of_hexUnit? {a b c d : UInt8} {unit : Nat} (h : hexUnit? a b c d = some unit) :
    ∀ digit ∈ [a, b, c, d], Bytes.isHexDigit digit = true := by
  simp only [hexUnit?, Option.bind_eq_bind, Option.bind_eq_some_iff] at h
  obtain ⟨_, ha, _, hb, _, hc, _, hd, -⟩ := h
  simp [Bytes.isHexDigit, ha, hb, hc, hd]

/-- An escape leaves what follows it, and a high surrogate takes an escape along. -/
theorem isStringTail_of_unitEscape? {unit : Nat} {rest out left : Bytes}
    (h : unitEscape? unit rest = some (out, left)) (hleft : IsStringTail left) : IsStringTail rest := by
  unfold unitEscape? at h
  split at h
  · cases h
  split at h
  · split at h
    · next backslash u a b c d rest =>
      split at h
      · next hescape =>
        split at h
        · next low hlow =>
          split at h
          · obtain ⟨-, rfl⟩ := Prod.mk.inj (Option.some.inj h)
            rw [Bytes.eq_of_char_eq hescape.1, Bytes.eq_of_char_eq hescape.2]
            exact @IsStringTail.unicode [a, b, c, d] _ rfl (isHexDigit_of_hexUnit? hlow) hleft
          · cases h
        · cases h
      · cases h
    · cases h
  · obtain ⟨-, rfl⟩ := Prod.mk.inj (Option.some.inj h)
    exact hleft

/-- The letters of escapes. -/
theorem mem_of_letterEscape? {b : UInt8} {c : Char} (h : letterEscape? b = some c) :
    Bytes.char b ∈ ['"', '\\', '/', 'b', 'f', 'n', 'r', 't'] := by
  unfold letterEscape? at h
  split at h
  case h_9 => cases h
  all_goals simp_all

/-- What can be read up to its closing quote is the rest of a string. -/
theorem isStringTail_of_body? {text out : Bytes} (h : body? text = some out) : IsStringTail text := by
  fun_induction body? text generalizing out with
  | case1 | case3 | case4 | case5 | case6 | case8 | case9 | case11 => cases h
  | case2 b rest hquote hrest =>
    rw [Bytes.eq_of_char_eq hquote, List.isEmpty_iff.1 hrest]
    exact .close
  | case7 b hquote hescape e he p q r s rest unit hunit out' left hleft _ ih =>
    obtain ⟨tail, htail, -⟩ := Option.map_eq_some_iff.1 h
    rw [Bytes.eq_of_char_eq hescape, Bytes.eq_of_char_eq he]
    exact @IsStringTail.unicode [p, q, r, s] _ rfl (isHexDigit_of_hexUnit? hunit)
      (isStringTail_of_unitEscape? hleft (ih htail))
  | case10 b hquote hescape e rest he c hletter ih =>
    obtain ⟨tail, htail, -⟩ := Option.map_eq_some_iff.1 h
    rw [Bytes.eq_of_char_eq hescape]
    exact .escape (mem_of_letterEscape? hletter) (ih htail)
  | case12 b rest hquote hescape hcontrol ih =>
    obtain ⟨tail, htail, -⟩ := Option.map_eq_some_iff.1 h
    exact .plain hquote hescape (Nat.not_lt.1 hcontrol) (ih htail)

/-- A string that can be read is a string of the grammar with blanks around it. -/
theorem exists_isString_of_decode? {literal : Bytes} {text : String} (h : decode? literal = some text) :
    ∃ bytes, IsString bytes ∧ decode? bytes = some text := by
  refine ⟨literal.trim, ?_, ?_⟩
  · unfold decode? at h
    split at h
    · next b rest htrim =>
      split at h
      · next hquote =>
        obtain ⟨out, hbody, -⟩ := Option.bind_eq_some_iff.1 h
        rw [htrim, Bytes.eq_of_char_eq hquote]
        exact .quoted (isStringTail_of_body? hbody)
      · cases h
    · cases h
  · rwa [decode?, Bytes.trim_trim]

end Quoted

/-! ## Literals that are read as strings -/

namespace Literal

variable {literal : Bytes} {text : String}

theorem string_eq_ok_iff : string literal = .ok text ↔ Quoted.decode? literal = some text := by
  rw [string]
  cases Quoted.decode? literal <;> simp

/-- What can be read as a string begins like one. -/
theorem jsonType_of_string_eq_ok (h : string literal = .ok text) : JsonType.ofBytes? literal = some .string := by
  have hdecode := string_eq_ok_iff.1 h
  unfold Quoted.decode? at hdecode
  split at hdecode
  · next b rest htrim =>
    split at hdecode
    · next hquote =>
      rw [JsonType.ofBytes?, htrim]
      dsimp only
      rw [hquote]
      rfl
    · cases hdecode
  · cases hdecode

/-- Blanks around a string do not matter. -/
theorem string_trim (h : string literal = .ok text) : string literal.trim = .ok text := by
  rw [string_eq_ok_iff] at h ⊢
  rwa [Quoted.decode?, Bytes.trim_trim]

end Literal

/-! ## Texts without blanks around them -/

namespace Json

/-- No blank. -/
def noBlank : Blank := ⟨[], nofun⟩

/-- A colon without blanks. -/
def bareColon : Colon := ⟨noBlank, noBlank⟩

/-- **What a value is written as can be read** by itself. -/
theorem exists_parse (t : Json) (hdepth : t.depth ≤ 256)
    (hnames : ∀ name ∈ t.names, (Quoted.decode? name).isSome = true) (name : String) :
    ∃ v, Value.parse ⟨name, t.bytes⟩ = .ok v ∧ v.datum = t.datum := by
  let document : Document := ⟨noBlank, t, noBlank⟩
  have hbytes : document.bytes = t.bytes := List.append_nil t.bytes
  exact ⟨document.value ⟨name, t.bytes⟩, Value.parse_eq_ok_of_areValid hbytes hdepth (areValid_iff.2 hnames),
    Value.datum_value t (document.holds_root hbytes)⟩

end Json

/-! ## The texts of members -/

namespace Value

variable {source : Source}

/-- A value marks what it is written as. -/
theorem bytes_value (t : Json) {start : Nat} (h : source.Holds start t.bytes) :
    (t.value source start).bytes = t.bytes := by
  cases t with
  | literal | emptyArray | array | emptyObject | object => exact h.bytes_spanOf _

/-- A value is written as some text, which nests at most so deep and has no other names. -/
def IsWrittenAs (v : Value) (levels : Nat) (names : List Bytes) : Prop :=
  ∃ t : Json, v.bytes = t.bytes ∧ v.datum = t.datum ∧ t.depth ≤ levels ∧ ∀ name ∈ t.names, name ∈ names

theorem isWrittenAs_value (t : Json) {start : Nat} (h : source.Holds start t.bytes) :
    (t.value source start).IsWrittenAs t.depth t.names :=
  ⟨t, bytes_value t h, datum_value t h, Nat.le_refl _, fun _ => id⟩

theorem IsWrittenAs.mono {v : Value} {levels more : Nat} {names others : List Bytes}
    (h : v.IsWrittenAs levels names) (hle : levels ≤ more) (hnames : ∀ name ∈ names, name ∈ others) :
    v.IsWrittenAs more others := by
  obtain ⟨t, hbytes, hdatum, hdepth, hsub⟩ := h
  exact ⟨t, hbytes, hdatum, hdepth.trans hle, fun name hname => hnames name (hsub name hname)⟩

/-- The values of written members are written. -/
theorem areWrittenAs_entries (members : Json.Members) {start : Nat} (h : source.Holds start members.bytes) :
    ∀ member ∈ members.entries source start, member.2.2.IsWrittenAs members.depth members.names := by
  cases members with
  | last before name colon value after =>
    rw [Json.Members.bytes] at h
    refine List.forall_mem_singleton.2 ((isWrittenAs_value value h.right.right.right.left).mono (Nat.le_refl _) ?_)
    exact fun _ => List.mem_cons_of_mem _
  | more before name colon value after rest =>
    rw [Json.Members.bytes] at h
    have hrest := areWrittenAs_entries rest h.right.right.right.right.right.tail
    refine List.forall_mem_cons.2 ⟨?_, fun member hmember => ?_⟩
    · refine (isWrittenAs_value value h.right.right.right.left).mono (Nat.le_max_left ..) fun name hname => ?_
      exact List.mem_cons_of_mem _ (List.mem_append_left _ hname)
    · refine (hrest member hmember).mono (Nat.le_max_right ..) fun name hname => ?_
      exact List.mem_cons_of_mem _ (List.mem_append_right _ hname)

variable {mark : Mark} {members : List (String × Mark × Value)}

/-- The members of an object that is parsed are written between its brackets. -/
theorem exists_entries_of_parse_eq_ok (h : parse source = .ok (.object mark members)) :
    members = [] ∨ ∃ (written : Json.Members) (start : Nat), source.Holds start written.bytes ∧
      written.depth ≤ 256 ∧ (∀ name ∈ written.names, (Quoted.decode? name).isSome = true) ∧
      members = Catalog.gather (written.entries source start) := by
  obtain ⟨t, hbytes, hdepth, hnames, hvalue⟩ := exists_document_of_parse_eq_ok h
  have hholds := t.holds_root hbytes
  rw [Json.Document.value] at hvalue
  cases hroot : t.root with
  | literal | emptyArray | array =>
    rw [hroot] at hvalue
    cases hvalue
  | emptyObject =>
    rw [hroot] at hvalue
    exact Or.inl (Value.object.inj hvalue).2.symm
  | object written =>
    rw [hroot] at hvalue hholds hdepth hnames
    rw [Json.bytes] at hholds
    exact Or.inr ⟨written, _, hholds.tail.left, (Nat.le_succ _).trans hdepth, Json.areValid_iff.1 hnames,
      (Value.object.inj hvalue).2.symm⟩

/-- **The members of an object that is parsed can be parsed by themselves**, from the bytes that they mark. -/
theorem exists_parse_member (h : parse source = .ok (.object mark members)) {member : String × Mark × Value}
    (hmember : member ∈ members) (name : String) :
    ∃ v, parse ⟨name, member.2.2.bytes⟩ = .ok v ∧ v.datum = member.2.2.datum := by
  rcases exists_entries_of_parse_eq_ok h with rfl | ⟨written, start, hholds, hdepth, hnames, rfl⟩
  · cases hmember
  · obtain ⟨part, hpart, hdatum, hpartDepth, hpartNames⟩ :=
      areWrittenAs_entries written hholds member (Catalog.mem_of_mem_gather hmember)
    rw [hpart, hdatum]
    exact part.exists_parse (hpartDepth.trans hdepth) (fun other hother => hnames other (hpartNames other hother))
      name

/-- The members of an object that is parsed have distinct names. -/
theorem nodup_keys_of_parse_eq_ok (h : parse source = .ok (.object mark members)) :
    (Catalog.keys members).Nodup := by
  rcases exists_entries_of_parse_eq_ok h with rfl | ⟨written, start, -, -, -, rfl⟩
  · exact List.nodup_nil
  · rw [← Catalog.insertAll_nil_eq]
    exact Catalog.nodup_keys_insertAll Catalog.nodup_keys_nil _

end Value

/-! ## Data that can be written -/

namespace Datum

/-- A text of the grammar writes the datum, and its containers nest at most so deep. -/
def IsWritable (levels : Nat) (d : Datum) : Prop :=
  ∃ t : Json, t.datum = d ∧ t.depth ≤ levels ∧ ∀ name ∈ t.names, (Quoted.decode? name).isSome = true

variable {levels : Nat}

theorem isWritable_literal {token : Bytes} (h : IsLiteral token) (levels : Nat) :
    (literal token).IsWritable levels :=
  ⟨.literal ⟨token, h⟩, rfl, Nat.zero_le _, nofun⟩

/-- Items that can be written one by one can be written one after another. -/
theorem exists_items {items : List Datum} (hne : items ≠ []) (h : ∀ item ∈ items, item.IsWritable levels) :
    ∃ t : Json.Items, t.data = items ∧ t.depth ≤ levels ∧
      ∀ name ∈ t.names, (Quoted.decode? name).isSome = true := by
  induction items with
  | nil => exact (hne rfl).elim
  | cons item rest ih =>
    obtain ⟨⟨t, rfl, hdepth, hnames⟩, hrest⟩ := List.forall_mem_cons.1 h
    by_cases hlast : rest = []
    · subst hlast
      exact ⟨.last Json.noBlank t Json.noBlank, rfl, hdepth, hnames⟩
    · obtain ⟨more, rfl, hmoreDepth, hmoreNames⟩ := ih hlast hrest
      refine ⟨.more Json.noBlank t Json.noBlank more, rfl, max_le hdepth hmoreDepth, fun name hname => ?_⟩
      exact (List.mem_append.1 hname).elim (hnames name) (hmoreNames name)

theorem isWritable_array {items : List Datum} (h : ∀ item ∈ items, item.IsWritable levels) :
    (array items).IsWritable (levels + 1) := by
  by_cases hne : items = []
  · subst hne
    exact ⟨.emptyArray Json.noBlank, rfl, Nat.le_add_left 1 levels, nofun⟩
  · obtain ⟨t, rfl, hdepth, hnames⟩ := exists_items hne h
    exact ⟨.array t, rfl, Nat.succ_le_succ hdepth, hnames⟩

/-- Members that can be written one by one can be written one after another. -/
theorem exists_members {members : List (String × Datum)} (hne : members ≠ [])
    (h : ∀ member ∈ members, (∃ bytes, Quoted.decode? bytes = some member.1) ∧ member.2.IsWritable levels) :
    ∃ t : Json.Members, t.data = members ∧ t.depth ≤ levels ∧
      ∀ name ∈ t.names, (Quoted.decode? name).isSome = true := by
  induction members with
  | nil => exact (hne rfl).elim
  | cons member rest ih =>
    obtain ⟨name, d⟩ := member
    obtain ⟨⟨⟨literal, hliteral⟩, t, rfl, hdepth, hnames⟩, hrest⟩ := List.forall_mem_cons.1 h
    obtain ⟨bytes, hstring, hdecode⟩ := Quoted.exists_isString_of_decode? hliteral
    have htext : Json.Name.text ⟨bytes, hstring⟩ = name := by rw [Json.Name.text, hdecode, Option.getD_some]
    have hname : (Quoted.decode? bytes).isSome = true := by rw [hdecode]; rfl
    by_cases hlast : rest = []
    · subst hlast
      refine ⟨.last Json.noBlank ⟨bytes, hstring⟩ Json.bareColon t Json.noBlank, ?_, hdepth, ?_⟩
      · rw [Json.Members.data, htext]
      · exact List.forall_mem_cons.2 ⟨hname, hnames⟩
    · obtain ⟨more, rfl, hmoreDepth, hmoreNames⟩ := ih hlast hrest
      refine ⟨.more Json.noBlank ⟨bytes, hstring⟩ Json.bareColon t Json.noBlank more, ?_, max_le hdepth hmoreDepth, ?_⟩
      · rw [Json.Members.data, htext]
      · refine List.forall_mem_cons.2 ⟨hname, fun other hother => ?_⟩
        exact (List.mem_append.1 hother).elim (hnames other) (hmoreNames other)

theorem isWritable_object {members : List (String × Datum)} (hnodup : (Catalog.keys members).Nodup)
    (h : ∀ member ∈ members, (∃ bytes, Quoted.decode? bytes = some member.1) ∧ member.2.IsWritable levels) :
    (object members).IsWritable (levels + 1) := by
  by_cases hne : members = []
  · subst hne
    exact ⟨.emptyObject Json.noBlank, rfl, Nat.le_add_left 1 levels, nofun⟩
  · obtain ⟨t, rfl, hdepth, hnames⟩ := exists_members hne h
    refine ⟨.object t, ?_, Nat.succ_le_succ hdepth, hnames⟩
    rw [Json.datum, Catalog.gather_eq_self hnodup]

/-- **What can be written can be read**: some text is read as a value that has no more to it than the
datum. -/
theorem IsWritable.exists_parse {d : Datum} (h : d.IsWritable 256) (name : String) :
    ∃ text v, Value.parse ⟨name, text⟩ = .ok v ∧ v.datum = d := by
  obtain ⟨t, rfl, hdepth, hnames⟩ := h
  exact ⟨t.bytes, t.exists_parse hdepth hnames name⟩

end Datum
end ExampleSchema
