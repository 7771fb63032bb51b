import ExampleSchema.Proofs.Json.Building

/-!
# The literals of a value

A value keeps its literals as marks of where they are written.  Any mark would do for the value, but those
of a value that has been parsed are over literals of the grammar, and a literal tells its type by its
first byte.

* `IsLiteral.exists_jsonType`: what a literal is, told from its first byte.
* `Value.IsProper`: the literals of a value are over literals of the grammar.
* `Value.isProper_of_parse_eq_ok`: what is parsed is such a value.
-/

namespace ExampleSchema

/-! ## First bytes -/

/-- A text that begins with no blank keeps its first byte when it is trimmed. -/
theorem Bytes.exists_trim_cons {b : UInt8} (hb : isSpace b = false) (rest : Bytes) :
    ∃ rest', trim (b :: rest) = b :: rest' := by
  have hlast : ∃ front, (rest.reverse ++ [b]).dropWhile isSpace = front ++ [b] := by
    rw [List.dropWhile_append]
    split
    · exact ⟨[], List.dropWhile_cons_of_neg (by simp [hb])⟩
    · exact ⟨_, rfl⟩
  obtain ⟨front, hfront⟩ := hlast
  refine ⟨front.reverse, ?_⟩
  rw [trim, List.dropWhile_cons_of_neg (by simp [hb]), List.reverse_cons, hfront,
    List.reverse_append]
  rfl

/-- The first byte of a literal is no blank. -/
theorem Scan.isSpace_of_literalMode? {b : UInt8} {mode : Mode} (h : literalMode? b = some mode) :
    Bytes.isSpace b = false := by
  rw [← Bool.not_eq_true]
  intro hspace
  unfold Bytes.isSpace at hspace
  split at hspace
  iterate 4
    next hb =>
      rw [literalMode?, hb] at h
      cases h
  · cases hspace

/-- The first byte of a literal tells its type, whatever follows it. -/
theorem JsonType.exists_of_literalMode? {b : UInt8} {mode : Scan.Mode}
    (h : Scan.literalMode? b = some mode) (rest : Bytes) :
    ∃ type, ofBytes? (b :: rest) = some type ∧ type.isLiteral = true := by
  have hother : ∀ c ∈ ['{', '[', '@'], Bytes.char b ≠ c := by
    rintro c hc hb
    rw [Scan.literalMode?, hb] at h
    simp only [List.mem_cons, List.not_mem_nil, or_false] at hc
    rcases hc with rfl | rfl | rfl <;> cases h
  obtain ⟨rest', htrim⟩ := Bytes.exists_trim_cons (Scan.isSpace_of_literalMode? h) rest
  rw [ofBytes?, htrim]
  dsimp only
  split
  · exact ⟨.string, rfl, rfl⟩
  · next hb => exact (hother _ (by simp) hb).elim
  · next hb => exact (hother _ (by simp) hb).elim
  · exact ⟨.boolean, rfl, rfl⟩
  · exact ⟨.boolean, rfl, rfl⟩
  · exact ⟨.null, rfl, rfl⟩
  · next hb => exact (hother _ (by simp) hb).elim
  · have hnumber : (Bytes.char b == '-' || (Bytes.char b).isDigit) = true := by
      unfold Scan.literalMode? at h
      split at h
      iterate 6 simp_all
      split at h
      · simp_all
      · cases h
    rw [if_pos hnumber]
    split
    · exact ⟨.float, rfl, rfl⟩
    · exact ⟨.integer, rfl, rfl⟩

/-- **What a literal is**, told from its first byte. -/
theorem IsLiteral.exists_jsonType {text : Bytes} (h : IsLiteral text) :
    ∃ type, JsonType.ofBytes? text = some type ∧ type.isLiteral = true := by
  cases text with
  | nil => exact (Scan.not_isLiteral_nil h).elim
  | cons b tail =>
    obtain ⟨mode, hmode, -⟩ := Scan.exists_literalMode? h
    exact JsonType.exists_of_literalMode? hmode tail

/-- A literal that is trimmed still tells what it is. -/
theorem IsLiteral.exists_type {text : Bytes} (h : IsLiteral text) :
    ∃ type, JsonType.ofBytes? text.trim = some type ∧ type.isLiteral = true := by
  cases text with
  | nil => exact (Scan.not_isLiteral_nil h).elim
  | cons b tail =>
    obtain ⟨mode, hmode, -⟩ := Scan.exists_literalMode? h
    obtain ⟨rest, htrim⟩ := Bytes.exists_trim_cons (Scan.isSpace_of_literalMode? hmode) tail
    rw [htrim]
    exact JsonType.exists_of_literalMode? hmode rest

/-! ## The literals of a value -/

namespace Value

/-- The literals of a value are over literals of the grammar. -/
inductive IsProper : Value → Prop
  | literal {mark : Mark} (h : IsLiteral mark.bytes) : IsProper (.literal mark)
  | array {mark : Mark} {items : List Value} (h : ∀ item ∈ items, IsProper item) :
    IsProper (.array mark items)
  | object {mark : Mark} {members : List (String × Mark × Value)}
      (h : ∀ member ∈ members, IsProper member.2.2) :
    IsProper (.object mark members)

/-- A literal of the grammar has the type of one. -/
theorem IsProper.isLiteral_jsonType {mark : Mark} (h : (Value.literal mark).IsProper) :
    (Value.literal mark).jsonType.isLiteral = true := by
  obtain ⟨h⟩ := h
  obtain ⟨type, htype, hliteral⟩ := h.exists_jsonType
  rwa [jsonType, htype]

variable {source : Source}

mutual

/-- **A value that is written somewhere** has literals of the grammar. -/
theorem isProper_value : ∀ (t : Json) {start : Nat}, source.Holds start t.bytes →
    (t.value source start).IsProper
  | .literal token, _, h => by
    have hbytes := Source.Holds.bytes_spanOf h .literal
    exact .literal (hbytes.symm ▸ token.2)
  | .emptyArray _, _, _ => .array nofun
  | .array items, _, h => by
    rw [Json.bytes] at h
    exact .array (areProper_values items h.tail.left)
  | .emptyObject _, _, _ => .object nofun
  | .object members, _, h => by
    rw [Json.bytes] at h
    refine .object fun member hmember => areProper_entries members h.tail.left member ?_
    exact Catalog.mem_of_mem_gather hmember

theorem areProper_values : ∀ (items : Json.Items) {start : Nat}, source.Holds start items.bytes →
    ∀ item ∈ items.values source start, item.IsProper
  | .last before item after, _, h => by
    rw [Json.Items.bytes] at h
    exact List.forall_mem_singleton.2 (isProper_value item h.right.left)
  | .more before item after rest, _, h => by
    rw [Json.Items.bytes] at h
    exact List.forall_mem_cons.2 ⟨isProper_value item h.right.left,
      areProper_values rest h.right.right.right.tail⟩

theorem areProper_entries : ∀ (members : Json.Members) {start : Nat},
    source.Holds start members.bytes → ∀ member ∈ members.entries source start, member.2.2.IsProper
  | .last before name colon value after, _, h => by
    rw [Json.Members.bytes] at h
    exact List.forall_mem_singleton.2 (isProper_value value h.right.right.right.left)
  | .more before name colon value after rest, _, h => by
    rw [Json.Members.bytes] at h
    exact List.forall_mem_cons.2 ⟨isProper_value value h.right.right.right.left,
      areProper_entries rest h.right.right.right.right.right.tail⟩

end

/-- **What is parsed** has literals of the grammar. -/
theorem isProper_of_parse_eq_ok {v : Value} (h : parse source = .ok v) : v.IsProper := by
  obtain ⟨t, hbytes, -, -, rfl⟩ := exists_document_of_parse_eq_ok h
  exact isProper_value t.root (t.holds_root hbytes)

end Value
end ExampleSchema
