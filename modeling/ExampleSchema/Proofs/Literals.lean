import ExampleSchema.Proofs.Decimal.Checking
import ExampleSchema.Proofs.Json.Encoding
import ExampleSchema.Schema.EnumRule

/-!
# The literals of an enumeration

An enumeration lists literals of which no two say the same, whatever has been done to it.  A string says its text,
however it is escaped; a number says how it is written, and of the blanks around a literal nothing is said.  What is
compared can be written out and read back, so a message or a listing names each literal in a way that decides which
one is meant.

* `LiteralKey.IsOf`: what a literal says, with `LiteralKey.ofBytes_eq_ok_iff`.
* `LiteralKey.ofBytes_text`: what is written for it says the same.
* `Enumeration.Call`, `Enumeration.after`: adding literals and taking over the items of rules, in any order.
* `Enumeration.perform_isDistinct`, `Enumeration.after_isDistinct`: the items stay distinct through one call and all.
* `Enumeration.lists_distinct`: all of that, with what the items decide about further literals.
-/

namespace ExampleSchema

/-! ## Blanks in decoded texts -/

namespace Utf8

/-- What a lead says of the number of a character that begins with it: the number is too large for one byte. -/
theorem lead?_spec {b : UInt8} {lead : Lead} (h : lead? b = some lead) :
    lead.high.toNat ≤ 0xBF ∧ 0x80 ≤ lead.low.toNat ∧ ((lead.more = 0 ∧ 2 ≤ b.toNat % 32) ∨
      (lead.more = 1 ∧ (1 ≤ b.toNat % 16 ∨ 0xA0 ≤ lead.low.toNat)) ∨
      (lead.more = 2 ∧ (1 ≤ b.toNat % 8 ∨ 0x90 ≤ lead.low.toNat))) := by
  unfold lead? at h
  simp only [UInt8.le_iff_toNat_le, ← UInt8.toNat_inj] at h
  repeat' split at h
  all_goals simp_all
  all_goals subst h
  all_goals simp
  all_goals omega

/-- A character of a large number has it, unless there is no such character. -/
theorem toNat_char_ofNat {n : Nat} (h : 0x80 ≤ n) : (Char.ofNat n).toNat = 0 ∨ 0x80 ≤ (Char.ofNat n).toNat := by
  rw [Char.ofNat]
  split
  · exact Or.inr h
  · exact Or.inl rfl

/-- A character that is read is one byte, or it is none of the ASCII characters but the first. -/
theorem next_eq {b : UInt8} {rest left : Bytes} {c : Char} (h : next b rest = (some c, left)) :
    (b < 0x80 ∧ c = Bytes.char b ∧ left = rest) ∨ c.toNat = 0 ∨ 0x80 ≤ c.toNat := by
  unfold next at h
  split at h
  · next hb =>
    cases h
    exact Or.inl ⟨hb, rfl, rfl⟩
  refine Or.inr ?_
  split at h
  · cases h
  next lead hlead =>
  obtain ⟨hhigh, hlow, hmore⟩ := lead?_spec hlead
  split at h
  case h_2 => cases h
  next d rest₁ =>
  split at h
  case isFalse => cases h
  next hd =>
  rw [UInt8.le_iff_toNat_le, UInt8.le_iff_toNat_le] at hd
  -- The first byte, or the range of the second one, adds a bit above the lower seven.
  rcases hmore with ⟨hmore, hb⟩ | ⟨hmore, hb⟩ | ⟨hmore, hb⟩
  · rw [hmore] at h
    cases h
    refine toNat_char_ofNat ?_
    omega
  · rw [hmore] at h
    rcases rest₁ with _ | ⟨e, rest₂⟩
    · cases h
    replace h : (if isTail e = true then
        (some (Char.ofNat ((b.toNat % 16 * 64 + payload d) * 64 + payload e)), rest₂) else (none, e :: rest₂)) =
      (some c, left) := h
    split at h
    · cases h
      refine toNat_char_ofNat ?_
      unfold payload
      omega
    · cases h
  · rw [hmore] at h
    rcases rest₁ with _ | ⟨e, _ | ⟨f, rest₃⟩⟩
    · cases h
    · replace h : (if isTail e = true then (none, []) else (none, [e])) = (some c, left) := h
      split at h <;> cases h
    replace h : (if isTail e = true then
        if isTail f = true then
          (some (Char.ofNat (((b.toNat % 8 * 64 + payload d) * 64 + payload e) * 64 + payload f)), rest₃)
        else (none, f :: rest₃)
      else (none, e :: f :: rest₃)) = (some c, left) := h
    split at h
    · split at h
      · cases h
        refine toNat_char_ofNat ?_
        unfold payload
        omega
      · cases h
    · cases h

/-- What is left behind a character is the end of the text. -/
theorem next_suffix (b : UInt8) (rest : Bytes) : (next b rest).2 <:+ rest := by
  unfold next
  repeat' split
  all_goals simp_all
  all_goals first | exact ⟨[_, _], rfl⟩ | exact ⟨[_, _, _], rfl⟩

/-- An ASCII character is one byte. -/
theorem utf8EncodeChar_of_lt {c : Char} (h : c.toNat < 0x80) : String.utf8EncodeChar c = [c.toUInt8] := by
  have hbytes := encode_eq_map (List.forall_mem_singleton.2 h)
  rwa [encode, List.flatMap_singleton] at hbytes

/-- The bytes of a character that are blanks are the whole character. -/
theorem isSpace_of_mem_utf8EncodeChar {c : Char} {b : UInt8} (hb : b ∈ String.utf8EncodeChar c)
    (hspace : Bytes.isSpace b = true) : c = Bytes.char b := by
  have hlow : b.toNat < 0x80 := Nat.lt_of_not_le fun hle => by
    unfold Bytes.isSpace at hspace
    split at hspace
    iterate 4 next h => exact Bytes.char_ne_of_le hle (by decide) h
    cases hspace
  have hascii : c.toNat < 0x80 := Nat.lt_of_not_le fun hle => Nat.not_le.2 hlow (le_of_mem_utf8EncodeChar hle hb)
  rw [utf8EncodeChar_of_lt hascii, List.mem_singleton] at hb
  rw [hb, Bytes.char_toUInt8 hascii]

/-- A character that is read from the end of a text is a blank only if the text ends with that byte alone. -/
theorem isSpace_of_next {b c : UInt8} {rest : Bytes} (hleft : (next b rest).2 = [])
    (hc : c ∈ String.utf8EncodeChar ((next b rest).1.getD (Char.ofNat 0xFFFD))) (hspace : Bytes.isSpace c = true) :
    rest = [] ∧ b = c := by
  have hchar := isSpace_of_mem_utf8EncodeChar hc hspace
  have hblank : (Bytes.char c).toNat ≠ 0 ∧ (Bytes.char c).toNat < 0x80 := by
    unfold Bytes.isSpace at hspace
    split at hspace
    iterate 4 next h => rw [h]; decide
    cases hspace
  cases hgroup : (next b rest).1 with
  | none =>
    rw [hgroup] at hchar
    rw [← hchar] at hblank
    exact absurd hblank.2 (by decide)
  | some group =>
    rw [hgroup] at hchar
    obtain rfl : group = Bytes.char c := hchar
    rcases next_eq (Prod.ext hgroup rfl) with ⟨-, hb, hrest⟩ | hzero | hhigh
    · exact ⟨hrest.symm.trans hleft, (Bytes.eq_of_char_eq rfl).trans (hb ▸ (Bytes.eq_of_char_eq rfl).symm)⟩
    · exact absurd hzero hblank.1
    · omega

/-- **Decoding adds no blank at the end.** -/
theorem isSpace_getLast_ofString {text : Bytes} (h : ∀ b ∈ text.getLast?, Bytes.isSpace b = false) :
    ∀ b ∈ (Bytes.ofString text.toText).getLast?, Bytes.isSpace b = false := by
  have hbytes : Bytes.ofString text.toText =
      encode ((groups text).map fun group => group.getD (Char.ofNat 0xFFFD)) := by
    rw [Bytes.ofString, Bytes.toText, decodeLossy, String.toList_ofList]
  rw [hbytes]
  clear hbytes
  fun_induction groups text with
  | case1 =>
    intro last hlast
    cases hlast
  | case2 b rest ih =>
    intro last hlast
    rw [List.map_cons, encode_cons] at hlast
    by_cases hleft : (next b rest).2 = []
    · rw [hleft, groups_nil, List.map_nil, encode_nil, List.append_nil] at hlast
      refine Bool.eq_false_iff.2 fun hspace => ?_
      obtain ⟨rfl, rfl⟩ := isSpace_of_next hleft (List.mem_of_getLast? hlast) hspace
      rw [h b rfl] at hspace
      cases hspace
    · obtain ⟨group, hgroup⟩ := next_suffix b rest
      refine ih ?_ last ?_
      · intro b' hb'
        refine h b' ?_
        rw [← hgroup, ← List.cons_append, List.getLast?_append_of_ne_nil _ hleft]
        exact hb'
      · obtain ⟨first, left, hcons⟩ := List.exists_cons_of_ne_nil hleft
        obtain ⟨byte, tail, hbytes, -⟩ :=
          exists_next_of_utf8EncodeChar ((next first left).1.getD (Char.ofNat 0xFFFD)) []
        rwa [List.getLast?_append_of_ne_nil] at hlast
        rw [hcons, groups_cons, List.map_cons, encode_cons, hbytes]
        exact List.cons_ne_nil _ _

/-- **Decoding keeps an ASCII character at the beginning.** -/
theorem exists_ofString_cons {b : UInt8} (hb : b < 0x80) (rest : Bytes) :
    ∃ rest', Bytes.ofString (Bytes.toText (b :: rest)) = b :: rest' := by
  have hascii : (Bytes.char b).toNat < 0x80 := by
    rw [Bytes.toNat_char]
    exact UInt8.lt_iff_toNat_lt.1 hb
  have hnext : next b rest = (some (Bytes.char b), rest) := by rw [next, if_pos hb]
  rw [Bytes.ofString, Bytes.toText, decodeLossy, String.toList_ofList, groups_cons, hnext, List.map_cons,
    Option.getD_some, encode_cons, utf8EncodeChar_of_lt hascii]
  exact ⟨_, congrArg (· :: _) (Bytes.eq_of_char_eq rfl).symm⟩

end Utf8

/-! ## What literals say -/

/-- A trimmed text does not begin with a blank. -/
theorem Bytes.isSpace_head_trim (text : Bytes) : ∀ b ∈ text.trim.head?, isSpace b = false := by
  intro b hb
  obtain ⟨rest, htext⟩ : text.trim <+: text.dropWhile isSpace := List.rdropWhile_prefix isSpace _
  have hhead : (text.dropWhile isSpace).head? = some b := by
    rw [← htext, List.head?_append, Option.mem_def.1 hb, Option.some_or]
  have hnot := List.head?_dropWhile_not isSpace text
  rw [hhead] at hnot
  exact Bool.eq_false_iff.2 (by simpa using hnot)

/-- A trimmed text does not end with a blank. -/
theorem Bytes.isSpace_getLast_trim (text : Bytes) : ∀ b ∈ text.trim.getLast?, isSpace b = false := by
  intro b hb
  obtain ⟨hne, rfl⟩ := List.mem_getLast?_eq_getLast hb
  exact Bool.eq_false_iff.2 (List.rdropWhile_last_not isSpace _ hne)

/-- What a number begins with is ASCII. -/
theorem Scan.lt_of_beginsNumber {b : UInt8} (h : BeginsNumber b) : b < 0x80 := by
  have hascii : (Bytes.char b).toNat < 0x80 := by
    rcases h with h | h
    · rw [h]
      decide
    · exact Numeral.toNat_lt_of_isDigit h
  rw [Bytes.toNat_char] at hascii
  exact UInt8.lt_iff_toNat_lt.2 hascii

namespace LiteralKey

variable {literal : Bytes} {key : LiteralKey}

/-- What a literal says: a string its text, a number how it is written, and blanks around it say nothing. -/
inductive IsOf (literal : Bytes) : LiteralKey → Prop
  | string {text : String} (h : Quoted.decode? literal = some text) : IsOf literal (.string text)
  | number (h : Literal.isNumber literal = true) : IsOf literal (.number literal.trim.toText)
  | boolean (h : JsonType.ofBytes? literal = some .boolean) :
    IsOf literal (.boolean (literal.trim == Bytes.ofString "true"))
  | null (h : JsonType.ofBytes? literal = some .null) : IsOf literal .null

theorem jsonType_trim (literal : Bytes) : JsonType.ofBytes? literal.trim = JsonType.ofBytes? literal := by
  rw [JsonType.ofBytes?, JsonType.ofBytes?, Bytes.trim_trim]

/-- **What a literal is compared by is what it says.** -/
theorem ofBytes_eq_ok_iff : ofBytes literal = .ok key ↔ IsOf literal key := by
  have hdecode : Quoted.decode? literal.trim = Quoted.decode? literal := by
    rw [Quoted.decode?, Quoted.decode?, Bytes.trim_trim]
  rw [ofBytes, jsonType_trim]
  constructor
  · intro h
    split at h
    · obtain ⟨text, htext, h⟩ := Except.bind_eq_ok_iff.1 h
      cases h
      exact .string (hdecode ▸ Literal.string_eq_ok_iff.1 htext)
    · next htype =>
      cases h
      exact .number (Literal.isNumber_eq_true_iff.2 (Or.inl htype))
    · next htype =>
      cases h
      exact .number (Literal.isNumber_eq_true_iff.2 (Or.inr htype))
    · next htype =>
      cases h
      exact .boolean htype
    · next htype =>
      cases h
      exact .null htype
    · cases h
  · intro h
    cases h with
    | string h =>
      have htext := Literal.string_eq_ok_iff.2 h
      rw [Literal.jsonType_of_string_eq_ok htext]
      dsimp only
      rw [Literal.string_trim htext]
      rfl
    | number h => rcases Literal.isNumber_eq_true_iff.1 h with h | h <;> rw [h]
    | boolean h => rw [h]
    | null h => rw [h]

theorem IsOf.eq {other : LiteralKey} (h : IsOf literal key) (h' : IsOf literal other) : other = key :=
  Except.ok.inj ((ofBytes_eq_ok_iff.2 h').symm.trans (ofBytes_eq_ok_iff.2 h))

/-- A literal that says nothing is none, or it is a string that cannot be read. -/
theorem code_of_ofBytes_eq_error {cause : Cause} (h : ofBytes literal = .error cause) :
    cause.code ≠ .duplicateEnumValue := by
  unfold ofBytes at h
  dsimp only at h
  split at h
  · rcases Except.bind_eq_error_iff.1 h with h | ⟨text, -, h⟩
    · unfold Literal.string at h
      split at h
      · cases h
      · cases h
        intro hcode
        cases hcode
    · cases h
  iterate 4 next => cases h
  · cases h
    intro hcode
    cases hcode

/-- The text of a number is read as that number. -/
theorem isOf_text_of_isNumber (h : Literal.isNumber literal = true) :
    IsOf (Bytes.ofString literal.trim.toText) (.number literal.trim.toText) := by
  rw [Literal.isNumber_eq_true_iff, ← jsonType_trim, ← Literal.isNumber_eq_true_iff] at h
  have hfirst := Bytes.isSpace_head_trim literal
  have hlast := Utf8.isSpace_getLast_ofString (Bytes.isSpace_getLast_trim literal)
  cases htrim : literal.trim with
  | nil =>
    rw [htrim] at h
    cases h
  | cons b rest =>
    rw [htrim] at h hfirst hlast
    have hb := hfirst b rfl
    rw [Literal.isNumber_cons hb] at h
    obtain ⟨rest', htext⟩ := Utf8.exists_ofString_cons (Scan.lt_of_beginsNumber h) rest
    have hnumber : Literal.isNumber (Bytes.ofString (Bytes.toText (b :: rest))) = true := by
      rwa [htext, Literal.isNumber_cons hb]
    have hself : (Bytes.ofString (Bytes.toText (b :: rest))).trim.toText = Bytes.toText (b :: rest) := by
      rw [Bytes.trim_eq_self_of_ends _ hlast, Utf8.toText_ofString]
      rw [htext]
      exact fun c hc => Option.mem_some.1 hc ▸ hb
    have hkey := IsOf.number hnumber
    rwa [hself] at hkey

/-- **What is written for a literal says the same as the literal.** -/
theorem ofBytes_text (h : ofBytes literal = .ok key) : ofBytes (Bytes.ofString key.text) = .ok key := by
  cases ofBytes_eq_ok_iff.1 h with
  | string => exact ofBytes_eq_ok_iff.2 (.string (Quoted.decode?_encode _))
  | number hnumber => exact ofBytes_eq_ok_iff.2 (isOf_text_of_isNumber hnumber)
  | boolean =>
    cases literal.trim == Bytes.ofString "true"
    · decide
    · decide
  | null => decide

end LiteralKey

/-! ## One call and all -/

namespace Enumeration

variable {e : Enumeration}

/-- What the items say. -/
def keys (e : Enumeration) : List LiteralKey := e.items.map EnumItem.key

/-- No two items say the same. -/
def IsDistinct (e : Enumeration) : Prop := e.keys.Nodup

theorem contains_eq_true_iff {key : LiteralKey} : e.contains key = true ↔ key ∈ e.keys := by
  rw [contains, keys, List.any_eq_true, List.mem_map]
  exact exists_congr fun item => and_congr_right fun _ => beq_iff_eq

/-- **Adding a literal**: it is no literal, or an item says the same, or it is the last item. -/
theorem append_eq (e : Enumeration) (literal : Bytes) (comment? : Option String) :
    e.append literal comment? = (LiteralKey.ofBytes literal).bind fun key =>
      if key ∈ e.keys then .error (.duplicateEnumValue literal.trim.toText)
      else .ok { e with items := e.items ++ [⟨key, literal.trim.toText, comment?⟩] } := by
  cases hkey : LiteralKey.ofBytes literal with
  | error cause => rw [append, hkey]; rfl
  | ok key =>
    rw [append, hkey]
    by_cases hmem : key ∈ e.keys
    · have hcontains := contains_eq_true_iff.2 hmem
      simp [hcontains, hmem, bind, Except.bind, throw, throwThe, MonadExceptOf.throw]
    · have hcontains := Bool.eq_false_iff.2 fun h => hmem (contains_eq_true_iff.1 h)
      simp [hcontains, hmem, bind, Except.bind, pure, Except.pure]

theorem append_eq_ok_iff {literal : Bytes} {comment? : Option String} {added : Enumeration} :
    e.append literal comment? = .ok added ↔ ∃ key, LiteralKey.IsOf literal key ∧ key ∉ e.keys ∧
      added = { e with items := e.items ++ [⟨key, literal.trim.toText, comment?⟩] } := by
  simp only [append_eq, ← LiteralKey.ofBytes_eq_ok_iff]
  refine Except.bind_eq_ok_iff.trans (exists_congr fun key => and_congr_right fun _ => ?_)
  split <;> simp_all [eq_comm]

/-- **Adding a literal fails as a repetition if an item says the same**, and only then. -/
theorem append_repeats_iff (e : Enumeration) (literal : Bytes) (comment? : Option String) :
    (∃ cause, e.append literal comment? = .error cause ∧ cause.code = .duplicateEnumValue) ↔
      ∃ key, LiteralKey.IsOf literal key ∧ key ∈ e.keys := by
  rw [append_eq]
  constructor
  · rintro ⟨cause, h, hcode⟩
    rcases Except.bind_eq_error_iff.1 h with h | ⟨key, hkey, h⟩
    · exact (LiteralKey.code_of_ofBytes_eq_error h hcode).elim
    · split at h
      · next hmem => exact ⟨key, LiteralKey.ofBytes_eq_ok_iff.1 hkey, hmem⟩
      · cases h
  · rintro ⟨key, hkey, hmem⟩
    rw [LiteralKey.ofBytes_eq_ok_iff.2 hkey]
    exact ⟨.duplicateEnumValue literal.trim.toText, if_pos hmem, rfl⟩

/-- **The literals that are allowed are those that say what an item says.** -/
theorem check_eq_ok_iff {value : Bytes} :
    e.check value = .ok () ↔ ∃ key, LiteralKey.IsOf value key ∧ key ∈ e.keys := by
  simp only [check, ← LiteralKey.ofBytes_eq_ok_iff, ← contains_eq_true_iff]
  refine Except.bind_eq_ok_iff.trans (exists_congr fun key => and_congr_right fun _ => ?_)
  split
  · next h => exact ⟨fun _ => h, fun _ => rfl⟩
  · next h => exact ⟨nofun, fun h' => (h h').elim⟩

theorem IsDistinct.append {literal : Bytes} {comment? : Option String} {added : Enumeration} (h : e.IsDistinct)
    (hadded : e.append literal comment? = .ok added) : added.IsDistinct := by
  obtain ⟨key, -, hnew, rfl⟩ := append_eq_ok_iff.1 hadded
  rw [IsDistinct, keys, List.map_append, List.map_singleton]
  refine List.nodup_append.2 ⟨h, List.nodup_singleton _, ?_⟩
  intro known hknown other hother heq
  rw [heq, List.mem_singleton.1 hother] at hknown
  exact hnew hknown

/-- The items of a rule are added one by one. -/
theorem isDistinct_of_load {source : Source} {rule : Enumeration} (h : load source = .ok rule) : rule.IsDistinct := by
  obtain ⟨reader, -, h⟩ := Except.bind_eq_ok_iff.1 h
  have hall : (reader.items.reverse.foldlM (fun (e : Enumeration) (item : Mark × Option String) =>
      Verdict.on (e.append item.1.bytes item.2) item.1) {}).Meets IsDistinct fun _ => True := by
    refine Except.Meets.foldlM List.nodup_nil fun e he item _ => ?_
    cases hadded : e.append item.1.bytes item.2 with
    | ok added => exact he.append hadded
    | error => trivial
  exact hall.of_ok h

/-- What is done to an enumeration: a literal is added, or it takes over the items of a rule. -/
inductive Call
  | append (literal : Bytes) (comment? : Option String)
  | resolve (source : Source) (rule : Enumeration) (h : load source = .ok rule)

/-- One call: what is there afterwards, and what the call says. -/
def perform (e : Enumeration) : Call → Enumeration × Verdict Unit
  | .append literal comment? =>
    match e.append literal comment? with
    | .ok added => (added, .ok ())
    | .error cause => (e, .error cause)
  | .resolve _ rule _ => (e.resolve rule.items, .ok ())

/-- What is there after some calls, whatever they say. -/
def after (e : Enumeration) (calls : List Call) : Enumeration := calls.foldl (fun e call => (e.perform call).1) e

/-- **One call keeps the items distinct.** -/
theorem IsDistinct.perform (h : e.IsDistinct) (call : Call) : (e.perform call).1.IsDistinct := by
  cases call with
  | append literal comment? =>
    rw [Enumeration.perform]
    split
    · next added hadded => exact h.append hadded
    · exact h
  | resolve source rule hload => exact (isDistinct_of_load hload : rule.IsDistinct)

/-- **All calls keep the items distinct.** -/
theorem IsDistinct.after (h : e.IsDistinct) (calls : List Call) : (e.after calls).IsDistinct := by
  induction calls generalizing e with
  | nil => exact h
  | cons call calls ih => exact ih (h.perform call)

/-- **The items of an enumeration are distinct, and decide by what they say.**  However literals are added and items
taken over, no two items say the same.  A literal that cannot be added changes nothing, and it is refused as a
repetition exactly if an item says what it says.  A literal is accepted exactly if an item says what it says.  What is
written for a literal says the same as the literal. -/
theorem lists_distinct :
    (∀ calls, ((({} : Enumeration).after calls).items.map EnumItem.key).Nodup) ∧
    (∀ name calls, (((ofRule name).after calls).items.map EnumItem.key).Nodup) ∧
    (∀ (e : Enumeration) literal comment? cause, (e.perform (.append literal comment?)).2 = .error cause →
      (e.perform (.append literal comment?)).1 = e) ∧
    (∀ (e : Enumeration) literal comment?,
      (∃ cause, (e.perform (.append literal comment?)).2 = .error cause ∧ cause.code = .duplicateEnumValue) ↔
        ∃ item ∈ e.items, LiteralKey.IsOf literal item.key) ∧
    (∀ (e : Enumeration) value, e.check value = .ok () ↔ ∃ item ∈ e.items, LiteralKey.IsOf value item.key) ∧
    ∀ literal key, LiteralKey.ofBytes literal = .ok key →
      LiteralKey.IsOf literal key ∧ LiteralKey.ofBytes (Bytes.ofString key.text) = .ok key := by
  have hmem {e : Enumeration} {literal : Bytes} : (∃ key, LiteralKey.IsOf literal key ∧ key ∈ e.keys) ↔
      ∃ item ∈ e.items, LiteralKey.IsOf literal item.key := by
    simp only [keys, List.mem_map]
    constructor
    · rintro ⟨_, hkey, item, hitem, rfl⟩
      exact ⟨item, hitem, hkey⟩
    · rintro ⟨item, hitem, hkey⟩
      exact ⟨item.key, hkey, item, hitem, rfl⟩
  refine ⟨fun calls => ?_, fun name calls => ?_, fun e literal comment? cause h => ?_, fun e literal comment? => ?_,
    fun e value => check_eq_ok_iff.trans hmem,
    fun literal key h => ⟨LiteralKey.ofBytes_eq_ok_iff.1 h, LiteralKey.ofBytes_text h⟩⟩
  · exact IsDistinct.after (e := {}) List.nodup_nil calls
  · exact IsDistinct.after (e := ofRule name) List.nodup_nil calls
  · rw [Enumeration.perform] at h ⊢
    split at h
    · cases h
    · rfl
  · rw [← hmem, ← append_repeats_iff e literal comment?, Enumeration.perform]
    split
    · next added hadded => simp [hadded]
    · next cause hcause => simp [hcause]

end Enumeration
end ExampleSchema
