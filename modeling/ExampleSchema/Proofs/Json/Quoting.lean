import ExampleSchema.Proofs.Json.Writing
import ExampleSchema.Schema.Accept

/-!
# Quoted texts are strings

Whatever a text is, the literal that is written for it is a string of the grammar: what must be escaped is, and
the bytes of all other characters may stand for themselves.  So the names of members can be looked at as values.

* `Quoted.isString_encode`: what is written for a text is a string.
* `Value.parse_of_isLiteral`: a text that is one literal is read as a literal that spans it all.
* `Value.parse_encode`: reading what is written for a text gives the value that the text is looked at as.
-/

namespace ExampleSchema

/-- A byte that may stand for itself in a string. -/
def Bytes.IsPlain (b : UInt8) : Prop := Bytes.char b ≠ '"' ∧ Bytes.char b ≠ '\\' ∧ 0x20 ≤ b.toNat

/-- A byte of the second half is no ASCII character. -/
theorem Bytes.char_ne_of_le {b : UInt8} (h : 0x80 ≤ b.toNat) {c : Char} (hc : c.toNat < 0x80) : Bytes.char b ≠ c := by
  rintro rfl
  rw [Bytes.toNat_char] at hc
  omega

/-- The quote and the backslash are ASCII characters. -/
theorem Bytes.isPlain_of_le {b : UInt8} (h : 0x80 ≤ b.toNat) : Bytes.IsPlain b :=
  ⟨char_ne_of_le h (by decide), char_ne_of_le h (by decide), by omega⟩

theorem IsStringTail.append {bytes rest : Bytes} (h : IsStringTail rest) (hplain : ∀ b ∈ bytes, Bytes.IsPlain b) :
    IsStringTail (bytes ++ rest) := by
  induction bytes with
  | nil => exact h
  | cons b bytes ih =>
    obtain ⟨⟨hquote, hescape, hcontrol⟩, hbytes⟩ := List.forall_mem_cons.1 hplain
    exact .plain hquote hescape hcontrol (ih hbytes)

/-- Beyond the ASCII characters, each byte has its highest bit set. -/
theorem Utf8.le_of_mem_utf8EncodeChar {c : Char} (h : 0x80 ≤ c.toNat) {b : UInt8} (hb : b ∈ String.utf8EncodeChar c) :
    0x80 ≤ b.toNat := by
  have hmod : ∀ m n k : Nat, 0 < n → 0x80 ≤ k → n + k ≤ 0x100 → 0x80 ≤ (UInt8.ofNat (m % n + k)).toNat := by
    intro m n k hn hk hle
    have := Nat.mod_lt m hn
    rw [UInt8.toNat_ofNat_of_lt' (by omega : m % n + k < 256)]
    omega
  have hascii : ¬ c.val.toNat ≤ 127 := Nat.not_le.2 h
  rw [String.utf8EncodeChar.eq_1, if_neg hascii] at hb
  repeat' split at hb
  all_goals
    simp only [List.mem_cons, List.not_mem_nil, or_false] at hb
    rcases hb with rfl | rfl | rfl | rfl <;> exact hmod _ _ _ (by decide) (by decide) (by decide)

namespace Quoted

/-- The bytes of a character that need not be escaped are plain. -/
theorem isPlain_of_mem_utf8EncodeChar {c : Char} (hquote : c ≠ '"') (hescape : c ≠ '\\') (hcontrol : 0x20 ≤ c.toNat)
    {b : UInt8} (hb : b ∈ String.utf8EncodeChar c) : Bytes.IsPlain b := by
  rcases Nat.lt_or_ge c.toNat 0x80 with hascii | hhigh
  · have hle : c.val.toNat ≤ 127 := Nat.le_of_lt_succ hascii
    rw [String.utf8EncodeChar.eq_1, if_pos hle] at hb
    obtain rfl := List.mem_singleton.1 hb
    have hlt : c.val.toNat < 256 := Nat.lt_trans hascii (by decide)
    have hchar : Bytes.char (UInt8.ofNat c.val.toNat) = c := by
      refine Char.toNat_inj.1 ?_
      rw [Bytes.toNat_char, UInt8.toNat_ofNat_of_lt' hlt]
      rfl
    refine ⟨by rwa [hchar], by rwa [hchar], ?_⟩
    rwa [← Bytes.toNat_char, hchar]
  · exact Bytes.isPlain_of_le (Utf8.le_of_mem_utf8EncodeChar hhigh hb)

/-- A hexadecimal digit is one byte. -/
theorem utf8EncodeChar_hexDigit {n : Nat} (h : n < 16) :
    ∃ b, String.utf8EncodeChar (hexDigit n) = [b] ∧ Bytes.isHexDigit b = true := by
  have hdigit : ∀ n < 16, String.utf8EncodeChar (hexDigit n) = [Char.toUInt8 (hexDigit n)] ∧
      Bytes.isHexDigit (Char.toUInt8 (hexDigit n)) = true := by
    decide
  exact ⟨_, hdigit n h⟩

/-- A control character is written as a numeric escape. -/
theorem exists_digits_of_lt {n : Nat} (h : n < 0x20) : ∃ digits : Bytes,
    Utf8.encode ['\\', 'u', '0', '0', hexDigit (n / 16), hexDigit (n % 16)] =
      Char.toUInt8 '\\' :: Char.toUInt8 'u' :: digits ∧
    digits.length = 4 ∧ ∀ b ∈ digits, Bytes.isHexDigit b = true := by
  obtain ⟨high, hhigh, hhighDigit⟩ := utf8EncodeChar_hexDigit (by omega : n / 16 < 16)
  obtain ⟨low, hlow, hlowDigit⟩ := utf8EncodeChar_hexDigit (Nat.mod_lt n (by decide : 0 < 16))
  obtain ⟨zero, hzero, hzeroDigit⟩ := utf8EncodeChar_hexDigit (by decide : 0 < 16)
  refine ⟨[zero, zero, high, low], ?_, rfl, ?_⟩
  · have hchars : Utf8.encode ['\\', 'u', '0', '0', hexDigit (n / 16), hexDigit (n % 16)] =
        Char.toUInt8 '\\' :: Char.toUInt8 'u' :: (String.utf8EncodeChar (hexDigit 0) ++
          (String.utf8EncodeChar (hexDigit 0) ++ (String.utf8EncodeChar (hexDigit (n / 16)) ++
            (String.utf8EncodeChar (hexDigit (n % 16)) ++ [])))) := rfl
    rw [hchars, hhigh, hlow, hzero]
    rfl
  · simp [hzeroDigit, hhighDigit, hlowDigit]

/-- How one character stands inside of a string. -/
theorem isStringTail_encodeChar (c : Char) {rest : Bytes} (h : IsStringTail rest) :
    IsStringTail (Utf8.encode (encodeChar c) ++ rest) := by
  have hletter : ∀ letter : Char, (String.utf8EncodeChar letter = [Char.toUInt8 letter]) →
      Bytes.char (Char.toUInt8 letter) ∈ ['"', '\\', '/', 'b', 'f', 'n', 'r', 't'] →
      IsStringTail (Utf8.encode ['\\', letter] ++ rest) := by
    intro letter hbytes hletter
    have hencode : Utf8.encode ['\\', letter] = [Char.toUInt8 '\\', Char.toUInt8 letter] := by
      rw [Utf8.encode, List.flatMap_cons, List.flatMap_singleton, hbytes]
      rfl
    rw [hencode]
    exact .escape hletter h
  unfold encodeChar
  split
  iterate 7 exact hletter _ rfl (by decide)
  next hquote hescape _ _ _ _ _ =>
  split
  · next hcontrol =>
    obtain ⟨digits, hencode, hlength, hdigits⟩ := exists_digits_of_lt hcontrol
    rw [hencode]
    exact .unicode hlength hdigits h
  · next hcontrol =>
    rw [Utf8.encode, List.flatMap_singleton]
    exact h.append fun b hb => isPlain_of_mem_utf8EncodeChar hquote hescape (by omega) hb

/-- **What is written for a text is a string.** -/
theorem isString_encode (text : String) : IsString (Bytes.ofString (encode text)) := by
  have htail : ∀ chars : List Char, IsStringTail (Utf8.encode (chars.flatMap encodeChar ++ ['"'])) := by
    intro chars
    induction chars with
    | nil => exact .close
    | cons c chars ih =>
      rw [List.flatMap_cons, List.append_assoc, Utf8.encode, List.flatMap_append]
      exact isStringTail_encodeChar c ih
  have hbytes : Bytes.ofString (encode text) =
      Char.toUInt8 '"' :: Utf8.encode (text.toList.flatMap encodeChar ++ ['"']) := by
    rw [Bytes.ofString, encode, String.toList_ofList]
    rfl
  rw [hbytes]
  exact .quoted (htail text.toList)

end Quoted

/-- A text that is one literal is read as a literal that spans it all. -/
theorem Value.parse_of_isLiteral {bytes : Bytes} (h : IsLiteral bytes) (sourceName : String) :
    parse ⟨sourceName, bytes⟩ =
      .ok (.literal ⟨⟨sourceName, bytes⟩, ⟨.closing .literal, 0, bytes.length⟩⟩) := by
  have hbytes : (Json.Document.mk Json.noBlank (.literal ⟨bytes, h⟩) Json.noBlank).bytes = bytes := by
    rw [Json.Document.bytes, Json.bytes, Json.noBlank, List.nil_append, List.append_nil]
  have hdepth : (Json.literal ⟨bytes, h⟩).depth ≤ 256 := by
    rw [Json.depth]
    exact Nat.zero_le _
  have hnames : Json.areValid (Json.literal ⟨bytes, h⟩).names = true := by
    rw [Json.names, Json.areValid, List.all_nil]
  rw [@parse_eq_ok_of_areValid ⟨sourceName, bytes⟩ _ hbytes hdepth hnames]
  simp [Json.Document.value, Json.value, Json.noBlank, Json.spanOf]

/-- **A name can be looked at as a value**: what is written for it is read as one literal that spans it all. -/
theorem Value.parse_encode (sourceName text : String) :
    parse ⟨sourceName, Bytes.ofString (Quoted.encode text)⟩ = .ok (ofText sourceName text) :=
  parse_of_isLiteral (.string (Quoted.isString_encode text)) sourceName

end ExampleSchema
