import ExampleSchema.Proofs.Decimal.Writing
import ExampleSchema.Proofs.Json.Quoting

/-!
# Written texts are read back

Writing a text loses nothing.  Its bytes are decoded to its characters, and the literal that is written for it is read
as the text again: each escape stands for the character it was chosen for, and every other character stands for itself.
So the name of a member can be looked at as a value whatever characters it has, and looking never fails.

* `Utf8.exists_next_of_utf8EncodeChar`, `Utf8.groups_encode`: the bytes of a character and of a text.
* `Utf8.decode?_ofString`, `Utf8.toText_ofString`: strict and forgiving decoding give the text.
* `Quoted.body?_encodeChar`, `Quoted.decode?_encode`: a character inside of a literal, and the literal.
* `Value.parse_encoded`: the literal as a document of its own, and as what shortcuts for keys are matched against.
-/

namespace ExampleSchema

namespace Utf8

variable {b c d e : UInt8} {low high : UInt8} {rest : Bytes}

/-! ## The numbers of bytes -/

/-- A byte of a small number has that number. -/
theorem toNat_ofNat {n : Nat} (h : n < 0x100) : (UInt8.ofNat n).toNat = n := UInt8.toNat_ofNat_of_lt' h

theorem le_ofNat_iff {n : Nat} (h : n < 0x100) : b ≤ UInt8.ofNat n ↔ b.toNat ≤ n := by
  rw [UInt8.le_iff_toNat_le, toNat_ofNat h]

theorem ofNat_le_iff {n : Nat} (h : n < 0x100) : UInt8.ofNat n ≤ b ↔ n ≤ b.toNat := by
  rw [UInt8.le_iff_toNat_le, toNat_ofNat h]

/-- A byte that continues a character carries six bits. -/
theorem payload_ofNat (n : Nat) : payload (UInt8.ofNat (n % 64 + 0x80)) = n % 64 := by
  rw [payload, toNat_ofNat (by omega)]
  omega

theorem isTail_ofNat (n : Nat) : isTail (UInt8.ofNat (n % 64 + 0x80)) = true := by
  have hmod := Nat.mod_lt n (by decide : 0 < 64)
  rw [isTail, Bool.and_eq_true, decide_eq_true_iff, decide_eq_true_iff, le_ofNat_iff (by omega),
    ofNat_le_iff (by omega)]
  change 0x80 ≤ _ ∧ _ ≤ 0xBF
  omega

/-! ## Leads -/

theorem lead?_two {n : Nat} (hlow : 2 ≤ n) (hhigh : n < 32) :
    lead? (UInt8.ofNat (n + 0xC0)) = some ⟨0x80, 0xBF, 0⟩ := by
  refine if_pos ⟨?_, ?_⟩
  · rw [le_ofNat_iff (by omega)]
    change 0xC2 ≤ _
    omega
  · rw [ofNat_le_iff (by omega)]
    change _ ≤ 0xDF
    omega

theorem lead?_three : ∀ n < 16, lead? (UInt8.ofNat (n + 0xE0)) =
    some ⟨UInt8.ofNat (if n = 0 then 0xA0 else 0x80), UInt8.ofNat (if n = 13 then 0x9F else 0xBF), 1⟩ := by
  decide

theorem lead?_four : ∀ n < 5, lead? (UInt8.ofNat (n + 0xF0)) =
    some ⟨UInt8.ofNat (if n = 0 then 0x90 else 0x80), UInt8.ofNat (if n = 4 then 0x8F else 0xBF), 2⟩ := by
  decide

theorem not_lt_ofNat {n : Nat} (hlow : 0x80 ≤ n) (hhigh : n < 0x100) : ¬ UInt8.ofNat n < 0x80 := by
  rw [UInt8.not_lt, le_ofNat_iff hhigh]
  exact hlow

/-! ## Characters of several bytes -/

theorem next_two (hb : ¬ b < 0x80) (hlead : lead? b = some ⟨low, high, 0⟩) (hc : low ≤ c ∧ c ≤ high) :
    next b (c :: rest) = (some (Char.ofNat (b.toNat % 32 * 64 + payload c)), rest) := by
  rw [next, if_neg hb, hlead]
  exact if_pos hc

theorem next_three (hb : ¬ b < 0x80) (hlead : lead? b = some ⟨low, high, 1⟩) (hc : low ≤ c ∧ c ≤ high)
    (hd : isTail d = true) :
    next b (c :: d :: rest) = (some (Char.ofNat ((b.toNat % 16 * 64 + payload c) * 64 + payload d)), rest) := by
  rw [next, if_neg hb, hlead]
  exact (if_pos hc).trans (if_pos hd)

theorem next_four (hb : ¬ b < 0x80) (hlead : lead? b = some ⟨low, high, 2⟩) (hc : low ≤ c ∧ c ≤ high)
    (hd : isTail d = true) (he : isTail e = true) :
    next b (c :: d :: e :: rest) =
      (some (Char.ofNat (((b.toNat % 8 * 64 + payload c) * 64 + payload d) * 64 + payload e)), rest) := by
  rw [next, if_neg hb, hlead]
  exact (if_pos hc).trans ((if_pos hd).trans (if_pos he))

/-- The second byte of a character is in the range that the first one sets. -/
theorem between_ofNat {n low high : Nat} (hlow : low ≤ n % 64 + 0x80) (hhigh : n % 64 + 0x80 ≤ high)
    (h : high < 0x100) :
    UInt8.ofNat low ≤ UInt8.ofNat (n % 64 + 0x80) ∧ UInt8.ofNat (n % 64 + 0x80) ≤ UInt8.ofNat high := by
  rw [le_ofNat_iff (by omega), ofNat_le_iff (by omega), toNat_ofNat (by omega), toNat_ofNat (by omega)]
  exact ⟨hlow, hhigh⟩

/-- **A character is read back from its bytes**, whatever follows them. -/
theorem exists_next_of_utf8EncodeChar (c : Char) (rest : Bytes) :
    ∃ first tail, String.utf8EncodeChar c = first :: tail ∧ next first (tail ++ rest) = (some c, rest) := by
  have hvalid : c.val.toNat < 0xD800 ∨ 0xDFFF < c.val.toNat ∧ c.val.toNat < 0x110000 := c.valid
  have hc : ∀ n, n = c.val.toNat → (some (Char.ofNat n), rest) = (some c, rest) := by
    rintro n rfl
    rw [show Char.ofNat c.val.toNat = c from Char.ofNat_toNat c]
  rw [String.utf8EncodeChar.eq_1]
  generalize c.val.toNat = n at hvalid hc ⊢
  split
  · next hone =>
    refine ⟨_, [], rfl, ?_⟩
    have hlt : UInt8.ofNat n < 0x80 := by
      rw [UInt8.lt_iff_toNat_lt, toNat_ofNat (by omega)]
      exact Nat.lt_succ_of_le hone
    rw [next, if_pos hlt, List.nil_append, ← hc n rfl, ← Char.ofNat_toNat (Bytes.char _), Bytes.toNat_char,
      toNat_ofNat (by omega)]
  split
  · next htwo =>
    refine ⟨_, [_], rfl, ?_⟩
    have hfirst : n / 64 % 32 = n / 64 := Nat.mod_eq_of_lt (by omega)
    rw [hfirst, List.singleton_append, next_two (not_lt_ofNat (by omega) (by omega)) (lead?_two (by omega) (by omega))
      (@between_ofNat n 0x80 0xBF (by omega) (by omega) (by omega)), payload_ofNat, toNat_ofNat (by omega)]
    exact hc _ (by omega)
  split
  · next hthree =>
    refine ⟨_, [_, _], rfl, ?_⟩
    have hfirst : n / 4096 % 16 = n / 4096 := Nat.mod_eq_of_lt (by omega)
    have hbetween := @between_ofNat (n / 64) (if n / 4096 = 0 then 0xA0 else 0x80)
      (if n / 4096 = 13 then 0x9F else 0xBF) (by split <;> omega) (by split <;> omega) (by split <;> omega)
    rw [hfirst, List.cons_append, List.singleton_append, next_three (not_lt_ofNat (by omega) (by omega))
      (lead?_three _ (by omega)) hbetween (isTail_ofNat n), payload_ofNat, payload_ofNat, toNat_ofNat (by omega)]
    exact hc _ (by omega)
  · next hfour =>
    refine ⟨_, [_, _, _], rfl, ?_⟩
    have hfirst : n / 262144 % 8 = n / 262144 := Nat.mod_eq_of_lt (by omega)
    have hbetween := @between_ofNat (n / 4096) (if n / 262144 = 0 then 0x90 else 0x80)
      (if n / 262144 = 4 then 0x8F else 0xBF) (by split <;> omega) (by split <;> omega) (by split <;> omega)
    rw [hfirst, List.cons_append, List.cons_append, List.singleton_append,
      next_four (not_lt_ofNat (by omega) (by omega)) (lead?_four _ (by omega)) hbetween (isTail_ofNat (n / 64))
        (isTail_ofNat n), payload_ofNat, payload_ofNat, payload_ofNat, toNat_ofNat (by omega)]
    exact hc _ (by omega)

/-! ## Texts -/

@[simp] theorem encode_nil : encode [] = [] := rfl

@[simp] theorem encode_cons (c : Char) (text : List Char) :
    encode (c :: text) = String.utf8EncodeChar c ++ encode text := rfl

@[simp] theorem encode_append (text more : List Char) : encode (text ++ more) = encode text ++ encode more :=
  List.flatMap_append

/-- **A text is read back from its bytes**, character by character. -/
theorem groups_encode (text : List Char) : groups (encode text) = text.map some := by
  induction text with
  | nil => exact groups_nil
  | cons c text ih =>
    obtain ⟨first, tail, hbytes, hnext⟩ := exists_next_of_utf8EncodeChar c (encode text)
    rw [encode_cons, hbytes, List.cons_append, groups_cons, hnext, ih, List.map_cons]

theorem decode?_ofString (text : String) : decode? (Bytes.ofString text) = some text := by
  have hall : (text.toList.map some).mapM id = some text.toList := by
    rw [List.mapM_map]
    exact (List.mapM_pure (m := Option) (f := id)).trans (congrArg some (List.map_id _))
  rw [Bytes.ofString, decode?, groups_encode, hall, Option.map_some, String.ofList_toList]

theorem toText_ofString (text : String) : (Bytes.ofString text).toText = text := by
  rw [Bytes.toText, decodeLossy, Bytes.ofString, groups_encode, List.map_map]
  exact (congrArg String.ofList (List.map_id' _)).trans (String.ofList_toList)

end Utf8

/-- A text with no blank at either end is not cut by trimming. -/
theorem Bytes.trim_eq_self_of_ends {text : Bytes} (hfirst : ∀ b ∈ text.head?, isSpace b = false)
    (hlast : ∀ b ∈ text.getLast?, isSpace b = false) : text.trim = text := by
  have hfront : text.dropWhile isSpace = text :=
    List.dropWhile_eq_self_iff.2 fun hl => by
      rw [hfirst _ (List.head?_eq_getElem? ▸ List.getElem?_eq_getElem hl)]
      exact Bool.false_ne_true
  rw [trim, hfront]
  exact List.rdropWhile_eq_self_iff.2 fun hne => by
    rw [hlast _ (List.getLast?_eq_some_getLast hne)]
    exact Bool.false_ne_true

namespace Quoted

variable {text rest : Bytes} {b : UInt8}

theorem body?_close : body? [Char.toUInt8 '"'] = some [] := by rw [body?]; rfl

theorem body?_plain (h : Bytes.IsPlain b) : body? (b :: rest) = (body? rest).map (b :: ·) := by
  obtain ⟨hquote, hescape, hcontrol⟩ := h
  rw [body?.eq_def]
  dsimp only
  rw [if_neg hquote, if_neg hescape, if_neg]
  exact Nat.not_lt.2 hcontrol

theorem body?_append (h : ∀ b ∈ text, Bytes.IsPlain b) : body? (text ++ rest) = (body? rest).map (text ++ ·) := by
  induction text with
  | nil => simp
  | cons b text ih =>
    obtain ⟨hb, htext⟩ := List.forall_mem_cons.1 h
    rw [List.cons_append, body?_plain hb, ih htext, Option.map_map]
    rfl

theorem body?_escape {c letter : Char} (hletter : letterEscape? letter.toUInt8 = some c)
    (hu : Bytes.char letter.toUInt8 ≠ 'u') :
    body? (Char.toUInt8 '\\' :: letter.toUInt8 :: rest) = (body? rest).map (String.utf8EncodeChar c ++ ·) := by
  rw [body?.eq_def]
  dsimp only
  rw [if_neg (by decide), if_pos (by rfl), if_neg hu, hletter]
  dsimp only
  rw [Utf8.encode, List.flatMap_singleton]

theorem hexValue?_hexDigit : ∀ n < 16, Bytes.hexValue? (hexDigit n).toUInt8 = some n := by decide

theorem body?_unicode {n : Nat} (h : n < 0x20) :
    body? (Char.toUInt8 '\\' :: Char.toUInt8 'u' :: Char.toUInt8 '0' :: Char.toUInt8 '0' ::
      (hexDigit (n / 16)).toUInt8 :: (hexDigit (n % 16)).toUInt8 :: rest) =
      (body? rest).map (String.utf8EncodeChar (Char.ofNat n) ++ ·) := by
  have hunit : hexUnit? (Char.toUInt8 '0') (Char.toUInt8 '0') (hexDigit (n / 16)).toUInt8
      (hexDigit (n % 16)).toUInt8 = some n := by
    rw [hexUnit?, hexValue?_hexDigit _ (by omega), hexValue?_hexDigit _ (by omega)]
    change some (((0 * 16 + 0) * 16 + n / 16) * 16 + n % 16) = some n
    congr 1
    omega
  have hescape : unitEscape? n rest = some (Utf8.encode [Char.ofNat n], rest) := by
    unfold unitEscape?
    rw [if_neg (by omega), if_neg (by omega)]
  rw [body?.eq_def]
  dsimp only
  rw [if_neg (by decide), if_pos (by rfl), if_pos (by rfl), hunit]
  dsimp only
  split
  · next h => rw [hescape] at h; cases h
  · next out left h =>
    rw [hescape] at h
    cases h
    rw [Utf8.encode, List.flatMap_singleton]

/-- **How one character stands inside of a literal is read back.** -/
theorem body?_encodeChar (c : Char) :
    body? (Utf8.encode (encodeChar c) ++ rest) = (body? rest).map (String.utf8EncodeChar c ++ ·) := by
  unfold encodeChar
  split
  iterate 7 exact body?_escape rfl (by decide)
  next hquote hescape _ _ _ _ _ =>
  split
  · next hcontrol =>
    have hbytes : Utf8.encode ['\\', 'u', '0', '0', hexDigit (c.toNat / 16), hexDigit (c.toNat % 16)] =
        [Char.toUInt8 '\\', Char.toUInt8 'u', Char.toUInt8 '0', Char.toUInt8 '0', (hexDigit (c.toNat / 16)).toUInt8,
          (hexDigit (c.toNat % 16)).toUInt8] := by
      have hdigit : ∀ n < 16, (hexDigit n).toNat < 0x80 := by decide
      refine Utf8.encode_eq_map ?_
      simp [hdigit _ (show c.toNat / 16 < 16 by omega), hdigit _ (show c.toNat % 16 < 16 by omega)]
    rw [hbytes]
    have := @body?_unicode rest _ hcontrol
    rwa [Char.ofNat_toNat] at this
  · next hcontrol =>
    rw [Utf8.encode, List.flatMap_singleton]
    exact body?_append fun b hb => isPlain_of_mem_utf8EncodeChar hquote hescape (by omega) hb

/-- **What is written for a text is read as the text.** -/
theorem decode?_encode (text : String) : decode? (Bytes.ofString (encode text)) = some text := by
  have hbody : ∀ chars : List Char,
      body? (Utf8.encode (chars.flatMap encodeChar ++ ['"'])) = some (Utf8.encode chars) := by
    intro chars
    induction chars with
    | nil => exact body?_close
    | cons c chars ih =>
      rw [List.flatMap_cons, List.append_assoc, Utf8.encode_append, body?_encodeChar, ih]
      rfl
  have hbytes : Bytes.ofString (encode text) =
      Char.toUInt8 '"' :: Utf8.encode (text.toList.flatMap encodeChar ++ ['"']) := by
    rw [Bytes.ofString, encode, String.toList_ofList]
    rfl
  have htrim : (Bytes.ofString (encode text)).trim = Bytes.ofString (encode text) := by
    refine Bytes.trim_eq_self_of_ends ?_ ?_
    · rw [hbytes]
      rintro b ⟨⟩
      rfl
    · rw [hbytes, Utf8.encode_append, ← List.cons_append]
      change ∀ b ∈ ((_ : Bytes) ++ [Char.toUInt8 '"']).getLast?, _
      rw [List.getLast?_concat]
      rintro b ⟨⟩
      rfl
  rw [decode?, htrim, hbytes]
  dsimp only
  rw [if_pos (by rfl), hbody]
  exact Utf8.decode?_ofString text

end Quoted

/-! ## Names as values -/

/-- The node of the first property whose name is a type that accepts a name.  The name is written as a string, and the
string is read as a value, if there is any such property. -/
def Properties.readShortcut (properties : Properties) (types : Registry) (visit : Node → Value → Outcome Unit)
    (name : String) : Outcome (Option Node) := do
  if properties.any fun p => p.1.isShortcut then
    let text ← Value.parse ⟨"key", Bytes.ofString (Quoted.encode name)⟩
    return (properties.find? fun (key, _) =>
      key.isShortcut && ((types.root? key.name).any fun root => (visit root text).isOk)).map Prod.snd
  else return none

/-- **Matching a name never fails on how the name is written**: it is the matching of the name as a value. -/
theorem Properties.readShortcut_eq (properties : Properties) (types : Registry)
    (visit : Node → Value → Outcome Unit) (name : String) :
    properties.readShortcut types visit name = .ok (properties.shortcut? types visit name) := by
  unfold readShortcut
  split
  · rw [Value.parse_encode]
    rfl
  · next hnone =>
    have hfind : properties.shortcut? types visit name = none := by
      rw [shortcut?, Option.map_eq_none_iff, List.find?_eq_none]
      intro p hp hshortcut
      rw [Bool.and_eq_true] at hshortcut
      exact hnone (List.any_eq_true.2 ⟨p, hp, hshortcut.1⟩)
    rw [hfind]
    rfl

/-- **What is written for a text is a string that says the text**, whatever the text is.  As a document of its own it
is read as one literal that spans all its bytes, is of the type of strings and is decoded to the text.  So matching a
name against shortcuts never fails on how the name is written. -/
theorem Value.parse_encoded (text : String) :
    (∀ sourceName, ∃ mark, parse ⟨sourceName, Bytes.ofString (Quoted.encode text)⟩ = .ok (literal mark) ∧
      mark.start = 0 ∧ mark.stop = (Bytes.ofString (Quoted.encode text)).length ∧
      (literal mark).bytes = Bytes.ofString (Quoted.encode text) ∧ (literal mark).jsonType = .string ∧
      Quoted.decode? (literal mark).bytes = some text) ∧
    ∀ properties types visit, Properties.readShortcut properties types visit text =
      .ok (Properties.shortcut? properties types visit text) := by
  refine ⟨fun sourceName => ?_, fun properties types visit => properties.readShortcut_eq types visit text⟩
  have hparse := parse_of_isLiteral (.string (Quoted.isString_encode text)) sourceName
  have hdecode := Quoted.decode?_encode text
  have htype := Literal.jsonType_of_string_eq_ok (Literal.string_eq_ok_iff.2 hdecode)
  generalize Bytes.ofString (Quoted.encode text) = bytes at hparse hdecode htype ⊢
  have hslice : Bytes.slice bytes 0 bytes.length = bytes := by
    rw [Bytes.slice, List.drop_zero, Nat.sub_zero, List.take_length]
  refine ⟨_, hparse, rfl, rfl, hslice, ?_, ?_⟩
  · change (JsonType.ofBytes? (Bytes.slice bytes 0 bytes.length)).getD .mixed = .string
    rw [hslice, htype]
    rfl
  · exact (congrArg Quoted.decode? hslice).trans hdecode

end ExampleSchema
