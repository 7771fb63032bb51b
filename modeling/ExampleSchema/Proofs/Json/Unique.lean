import ExampleSchema.Proofs.Json.Literals

/-!
# The tree of a text

A text of the grammar is put together in one way only.  Its tokens end where they have to: a string with its
quote, a word with its last letter, and a number before the first byte that may follow a value; and what comes
next, a value or a bracket, begins with a byte of its own.

* `NumberPart.completes_unique`, `IsStringTail.unique`, `IsLiteral.unique`: the tokens.
* `Json.isUnique`, `Json.areUnique`, `Json.areUniqueMembers`: the trees.
* `Json.Document.eq_of_bytes_eq`: whole texts.
* `Value.parse_bytes_eq_ok_iff`: a text is parsed to what its tree says.
-/

namespace ExampleSchema

open Scan

variable {rest rest' : Bytes}

/-! ## Tokens -/

/-- What is read up to the first byte of another kind is read the same. -/
theorem append_unique {p : UInt8 → Bool} {text text' : Bytes} (htext : ∀ b ∈ text, p b = true)
    (htext' : ∀ b ∈ text', p b = true) (hrest : ∀ b ∈ rest.head?, p b = false)
    (hrest' : ∀ b ∈ rest'.head?, p b = false) (h : text ++ rest = text' ++ rest') :
    text = text' ∧ rest = rest' := by
  induction text generalizing text' with
  | nil =>
    cases text' with
    | nil => exact ⟨rfl, h⟩
    | cons b text' =>
      obtain rfl : rest = b :: (text' ++ rest') := h
      have hplain := hrest b rfl
      rw [htext' b (List.mem_cons_self ..)] at hplain
      cases hplain
  | cons b text ih =>
    obtain ⟨hb, htext⟩ := List.forall_mem_cons.1 htext
    cases text' with
    | nil =>
      obtain rfl : b :: (text ++ rest) = rest' := h
      have hplain := hrest' b rfl
      rw [hb] at hplain
      cases hplain
    | cons b' text' =>
      obtain ⟨rfl, hmore⟩ := List.cons.inj h
      obtain ⟨rfl, rfl⟩ := ih htext (List.forall_mem_cons.1 htext').2 hmore
      exact ⟨rfl, rfl⟩

theorem Json.Blank.unique {blank blank' : Json.Blank} (hrest : ∀ b ∈ rest.head?, Bytes.isSpace b = false)
    (hrest' : ∀ b ∈ rest'.head?, Bytes.isSpace b = false) (h : blank.1 ++ rest = blank'.1 ++ rest') :
    blank = blank' ∧ rest = rest' := by
  obtain ⟨hblank, hrest⟩ := append_unique blank.2 blank'.2 hrest hrest' h
  exact ⟨Subtype.ext hblank, hrest⟩

/-- A number goes on as long as it can. -/
theorem Scan.NumberPart.completes_unique {part : NumberPart} {text text' : Bytes} (h : part.Completes text)
    (h' : part.Completes text') (hrest : IsDelimited rest) (hrest' : IsDelimited rest')
    (heq : text ++ rest = text' ++ rest') : text = text' ∧ rest = rest' := by
  -- A number that is complete does not go on with a byte that may follow it.
  have hends : ∀ {part : NumberPart} {b : UInt8} {text rest : Bytes}, part.Completes [] →
      part.Completes (b :: text) → ¬ IsDelimited (b :: rest) := by
    intro part b text rest hnil hcons hdelimited
    obtain ⟨part', hnext, -⟩ := completes_cons_iff.1 hcons
    have hdelimiter := isDelimited_cons_iff.1 hdelimited
    rw [(hdelimiter.next?_eq_none ((completes_nil_iff part).1 hnil)).1] at hnext
    cases hnext
  induction text generalizing part text' with
  | nil =>
    cases text' with
    | nil => exact ⟨rfl, heq⟩
    | cons b text' =>
      obtain rfl : rest = b :: (text' ++ rest') := heq
      exact (hends h h' hrest).elim
  | cons b text ih =>
    cases text' with
    | nil =>
      obtain rfl : b :: (text ++ rest) = rest' := heq
      exact (hends h' h hrest').elim
    | cons b' text' =>
      obtain ⟨rfl, hmore⟩ := List.cons.inj heq
      obtain ⟨part', hnext, htext⟩ := completes_cons_iff.1 h
      obtain ⟨part'', hnext', htext'⟩ := completes_cons_iff.1 h'
      obtain rfl := Option.some.inj (hnext.symm.trans hnext')
      obtain ⟨rfl, rfl⟩ := ih htext htext' hmore
      exact ⟨rfl, rfl⟩

/-- A string ends with the first quote that is not escaped. -/
theorem IsStringTail.unique {tail tail' : Bytes} (h : IsStringTail tail) (h' : IsStringTail tail')
    (heq : tail ++ rest = tail' ++ rest') : tail = tail' ∧ rest = rest' := by
  induction h generalizing tail' with
  | close =>
    cases h' with
    | close => exact ⟨rfl, (List.cons.inj heq).2⟩
    | plain hquote =>
      obtain rfl := (List.cons.inj heq).1
      exact (hquote (by decide)).elim
    | escape | unicode => exact absurd (List.cons.inj heq).1 (by decide)
  | @plain b text hquote hescape hcontrol hrest ih =>
    cases h' with
    | close =>
      obtain rfl := (List.cons.inj heq).1
      exact (hquote (by decide)).elim
    | plain _ _ _ hrest' =>
      obtain ⟨rfl, hmore⟩ := List.cons.inj heq
      obtain ⟨rfl, rfl⟩ := ih hrest' hmore
      exact ⟨rfl, rfl⟩
    | escape | unicode =>
      obtain rfl := (List.cons.inj heq).1
      exact (hescape (by decide)).elim
  | @escape letter text hletter hrest ih =>
    cases h' with
    | close => exact absurd (List.cons.inj heq).1 (by decide)
    | plain _ hescape =>
      obtain rfl := (List.cons.inj heq).1
      exact (hescape (by decide)).elim
    | escape _ hrest' =>
      obtain ⟨rfl, hmore⟩ := List.cons.inj (List.cons.inj heq).2
      obtain ⟨rfl, rfl⟩ := ih hrest' hmore
      exact ⟨rfl, rfl⟩
    | unicode =>
      obtain rfl := (List.cons.inj (List.cons.inj heq).2).1
      exact absurd hletter (by decide)
  | @unicode digits text hlength hdigits hrest ih =>
    cases h' with
    | close => exact absurd (List.cons.inj heq).1 (by decide)
    | plain _ hescape =>
      obtain rfl := (List.cons.inj heq).1
      exact (hescape (by decide)).elim
    | escape hletter =>
      obtain rfl := (List.cons.inj (List.cons.inj heq).2).1
      exact absurd hletter (by decide)
    | @unicode digits' text' hlength' _ hrest' =>
      have hmore : digits ++ text ++ rest = digits' ++ text' ++ rest' :=
        (List.cons.inj (List.cons.inj heq).2).2
      rw [List.append_assoc, List.append_assoc] at hmore
      obtain ⟨rfl, htext⟩ := List.append_inj hmore (hlength.trans hlength'.symm)
      obtain ⟨rfl, rfl⟩ := ih hrest' htext
      exact ⟨rfl, rfl⟩

theorem IsString.unique {name name' : Bytes} (h : IsString name) (h' : IsString name')
    (heq : name ++ rest = name' ++ rest') : name = name' ∧ rest = rest' := by
  cases h with
  | quoted h =>
    cases h' with
    | quoted h' =>
      obtain ⟨rfl, rfl⟩ := h.unique h' (List.cons.inj heq).2
      exact ⟨rfl, rfl⟩

theorem IsLiteral.unique {token token' : Bytes} (h : IsLiteral token) (h' : IsLiteral token')
    (hrest : IsDelimited rest) (hrest' : IsDelimited rest') (heq : token ++ rest = token' ++ rest') :
    token = token' ∧ rest = rest' := by
  cases token with
  | nil => exact (not_isLiteral_nil h).elim
  | cons b tail =>
    cases token' with
    | nil => exact (not_isLiteral_nil h').elim
    | cons b' tail' =>
      obtain ⟨rfl, hmore⟩ := List.cons.inj heq
      obtain ⟨mode, hmode, hends⟩ := exists_literalMode? h
      obtain ⟨mode', hmode', hends'⟩ := exists_literalMode? h'
      obtain rfl := Option.some.inj (hmode.symm.trans hmode')
      have htail : tail = tail' ∧ rest = rest' := by
        cases mode with
        | string => exact IsStringTail.unique hends hends' hmore
        | number part => exact NumberPart.completes_unique hends hends' hrest hrest' hmore
        | keyword word next more =>
          obtain rfl : tail = next :: more := hends
          obtain rfl : tail' = next :: more := hends'
          exact ⟨rfl, List.append_cancel_left hmore⟩
        | _ => exact hends.elim
      obtain ⟨rfl, rfl⟩ := htail
      exact ⟨rfl, rfl⟩

/-! ## First bytes -/

/-- No literal begins with a bracket. -/
theorem not_isLiteral_bracket {b : UInt8} {tail : Bytes} (hb : Bytes.char b ∈ ['[', '\x7b', ']']) :
    ¬ IsLiteral (b :: tail) := by
  intro h
  obtain ⟨mode, hmode, -⟩ := exists_literalMode? h
  simp only [List.mem_cons, List.not_mem_nil, or_false] at hb
  rcases hb with hb | hb | hb <;> rw [literalMode?, hb] at hmode <;> cases hmode

namespace Json

/-- A value begins with a byte that is no blank and closes nothing. -/
theorem exists_bytes_eq_cons (t : Json) :
    ∃ b tail, t.bytes = b :: tail ∧ Bytes.isSpace b = false ∧ b ≠ Char.toUInt8 ']' := by
  cases t with
  | literal token =>
    obtain ⟨text, htext⟩ := token
    cases text with
    | nil => exact (not_isLiteral_nil htext).elim
    | cons b tail =>
      obtain ⟨mode, hmode, -⟩ := exists_literalMode? htext
      refine ⟨b, tail, rfl, isSpace_of_literalMode? hmode, ?_⟩
      rintro rfl
      exact not_isLiteral_bracket (by decide) htext
  | emptyArray | array | emptyObject | object => exact ⟨_, _, rfl, rfl, by decide⟩

/-- No blank is read at the beginning of a value. -/
theorem isSpace_head (t : Json) (rest : Bytes) : ∀ b ∈ (t.bytes ++ rest).head?, Bytes.isSpace b = false := by
  obtain ⟨b, tail, hbytes, hspace, -⟩ := t.exists_bytes_eq_cons
  rw [hbytes]
  rintro _ ⟨⟩
  exact hspace

theorem Name.isSpace_head (name : Name) (rest : Bytes) :
    ∀ b ∈ (name.1 ++ rest).head?, Bytes.isSpace b = false := by
  obtain ⟨_, ⟨-⟩⟩ := name
  rintro _ ⟨⟩
  rfl

theorem isSpace_close {b : UInt8} (hb : Bytes.char b ∈ [',', ':', ']', '\x7d']) :
    ∀ c ∈ (b :: rest).head?, Bytes.isSpace c = false := by
  rintro _ ⟨⟩
  simp only [List.mem_cons, List.not_mem_nil, or_false] at hb
  rcases hb with hb | hb | hb | hb <;> rw [Bytes.isSpace, hb] <;> rfl

/-! ## Trees -/

/-- A value is told from the bytes that it begins, whatever may follow it. -/
def IsUnique (t : Json) : Prop :=
  ∀ {t' : Json} {rest rest' : Bytes}, IsDelimited rest → IsDelimited rest' →
    t.bytes ++ rest = t'.bytes ++ rest' → t = t' ∧ rest = rest'

/-- The bytes that end an item of an array or a member of an object. -/
def IsEnd (b : UInt8) : Prop := Bytes.char b ∈ [',', ']', '\x7d']

instance (b : UInt8) : Decidable (IsEnd b) := inferInstanceAs (Decidable (Bytes.char b ∈ _))

theorem IsEnd.isSpace_head {b : UInt8} (h : IsEnd b) : ∀ c ∈ (b :: rest).head?, Bytes.isSpace c = false := by
  refine isSpace_close ?_
  simp only [IsEnd, List.mem_cons, List.not_mem_nil, or_false] at h ⊢
  tauto

variable {item item' : Json} {before before' after after' : Blank} {b b' : UInt8}

/-- A value with blanks around it, up to the byte that ends it. -/
theorem IsUnique.blanks (h : item.IsUnique) (hb : IsEnd b) (hb' : IsEnd b')
    (heq : before.1 ++ (item.bytes ++ (after.1 ++ b :: rest)) =
      before'.1 ++ (item'.bytes ++ (after'.1 ++ b' :: rest'))) :
    before = before' ∧ item = item' ∧ after = after' ∧ b = b' ∧ rest = rest' := by
  obtain ⟨rfl, hitem⟩ := Blank.unique (item.isSpace_head _) (item'.isSpace_head _) heq
  obtain ⟨rfl, hafter⟩ := h (isDelimited_append after.2 (isDelimited_close hb))
    (isDelimited_append after'.2 (isDelimited_close hb')) hitem
  obtain ⟨rfl, hend⟩ := Blank.unique hb.isSpace_head hb'.isSpace_head hafter
  obtain ⟨rfl, rfl⟩ := List.cons.inj hend
  exact ⟨rfl, rfl, rfl, rfl, rfl⟩

variable {name name' : Name} {colon colon' : Colon}

/-- A member with its name. -/
theorem IsUnique.member (h : item.IsUnique) (hb : IsEnd b) (hb' : IsEnd b')
    (heq : before.1 ++ (name.1 ++ (colon.bytes ++ (item.bytes ++ (after.1 ++ b :: rest)))) =
      before'.1 ++ (name'.1 ++ (colon'.bytes ++ (item'.bytes ++ (after'.1 ++ b' :: rest'))))) :
    before = before' ∧ name = name' ∧ colon = colon' ∧ item = item' ∧ after = after' ∧ b = b' ∧
      rest = rest' := by
  obtain ⟨rfl, hname⟩ := Blank.unique (name.isSpace_head _) (name'.isSpace_head _) heq
  obtain ⟨htext, hcolon⟩ := name.2.unique name'.2 hname
  obtain rfl := Subtype.ext htext
  obtain ⟨colonBefore, colonAfter⟩ := colon
  obtain ⟨colonBefore', colonAfter'⟩ := colon'
  rw [Colon.bytes, Colon.bytes, List.append_assoc, List.append_assoc] at hcolon
  obtain ⟨rfl, hvalue⟩ := Blank.unique (isSpace_close (by decide)) (isSpace_close (by decide)) hcolon
  obtain ⟨rfl, rfl, rfl, rfl, rfl⟩ := h.blanks hb hb' (List.cons.inj hvalue).2
  exact ⟨rfl, rfl, rfl, rfl, rfl, rfl, rfl⟩

/-- The items of an array, up to its bracket. -/
def Items.AreUnique (items : Items) : Prop :=
  ∀ {items' : Items} {rest rest' : Bytes},
    items.bytes ++ Char.toUInt8 ']' :: rest = items'.bytes ++ Char.toUInt8 ']' :: rest' →
      items = items' ∧ rest = rest'

/-- The members of an object, up to its bracket. -/
def Members.AreUnique (members : Members) : Prop :=
  ∀ {members' : Members} {rest rest' : Bytes},
    members.bytes ++ Char.toUInt8 '\x7d' :: rest = members'.bytes ++ Char.toUInt8 '\x7d' :: rest' →
      members = members' ∧ rest = rest'

/-- An array that has items is not closed at once. -/
theorem Items.bytes_ne_blank (items : Items) (blank : Blank) :
    items.bytes ++ Char.toUInt8 ']' :: rest ≠ blank.1 ++ Char.toUInt8 ']' :: rest' := by
  have hhead : ∀ {before : Blank} {item : Json} {more : Bytes},
      before.1 ++ (item.bytes ++ more) ≠ blank.1 ++ Char.toUInt8 ']' :: rest' := by
    intro before item more heq
    obtain ⟨-, hitem⟩ := Blank.unique (item.isSpace_head _) (isSpace_close (by decide)) heq
    obtain ⟨b, tail, hbytes, -, hb⟩ := item.exists_bytes_eq_cons
    rw [hbytes] at hitem
    exact hb (List.cons.inj hitem).1
  cases items with
  | last | more =>
    rw [Items.bytes]
    simp only [List.append_assoc]
    exact hhead

/-- An object that has members is not closed at once. -/
theorem Members.bytes_ne_blank (members : Members) (blank : Blank) :
    members.bytes ++ Char.toUInt8 '\x7d' :: rest ≠ blank.1 ++ Char.toUInt8 '\x7d' :: rest' := by
  have hhead : ∀ {before : Blank} {name : Name} {more : Bytes},
      before.1 ++ (name.1 ++ more) ≠ blank.1 ++ Char.toUInt8 '\x7d' :: rest' := by
    intro before name more heq
    obtain ⟨-, hname⟩ := Blank.unique (name.isSpace_head _) (isSpace_close (by decide)) heq
    obtain ⟨_, ⟨_⟩⟩ := name
    exact absurd (List.cons.inj hname).1 (by decide)
  cases members with
  | last | more =>
    rw [Members.bytes]
    simp only [List.append_assoc]
    exact hhead

theorem isUnique_literal (token : Literal) : (Json.literal token).IsUnique := by
  intro t' rest rest' hrest hrest' heq
  cases t' with
  | literal token' =>
    obtain ⟨htoken, hmore⟩ := token.2.unique token'.2 hrest hrest' heq
    exact ⟨congrArg Json.literal (Subtype.ext htoken), hmore⟩
  | emptyArray | array | emptyObject | object =>
    obtain ⟨text, htext⟩ := token
    cases text with
    | nil => exact (not_isLiteral_nil htext).elim
    | cons b tail =>
      obtain rfl := (List.cons.inj heq).1
      exact (not_isLiteral_bracket (by decide) htext).elim

/-- What begins with a bracket is no literal. -/
theorem literal_bytes_ne {token : Literal} {b : UInt8} {tail : Bytes}
    (hb : Bytes.char b ∈ ['[', '\x7b', ']']) : b :: tail ≠ (Json.literal token).bytes ++ rest := by
  obtain ⟨text, htext⟩ := token
  cases text with
  | nil => exact (not_isLiteral_nil htext).elim
  | cons b' tail' =>
    intro heq
    obtain rfl := (List.cons.inj heq).1
    exact not_isLiteral_bracket hb htext

theorem isUnique_emptyArray (blank : Blank) : (emptyArray blank).IsUnique := by
  intro t' rest rest' hrest hrest' heq
  cases t' with
  | literal => exact (literal_bytes_ne (by decide) heq).elim
  | emptyArray blank' =>
    simp only [Json.bytes, List.cons_append, List.append_assoc] at heq
    obtain ⟨rfl, hmore⟩ := Blank.unique (isSpace_close (by decide)) (isSpace_close (by decide))
      (List.cons.inj heq).2
    exact ⟨rfl, (List.cons.inj hmore).2⟩
  | array items =>
    simp only [Json.bytes, List.cons_append, List.append_assoc] at heq
    exact (items.bytes_ne_blank blank (List.cons.inj heq).2.symm).elim
  | emptyObject | object => exact absurd (List.cons.inj heq).1 (by decide)

theorem isUnique_emptyObject (blank : Blank) : (emptyObject blank).IsUnique := by
  intro t' rest rest' hrest hrest' heq
  cases t' with
  | literal => exact (literal_bytes_ne (by decide) heq).elim
  | emptyObject blank' =>
    simp only [Json.bytes, List.cons_append, List.append_assoc] at heq
    obtain ⟨rfl, hmore⟩ := Blank.unique (isSpace_close (by decide)) (isSpace_close (by decide))
      (List.cons.inj heq).2
    exact ⟨rfl, (List.cons.inj hmore).2⟩
  | object members =>
    simp only [Json.bytes, List.cons_append, List.append_assoc] at heq
    exact (members.bytes_ne_blank blank (List.cons.inj heq).2.symm).elim
  | emptyArray | array => exact absurd (List.cons.inj heq).1 (by decide)

theorem isUnique_array {items : Items} (hitems : items.AreUnique) : (array items).IsUnique := by
  intro t' rest rest' hrest hrest' heq
  cases t' with
  | literal => exact (literal_bytes_ne (by decide) heq).elim
  | emptyArray blank =>
    simp only [Json.bytes, List.cons_append, List.append_assoc] at heq
    exact (items.bytes_ne_blank blank (List.cons.inj heq).2).elim
  | array items' =>
    simp only [Json.bytes, List.cons_append, List.append_assoc] at heq
    obtain ⟨rfl, hmore⟩ := hitems (List.cons.inj heq).2
    exact ⟨rfl, hmore⟩
  | emptyObject | object => exact absurd (List.cons.inj heq).1 (by decide)

theorem isUnique_object {members : Members} (hmembers : members.AreUnique) : (object members).IsUnique := by
  intro t' rest rest' hrest hrest' heq
  cases t' with
  | literal => exact (literal_bytes_ne (by decide) heq).elim
  | emptyObject blank =>
    simp only [Json.bytes, List.cons_append, List.append_assoc] at heq
    exact (members.bytes_ne_blank blank (List.cons.inj heq).2).elim
  | object members' =>
    simp only [Json.bytes, List.cons_append, List.append_assoc] at heq
    obtain ⟨rfl, hmore⟩ := hmembers (List.cons.inj heq).2
    exact ⟨rfl, hmore⟩
  | emptyArray | array => exact absurd (List.cons.inj heq).1 (by decide)

theorem areUnique_last {item : Json} (hitem : item.IsUnique) (before after : Blank) :
    (Items.last before item after).AreUnique := by
  intro items' rest rest' heq
  cases items' with
  | last before' item' after' =>
    simp only [Items.bytes, List.append_assoc] at heq
    obtain ⟨rfl, rfl, rfl, -, rfl⟩ := hitem.blanks (by decide) (by decide) heq
    exact ⟨rfl, rfl⟩
  | more before' item' after' more' =>
    simp only [Items.bytes, List.append_assoc, List.cons_append] at heq
    obtain ⟨-, -, -, hend, -⟩ := hitem.blanks (by decide) (by decide) heq
    exact absurd hend (by decide)

theorem areUnique_more {item : Json} {more : Items} (hitem : item.IsUnique) (hmore : more.AreUnique)
    (before after : Blank) : (Items.more before item after more).AreUnique := by
  intro items' rest rest' heq
  cases items' with
  | last before' item' after' =>
    simp only [Items.bytes, List.append_assoc, List.cons_append] at heq
    obtain ⟨-, -, -, hend, -⟩ := hitem.blanks (by decide) (by decide) heq
    exact absurd hend (by decide)
  | more before' item' after' more' =>
    simp only [Items.bytes, List.append_assoc, List.cons_append] at heq
    obtain ⟨rfl, rfl, rfl, -, hrest⟩ := hitem.blanks (by decide) (by decide) heq
    obtain ⟨rfl, rfl⟩ := hmore hrest
    exact ⟨rfl, rfl⟩

theorem areUniqueMembers_last {value : Json} (hvalue : value.IsUnique) (before : Blank) (name : Name)
    (colon : Colon) (after : Blank) : (Members.last before name colon value after).AreUnique := by
  intro members' rest rest' heq
  cases members' with
  | last before' name' colon' value' after' =>
    simp only [Members.bytes, List.append_assoc] at heq
    obtain ⟨rfl, rfl, rfl, rfl, rfl, -, rfl⟩ := hvalue.member (by decide) (by decide) heq
    exact ⟨rfl, rfl⟩
  | more before' name' colon' value' after' more' =>
    simp only [Members.bytes, List.append_assoc, List.cons_append] at heq
    obtain ⟨-, -, -, -, -, hend, -⟩ := hvalue.member (by decide) (by decide) heq
    exact absurd hend (by decide)

theorem areUniqueMembers_more {value : Json} {more : Members} (hvalue : value.IsUnique)
    (hmore : more.AreUnique) (before : Blank) (name : Name) (colon : Colon) (after : Blank) :
    (Members.more before name colon value after more).AreUnique := by
  intro members' rest rest' heq
  cases members' with
  | last before' name' colon' value' after' =>
    simp only [Members.bytes, List.append_assoc, List.cons_append] at heq
    obtain ⟨-, -, -, -, -, hend, -⟩ := hvalue.member (by decide) (by decide) heq
    exact absurd hend (by decide)
  | more before' name' colon' value' after' more' =>
    simp only [Members.bytes, List.append_assoc, List.cons_append] at heq
    obtain ⟨rfl, rfl, rfl, rfl, rfl, -, hrest⟩ := hvalue.member (by decide) (by decide) heq
    obtain ⟨rfl, rfl⟩ := hmore hrest
    exact ⟨rfl, rfl⟩

mutual

/-- **A value is told from its bytes.** -/
theorem isUnique : ∀ t : Json, t.IsUnique
  | .literal token => isUnique_literal token
  | .emptyArray blank => isUnique_emptyArray blank
  | .array items => isUnique_array (areUnique items)
  | .emptyObject blank => isUnique_emptyObject blank
  | .object members => isUnique_object (areUniqueMembers members)

theorem areUnique : ∀ items : Items, items.AreUnique
  | .last before item after => areUnique_last (isUnique item) before after
  | .more before item after more => areUnique_more (isUnique item) (areUnique more) before after

theorem areUniqueMembers : ∀ members : Members, members.AreUnique
  | .last before name colon value after => areUniqueMembers_last (isUnique value) before name colon after
  | .more before name colon value after more =>
    areUniqueMembers_more (isUnique value) (areUniqueMembers more) before name colon after

end

/-- **A text has one tree.** -/
theorem Document.eq_of_bytes_eq {t t' : Document} (h : t.bytes = t'.bytes) : t = t' := by
  obtain ⟨before, root, after⟩ := t
  obtain ⟨before', root', after'⟩ := t'
  obtain ⟨rfl, hroot⟩ := Blank.unique (root.isSpace_head _) (root'.isSpace_head _) h
  have hdelimited : ∀ blank : Blank, IsDelimited blank.1 := by
    intro blank
    rw [← List.append_nil blank.1]
    exact isDelimited_append blank.2 isDelimited_nil
  obtain ⟨rfl, hafter⟩ := root.isUnique (hdelimited after) (hdelimited after') hroot
  obtain rfl := Subtype.ext hafter
  rfl

end Json

namespace Value

/-- A text is parsed to what its tree says, or not at all. -/
theorem parse_bytes_eq_ok_iff {t : Json.Document} {name : String} {v : Value} :
    parse ⟨name, t.bytes⟩ = .ok v ↔
      t.root.depth ≤ 256 ∧ Json.areValid t.root.names = true ∧ t.value ⟨name, t.bytes⟩ = v := by
  constructor
  · intro h
    obtain ⟨t', hbytes, hdepth, hnames, hvalue⟩ := exists_document_of_parse_eq_ok h
    obtain rfl := Json.Document.eq_of_bytes_eq hbytes
    exact ⟨hdepth, hnames, hvalue⟩
  · rintro ⟨hdepth, hnames, rfl⟩
    exact parse_eq_ok_of_areValid rfl hdepth hnames

end Value
end ExampleSchema
