import ExampleSchema.Proofs.Json.Number
import ExampleSchema.Proofs.Scan.Continue

/-!
# Reading the tokens of JSON texts

From inside a literal, a scan goes past it exactly over the bytes that the grammar allows.  Strings end
with their closing quote and words with their last letter, but a number ends before a byte that cannot be
part of it.

* `isLiteral_cons_iff`: a literal is what its first byte and the mode after it make of it.
* `readFrom_literal`: the bytes of a literal lead past it.
* `exists_literal`: what is read inside a literal, by a scan that does not fail, is the rest of one.
-/

namespace ExampleSchema
namespace Scan

variable {o : Options} {s : State} {after : Nat → State} {i : Nat} {rest : Bytes}

/-- A literal is being read, and its end at an offset leads to the state after it. -/
def EndsLiteral (s : State) (after : Nat → State) : Prop :=
  ∀ mode stop, (s.switch mode).finishValue stop = .ok (after stop)

/-! ## Strings -/

theorem feed_quote (h : EndsLiteral s after) :
    (s.switch .string).feed o (Char.toUInt8 '"') i = .ok (after (i + 1)) := h .string (i + 1)

theorem feed_plain {b : UInt8} (hquote : Bytes.char b ≠ '"') (hescape : Bytes.char b ≠ '\\')
    (hcontrol : 0x20 ≤ b.toNat) : (s.switch .string).feed o b i = .ok (s.switch .string) := by
  change (s.switch .string).feedString b i = _
  unfold State.feedString
  split
  · next h => exact (hquote h).elim
  · next h => exact (hescape h).elim
  · exact if_neg (Nat.not_lt.2 hcontrol)

theorem feed_letter {letter : UInt8}
    (hletter : Bytes.char letter ∈ ['"', '\\', '/', 'b', 'f', 'n', 'r', 't']) :
    (s.switch .escape).feed o letter i = .ok (s.switch .string) := by
  change (s.switch .escape).feedEscape letter = _
  simp only [List.mem_cons, List.not_mem_nil, or_false] at hletter
  rcases hletter with h | h | h | h | h | h | h | h <;> rw [State.feedEscape, h] <;> rfl

theorem feed_digit {digits : Nat} {b : UInt8} (h : Bytes.isHexDigit b = true) :
    (s.switch (.unicode digits)).feed o b i =
      .ok (s.switch (if digits = 3 then .string else .unicode (digits + 1))) := by
  change (s.switch (.unicode digits)).feedUnicode digits b = _
  rw [State.feedUnicode, if_pos h]
  rfl

/-- The four digits of an escape are read. -/
theorem readFrom_digits {digits : Bytes} (hlength : digits.length = 4)
    (hdigits : ∀ b ∈ digits, Bytes.isHexDigit b = true) :
    readFrom o (s.switch (.unicode 0)) i (digits ++ rest) =
      readFrom o (s.switch .string) (i + digits.length) rest := by
  obtain ⟨p, q, u, v, rfl⟩ : ∃ p q u v, digits = [p, q, u, v] := by
    rcases digits with _ | ⟨p, _ | ⟨q, _ | ⟨u, _ | ⟨v, _ | _⟩⟩⟩⟩ <;> simp_all
  simp only [List.forall_mem_cons] at hdigits
  obtain ⟨hp, hq, hu, hv, -⟩ := hdigits
  have hfirst : (s.switch (.unicode 0)).feed o p i = .ok (s.switch (.unicode 1)) := feed_digit hp
  have hsecond : (s.switch (.unicode 1)).feed o q (i + 1) = .ok (s.switch (.unicode 2)) :=
    feed_digit hq
  have hthird : (s.switch (.unicode 2)).feed o u (i + 1 + 1) = .ok (s.switch (.unicode 3)) :=
    feed_digit hu
  have hfourth : (s.switch (.unicode 3)).feed o v (i + 1 + 1 + 1) = .ok (s.switch .string) :=
    feed_digit hv
  simp only [List.cons_append, List.nil_append]
  rw [readFrom_cons (by nofun) hfirst, readFrom_cons (by nofun) hsecond,
    readFrom_cons (by nofun) hthird, readFrom_cons (by nofun) hfourth]
  rfl

/-- **A string is read up to its closing quote.** -/
theorem readFrom_string {tail : Bytes} (h : IsStringTail tail) (hends : EndsLiteral s after) :
    readFrom o (s.switch .string) i (tail ++ rest) =
      readFrom o (after (i + tail.length)) (i + tail.length) rest := by
  induction h generalizing i with
  | close => exact readFrom_cons (by nofun) (feed_quote hends)
  | @plain b tail hquote hescape hcontrol hrest ih =>
    rw [List.cons_append, readFrom_cons (by nofun) (feed_plain hquote hescape hcontrol), ih,
      List.length_cons, Nat.add_right_comm, Nat.add_assoc]
  | @escape letter tail hletter hrest ih =>
    have hbackslash : (s.switch .string).feed o (Char.toUInt8 '\\') i = .ok (s.switch .escape) := rfl
    rw [List.cons_append, List.cons_append, readFrom_cons (by nofun) hbackslash,
      readFrom_cons (by nofun) (feed_letter hletter), ih, List.length_cons, List.length_cons]
    rw [show i + 1 + 1 + tail.length = i + (tail.length + 1 + 1) from by omega]
  | @unicode digits tail hlength hdigits hrest ih =>
    have hbackslash : (s.switch .string).feed o (Char.toUInt8 '\\') i = .ok (s.switch .escape) := rfl
    have hu : (s.switch .escape).feed o (Char.toUInt8 'u') (i + 1) =
        .ok (s.switch (.unicode 0)) := rfl
    rw [List.cons_append, List.cons_append, List.append_assoc, readFrom_cons (by nofun) hbackslash,
      readFrom_cons (by nofun) hu, readFrom_digits hlength hdigits, ih]
    simp only [List.length_cons, List.length_append]
    rw [show i + 1 + 1 + digits.length + tail.length = i + (digits.length + tail.length + 1 + 1) from by
      omega]

/-- What is read inside an escape is digits, as many as are still to come. -/
theorem exists_digits {more digits : Nat} {text : Bytes} (hmore : digits + (more + 1) = 4)
    (h : (readFrom o (s.switch (.unicode digits)) i text).isSome = true) :
    ∃ read rest i, text = read ++ rest ∧ read.length = more + 1 ∧
      (∀ b ∈ read, Bytes.isHexDigit b = true) ∧
      (readFrom o (s.switch .string) i rest).isSome = true := by
  induction more generalizing digits text i with
  | zero =>
    obtain rfl : digits = 3 := by omega
    cases text with
    | nil =>
      obtain ⟨s', hend⟩ := exists_conclude_eq_ok h
      cases hend
    | cons b rest =>
      obtain ⟨s', hfeed, hrest⟩ := exists_feed_eq_ok (by nofun) h
      change State.feedUnicode _ _ b = _ at hfeed
      rw [State.feedUnicode] at hfeed
      split at hfeed
      · next hb =>
        cases hfeed
        exact ⟨[b], rest, _, rfl, rfl, by simpa using hb, hrest⟩
      · cases hfeed
  | succ more ih =>
    cases text with
    | nil =>
      obtain ⟨s', hend⟩ := exists_conclude_eq_ok h
      cases hend
    | cons b rest =>
      obtain ⟨s', hfeed, hrest⟩ := exists_feed_eq_ok (by nofun) h
      change State.feedUnicode _ _ b = _ at hfeed
      rw [State.feedUnicode] at hfeed
      split at hfeed
      · next hb =>
        rw [if_neg (show digits ≠ 3 by omega)] at hfeed
        cases hfeed
        obtain ⟨read, rest, i, rfl, hlength, hread, h⟩ :=
          @ih _ (digits + 1) _ (by omega) hrest
        refine ⟨b :: read, rest, i, rfl, by rw [List.length_cons, hlength], ?_, h⟩
        exact List.forall_mem_cons.2 ⟨hb, hread⟩
      · cases hfeed

/-- **What is read inside a string goes up to its closing quote.** -/
theorem exists_string {text : Bytes} (h : (readFrom o (s.switch .string) i text).isSome = true) :
    ∃ tail rest, text = tail ++ rest ∧ IsStringTail tail := by
  induction hn : text.length using Nat.strongRecOn generalizing text i with
  | ind n ih =>
    subst hn
    rcases text with _ | ⟨b, text⟩
    · obtain ⟨s', hend⟩ := exists_conclude_eq_ok h
      cases hend
    obtain ⟨s', hfeed, hafter⟩ := exists_feed_eq_ok (by nofun) h
    clear h
    change State.feedString _ b i = _ at hfeed
    unfold State.feedString at hfeed
    split at hfeed
    · next hquote =>
      obtain rfl := Bytes.eq_of_char_eq hquote
      exact ⟨_, text, rfl, .close⟩
    · next hescape =>
      cases hfeed
      obtain rfl := Bytes.eq_of_char_eq hescape
      rcases text with _ | ⟨letter, text⟩
      · obtain ⟨s', hend⟩ := exists_conclude_eq_ok hafter
        cases hend
      obtain ⟨s', hfeed, hafter⟩ := exists_feed_eq_ok (by nofun) hafter
      change State.feedEscape _ letter = _ at hfeed
      unfold State.feedEscape at hfeed
      have hshort : text.length < (Char.toUInt8 '\\' :: letter :: text).length := by
        rw [List.length_cons, List.length_cons]
        omega
      split at hfeed
      iterate 8
        next hletter =>
          cases hfeed
          obtain ⟨tail, rest, rfl, htail⟩ := ih _ hshort hafter rfl
          exact ⟨_, rest, rfl, .escape (by simp [hletter]) htail⟩
      · next hletter =>
        cases hfeed
        obtain rfl := Bytes.eq_of_char_eq hletter
        obtain ⟨digits, text, j, rfl, hlength, hdigits, hafter⟩ :=
          @exists_digits _ _ _ 3 0 _ rfl hafter
        obtain ⟨tail, rest, rfl, htail⟩ := ih text.length (by simp; omega) hafter rfl
        refine ⟨_, rest, ?_, .unicode hlength hdigits htail⟩
        simp
      · cases hfeed
    · next hquote hescape =>
      split at hfeed
      · cases hfeed
      · next hcontrol =>
        cases hfeed
        obtain ⟨tail, rest, rfl, htail⟩ := ih text.length (by simp) hafter rfl
        exact ⟨_, rest, rfl, .plain hquote hescape (Nat.not_lt.1 hcontrol) htail⟩

/-! ## Numbers -/

/-- A byte that may follow a value. -/
def IsDelimiter (b : UInt8) : Prop :=
  Bytes.isSpace b = true ∨ Bytes.char b ∈ [',', ']', '\x7d']

/-- The text begins with a byte that may follow a value, or is at its end. -/
def IsDelimited (text : Bytes) : Prop := ∀ b ∈ text.head?, IsDelimiter b

theorem isDelimited_nil : IsDelimited [] := nofun

theorem isDelimited_cons_iff {b : UInt8} : IsDelimited (b :: rest) ↔ IsDelimiter b := by
  simp [IsDelimited]

/-- A number cannot go on with a byte that may follow a value. -/
theorem IsDelimiter.next?_eq_none {b : UInt8} (h : IsDelimiter b) {part : NumberPart}
    (hpart : part.isComplete = true) : part.next? b = none ∧ part.refusal? b = none := by
  have hchar : Bytes.char b ∈ [' ', '\t', '\n', '\r', ',', ']', '\x7d'] := by
    rcases h with hspace | hchar
    · unfold Bytes.isSpace at hspace
      split at hspace
      iterate 4 next hb => simp [hb]
      · cases hspace
    · simp only [List.mem_cons] at hchar ⊢
      tauto
  simp only [List.mem_cons, List.not_mem_nil, or_false] at hchar
  cases part with
  | minus | point | exponent | exponentSign => cases hpart
  | zero | whole | fraction | exponentDigits =>
    rcases hchar with hb | hb | hb | hb | hb | hb | hb <;>
      simp only [NumberPart.next?, NumberPart.refusal?, Bytes.isDigit, hb] <;> decide

/-- A number that can neither go on nor be refused may end. -/
theorem isComplete_of_refusal? {part : NumberPart} {b : UInt8} (h : part.refusal? b = none) :
    part.isComplete = true := by
  cases part <;> first | rfl | cases h

/-- A number that may end hands what follows it to the place after it. -/
theorem readFrom_complete {part : NumberPart} {place : Place} (hpart : part.isComplete = true)
    (hends : EndsLiteral s after) (hplace : (after i).At place) (hnote : place ≠ .afterRules .inline)
    (hrest : IsDelimited rest) :
    readFrom o (s.switch (.number part)) i rest = readFrom o (after i) i rest := by
  have hfinish := hends (.number part) i
  cases rest with
  | nil =>
    refine State.readFrom_nil_of_land? hfinish hplace hnote ?_
    change (if part.isComplete then _ else _) = _
    rw [if_pos hpart]
  | cons b rest =>
    obtain ⟨hnext, hrefusal⟩ := (isDelimited_cons_iff.1 hrest).next?_eq_none hpart
    have hfeed : (s.switch (.number part)).feed o b i = (after i).feed o b i := by
      rw [← State.land_eq_feed hfinish hplace hnote]
      change State.feedNumber o _ part b i = _
      rw [State.feedNumber, hnext, hrefusal]
    cases hafter : (after i).feed o b i with
    | ok s' =>
      rw [readFrom_cons hplace.ne_done hafter, readFrom_cons (by nofun) (hfeed.trans hafter)]
    | error cause =>
      rw [readFrom_cons_of_error hplace.ne_done hafter,
        readFrom_cons_of_error (by nofun) (hfeed.trans hafter)]

/-- **A number is read up to a byte that may follow it.** -/
theorem readFrom_number {part : NumberPart} {text : Bytes} {place : Place}
    (h : part.Completes text) (hends : EndsLiteral s after)
    (hplace : ∀ stop, (after stop).At place) (hnote : place ≠ .afterRules .inline)
    (hrest : IsDelimited rest) :
    readFrom o (s.switch (.number part)) i (text ++ rest) =
      readFrom o (after (i + text.length)) (i + text.length) rest := by
  induction text generalizing part i with
  | nil =>
    exact readFrom_complete ((part.completes_nil_iff).1 h) hends (hplace i) hnote hrest
  | cons b text ih =>
    obtain ⟨part', hnext, h⟩ := NumberPart.completes_cons_iff.1 h
    have hfeed : (s.switch (.number part)).feed o b i = .ok (s.switch (.number part')) := by
      change State.feedNumber o _ part b i = _
      rw [State.feedNumber, hnext]
      rfl
    rw [List.cons_append, readFrom_cons (by nofun) hfeed, ih h, List.length_cons,
      Nat.add_right_comm, Nat.add_assoc]

/-- **What is read inside a number is the rest of a number**, and what follows it may follow a value, if
only such bytes are taken at the place after it. -/
theorem exists_number {part : NumberPart} {text : Bytes} {place : Place}
    (hends : EndsLiteral s after) (hplace : ∀ stop, (after stop).At place)
    (hnote : place ≠ .afterRules .inline)
    (hdelimited : ∀ stop text, (readFrom o (after stop) stop text).isSome = true → IsDelimited text)
    (h : (readFrom o (s.switch (.number part)) i text).isSome = true) :
    ∃ number rest, text = number ++ rest ∧ part.Completes number ∧ IsDelimited rest := by
  induction text generalizing part i with
  | nil =>
    have hpart : part.isComplete = true := by
      obtain ⟨s', hend⟩ := exists_conclude_eq_ok h
      change (if part.isComplete then _ else _) = _ at hend
      split at hend
      · next hpart => exact hpart
      · cases hend
    exact ⟨[], [], rfl, (part.completes_nil_iff).2 hpart, isDelimited_nil⟩
  | cons b text ih =>
    have hall := h
    obtain ⟨s', hfeed, h⟩ := exists_feed_eq_ok (by nofun) h
    have hnumber := hfeed
    change State.feedNumber o _ part b i = _ at hnumber
    rw [State.feedNumber] at hnumber
    split at hnumber
    · next part' hnext =>
      cases hnumber
      obtain ⟨number, rest, rfl, hcompletes, hrest⟩ := ih h
      exact ⟨b :: number, rest, rfl, NumberPart.completes_cons_iff.2 ⟨part', hnext, hcompletes⟩,
        hrest⟩
    · cases hnumber
    · next hnext hrefusal =>
      refine ⟨[], b :: text, rfl, (part.completes_nil_iff).2 (isComplete_of_refusal? hrefusal), ?_⟩
      rw [State.land_eq_feed (hends (.number part) i) (hplace i) hnote] at hnumber
      refine hdelimited i (b :: text) ?_
      rw [readFrom_cons (hplace i).ne_done hnumber]
      exact h

/-! ## Words -/

/-- **A word is read up to its last letter.** -/
theorem readFrom_keyword {word : Keyword} {next : UInt8} {more : Bytes}
    (hends : EndsLiteral s after) :
    readFrom o (s.switch (.keyword word next more)) i (next :: more ++ rest) =
      readFrom o (after (i + (next :: more).length)) (i + (next :: more).length) rest := by
  induction more generalizing next i with
  | nil =>
    have hfeed : (s.switch (.keyword word next [])).feed o next i = .ok (after (i + 1)) := by
      change State.feedKeyword _ word next [] next i = _
      rw [State.feedKeyword, if_pos rfl]
      exact hends _ (i + 1)
    exact readFrom_cons (fun h => by cases h) hfeed
  | cons letter more ih =>
    have hfeed : (s.switch (.keyword word next (letter :: more))).feed o next i =
        .ok (s.switch (.keyword word letter more)) := by
      change State.feedKeyword _ word next (letter :: more) next i = _
      rw [State.feedKeyword, if_pos rfl]
      rfl
    rw [List.cons_append, readFrom_cons (fun h => by cases h) hfeed, ih]
    simp only [List.length_cons]
    rw [show i + 1 + (more.length + 1) = i + (more.length + 1 + 1) from by omega]

/-- **What is read inside a word is the rest of its letters.** -/
theorem exists_keyword {word : Keyword} {next : UInt8} {more text : Bytes}
    (h : (readFrom o (s.switch (.keyword word next more)) i text).isSome = true) :
    ∃ rest, text = next :: more ++ rest := by
  induction more generalizing next text i with
  | nil =>
    cases text with
    | nil =>
      obtain ⟨s', hend⟩ := exists_conclude_eq_ok h
      cases hend
    | cons b rest =>
      obtain ⟨s', hfeed, -⟩ := exists_feed_eq_ok (fun h => by cases h) h
      change State.feedKeyword _ word next [] b i = _ at hfeed
      rw [State.feedKeyword] at hfeed
      split at hfeed
      · next hb => exact ⟨rest, by rw [hb]; rfl⟩
      · cases hfeed
  | cons letter more ih =>
    cases text with
    | nil =>
      obtain ⟨s', hend⟩ := exists_conclude_eq_ok h
      cases hend
    | cons b rest =>
      obtain ⟨s', hfeed, hrest⟩ := exists_feed_eq_ok (fun h => by cases h) h
      change State.feedKeyword _ word next (letter :: more) b i = _ at hfeed
      rw [State.feedKeyword] at hfeed
      split at hfeed
      · next hb =>
        cases hfeed
        obtain ⟨rest, rfl⟩ := ih hrest
        exact ⟨rest, by rw [hb]; rfl⟩
      · cases hfeed

/-! ## Literals -/

/-- What is being read after a byte that begins a literal. -/
def literalMode? (b : UInt8) : Option Mode :=
  match Bytes.char b with
  | '"' => some .string
  | '-' => some (.number .minus)
  | '0' => some (.number .zero)
  | 't' => some (.keyword .yes (Char.toUInt8 'r') (Bytes.ofString "ue"))
  | 'f' => some (.keyword .no (Char.toUInt8 'a') (Bytes.ofString "lse"))
  | 'n' => some (.keyword .null (Char.toUInt8 'u') (Bytes.ofString "ll"))
  | c => if c.isDigit then some (.number .whole) else none

/-- What may follow inside a literal, up to its end. -/
def Mode.Finishes (mode : Mode) (tail : Bytes) : Prop :=
  match mode with
  | .string => IsStringTail tail
  | .number part => part.Completes tail
  | .keyword _ next more => tail = next :: more
  | _ => False

/-- A number begins with its sign or with the first byte of its whole part. -/
theorem literalMode?_of_next? {b : UInt8} {part : NumberPart}
    (h : NumberPart.minus.next? b = some part) : literalMode? b = some (.number part) := by
  simp only [NumberPart.next?] at h
  split at h
  · next hzero =>
    cases h
    rw [Bytes.eq_of_char_eq (eq_of_beq hzero)]
    rfl
  split at h
  · next hzero hdigit =>
    cases h
    unfold literalMode?
    split
    iterate 6
      next hb =>
        rw [hb] at hdigit
        first
          | exact absurd hdigit (by decide)
          | exact absurd (beq_iff_eq.2 hb) hzero
    · exact if_pos hdigit
  · cases h

/-- A literal begins with a byte that leads to a mode, in which the rest of it is read. -/
theorem exists_literalMode? {b : UInt8} {tail : Bytes} (h : IsLiteral (b :: tail)) :
    ∃ mode, literalMode? b = some mode ∧ mode.Finishes tail := by
  generalize htext : b :: tail = text at h
  cases h with
  | string h =>
    cases h with
    | quoted h =>
      obtain ⟨rfl, rfl⟩ := List.cons.inj htext
      exact ⟨.string, rfl, h⟩
  | number h =>
    cases h with
    | positive h =>
      subst htext
      have hminus : NumberPart.minus.Completes (b :: tail) := h
      obtain ⟨part, hnext, hpart⟩ := NumberPart.completes_cons_iff.1 hminus
      exact ⟨.number part, literalMode?_of_next? hnext, hpart⟩
    | negative h =>
      obtain ⟨rfl, rfl⟩ := List.cons.inj htext
      exact ⟨.number .minus, rfl, h⟩
  | keyword word =>
    cases word <;> obtain ⟨rfl, rfl⟩ := List.cons.inj htext <;> exact ⟨_, rfl, rfl⟩

/-- A byte that leads to a mode, with what may be read in that mode, is a literal. -/
theorem isLiteral_of_literalMode? {b : UInt8} {tail : Bytes} {mode : Mode}
    (hmode : literalMode? b = some mode) (h : mode.Finishes tail) : IsLiteral (b :: tail) := by
  unfold literalMode? at hmode
  split at hmode
  · next hb =>
    cases hmode
    rw [Bytes.eq_of_char_eq hb]
    exact .string (.quoted h)
  · next hb =>
    cases hmode
    rw [Bytes.eq_of_char_eq hb]
    exact .number (.negative h)
  · next hb =>
    cases hmode
    refine .number (.positive ?_)
    have hnext : NumberPart.minus.next? b = some .zero := by simp [NumberPart.next?, hb]
    exact NumberPart.completes_of_next? hnext h
  · next hb =>
    cases hmode
    rw [Bytes.eq_of_char_eq hb, show tail = _ from h]
    exact .keyword .yes
  · next hb =>
    cases hmode
    rw [Bytes.eq_of_char_eq hb, show tail = _ from h]
    exact .keyword .no
  · next hb =>
    cases hmode
    rw [Bytes.eq_of_char_eq hb, show tail = _ from h]
    exact .keyword .null
  · next hzero _ _ _ =>
    split at hmode
    · next hdigit =>
      cases hmode
      refine .number (.positive ?_)
      have hzero : (Bytes.char b == '0') = false := beq_false_of_ne hzero
      have hnext : NumberPart.minus.next? b = some .whole := by
        simp [NumberPart.next?, hzero, hdigit]
      exact NumberPart.completes_of_next? hnext h
    · cases hmode

/-- **A literal is what a first byte and the mode after it make of it.** -/
theorem isLiteral_cons_iff {b : UInt8} {tail : Bytes} :
    IsLiteral (b :: tail) ↔ ∃ mode, literalMode? b = some mode ∧ mode.Finishes tail :=
  ⟨exists_literalMode?, fun ⟨_, hmode, h⟩ => isLiteral_of_literalMode? hmode h⟩

theorem not_isLiteral_nil : ¬ IsLiteral [] := by
  intro h
  generalize htext : ([] : Bytes) = text at h
  cases h with
  | string h => cases h; cases htext
  | number h =>
    cases h with
    | positive h =>
      subst htext
      have hcomplete := (NumberPart.completes_nil_iff .minus).1 h
      cases hcomplete
    | negative h => cases htext
  | keyword word => cases word <;> cases htext

/-- **A literal is read up to its end**, whatever follows it that may follow a value. -/
theorem readFrom_literal {mode : Mode} {tail : Bytes} {place : Place} (h : mode.Finishes tail)
    (hends : EndsLiteral s after) (hplace : ∀ stop, (after stop).At place)
    (hnote : place ≠ .afterRules .inline) (hrest : IsDelimited rest) :
    readFrom o (s.switch mode) i (tail ++ rest) =
      readFrom o (after (i + tail.length)) (i + tail.length) rest := by
  cases mode with
  | string => exact readFrom_string h hends
  | number part => exact readFrom_number h hends hplace hnote hrest
  | keyword word next more =>
    obtain rfl : tail = next :: more := h
    exact readFrom_keyword hends
  | _ => exact h.elim

/-- **What is read inside a literal is the rest of a literal.** -/
theorem exists_literal {b : UInt8} {mode : Mode} {text : Bytes} {place : Place}
    (hmode : literalMode? b = some mode) (hends : EndsLiteral s after)
    (hplace : ∀ stop, (after stop).At place) (hnote : place ≠ .afterRules .inline)
    (hdelimited : ∀ stop text, (readFrom o (after stop) stop text).isSome = true → IsDelimited text)
    (h : (readFrom o (s.switch mode) i text).isSome = true) :
    ∃ tail rest, text = tail ++ rest ∧ mode.Finishes tail ∧ IsDelimited rest := by
  -- What ends with its own last byte is followed by what the place after it takes.
  have hafter : ∀ {tail rest : Bytes}, text = tail ++ rest →
      readFrom o (s.switch mode) i text =
        readFrom o (after (i + tail.length)) (i + tail.length) rest → IsDelimited rest := by
    intro tail rest htext hread
    rw [hread] at h
    exact hdelimited _ _ h
  unfold literalMode? at hmode
  split at hmode
  · cases hmode
    obtain ⟨tail, rest, rfl, htail⟩ := exists_string h
    exact ⟨tail, rest, rfl, htail, hafter rfl (readFrom_string htail hends)⟩
  · cases hmode
    exact exists_number hends hplace hnote hdelimited h
  · cases hmode
    exact exists_number hends hplace hnote hdelimited h
  iterate 3
    · cases hmode
      obtain ⟨rest, rfl⟩ := exists_keyword h
      exact ⟨_, rest, rfl, rfl, hafter rfl (readFrom_keyword hends)⟩
  · split at hmode
    · cases hmode
      exact exists_number hends hplace hnote hdelimited h
    · cases hmode

end Scan
end ExampleSchema
