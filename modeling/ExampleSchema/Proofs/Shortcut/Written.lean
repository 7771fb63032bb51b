import ExampleSchema.Proofs.Decimal.Writing
import ExampleSchema.Proofs.Scan.Content
import ExampleSchema.Shortcut

/-!
# Names written as a shortcut

In place of a value stand the names of types, with bars between them and blanks around the bars.  However the blanks
are set, a scan takes the whole as one token, and the names can be read off the token again.

* `Shortcut.IsWrittenAs`: names and a text that writes them.
* `Scan.readFrom_shortcut`: at a place where a value may start, a scan goes past such a text in one token.
* `Scan.read_shortcut`: a document that is such a text.
* `Shortcut.names_eq_ok`: the names of the token.
-/

namespace ExampleSchema

/-! ## Names of types -/

/-- The characters of a name are ASCII, above the blanks and below the bar. -/
theorem toNat_of_isNameChar {c : Char} (h : (c.isAlphanum || c == '_' || c == '-') = true) :
    ' '.toNat < c.toNat ∧ c.toNat < '|'.toNat := by
  simp only [Bool.or_eq_true, beq_iff_eq] at h
  rcases h with (h | rfl) | rfl
  · delta Char.isAlphanum Char.isAlpha Char.isUpper Char.isLower Char.isDigit at h
    simp only [Bool.or_eq_true, Bool.and_eq_true, decide_eq_true_eq, ge_iff_le, UInt32.le_iff_toNat_le] at h
    have hends : '0'.val.toNat = 48 ∧ '9'.val.toNat = 57 ∧ 'A'.val.toNat = 65 ∧ 'Z'.val.toNat = 90 ∧
      'a'.val.toNat = 97 ∧ 'z'.val.toNat = 122 := ⟨rfl, rfl, rfl, rfl, rfl, rfl⟩
    change 32 < c.val.toNat ∧ c.val.toNat < 124
    omega
  · decide
  · decide

/-- The name of a type is the sign and characters of a name. -/
theorem exists_of_isUserTypeName {name : String} (h : isUserTypeName name = true) :
    ∃ rest, name.toList = '@' :: rest ∧ rest ≠ [] ∧
      ∀ c ∈ rest, (c.isAlphanum || c == '_' || c == '-') = true := by
  unfold isUserTypeName at h
  split at h
  · next rest hname =>
    obtain ⟨hne, hall⟩ := Bool.and_eq_true_iff.1 h
    exact ⟨rest, hname, by simpa using hne, List.all_eq_true.1 hall⟩
  · cases h

theorem toNat_of_mem_typeName {name : String} (h : isUserTypeName name = true) :
    ∀ c ∈ name.toList, ' '.toNat < c.toNat ∧ c.toNat < '|'.toNat := by
  obtain ⟨rest, hname, -, hall⟩ := exists_of_isUserTypeName h
  rw [hname]
  exact List.forall_mem_cons.2 ⟨by decide, fun c hc => toNat_of_isNameChar (hall c hc)⟩

/-- The characters of the name of a type are single bytes. -/
theorem toNat_lt_of_mem_typeName {name : String} (h : isUserTypeName name = true) :
    ∀ c ∈ name.toList, c.toNat < 0x80 :=
  fun c hc => (toNat_of_mem_typeName h c hc).2.trans (by decide)

/-- The name of a type in bytes. -/
theorem isKeyShortcut_ofString {name : String} (h : isUserTypeName name = true) :
    IsKeyShortcut (Bytes.ofString name) := by
  obtain ⟨rest, hname, hne, hall⟩ := exists_of_isUserTypeName h
  refine ⟨rest.map Char.toUInt8, ?_, by simpa using hne, fun b hb => ?_⟩
  · rw [Bytes.ofString, Utf8.encode_eq_map (toNat_lt_of_mem_typeName h), hname, List.map_cons]
  · obtain ⟨c, hc, rfl⟩ := List.mem_map.1 hb
    rw [Bytes.isNameChar, Bytes.char_toUInt8 ((toNat_of_isNameChar (hall c hc)).2.trans (by decide))]
    exact hall c hc

/-! ## Writing names -/

namespace Shortcut

open Scan.State (isInnerBlank)

/-- A text writes some names as a shortcut: bars stand between them, and blanks may stand around the bars. -/
inductive IsWrittenAs : List String → Bytes → Prop
  | one {name : String} (hname : isUserTypeName name = true) : IsWrittenAs [name] (Bytes.ofString name)
  | more {name : String} {names : List String} {before after rest : Bytes} (hname : isUserTypeName name = true)
    (hbefore : ∀ b ∈ before, isInnerBlank b = true) (hafter : ∀ b ∈ after, isInnerBlank b = true)
    (hrest : IsWrittenAs names rest) :
    IsWrittenAs (name :: names) (Bytes.ofString name ++ (before ++ Char.toUInt8 '|' :: (after ++ rest)))

end Shortcut

/-! ## One token -/

namespace Scan

variable {o : Options} {s : State} {p next : Place} {b : UInt8} {i : Nat} {text rest : Bytes}

/-- The end of the last name of a shortcut has been noted. -/
def State.noted (s : State) (nameEnd : Nat) : State := { s with nameEnd }

/-- States that take a byte alike go on alike. -/
theorem readFrom_cons_congr {s' : State} (hmode : s.mode ≠ .done) (hmode' : s'.mode ≠ .done)
    (h : s.feed o b i = s'.feed o b i) : readFrom o s i (b :: rest) = readFrom o s' i (b :: rest) := by
  cases hfeed : s'.feed o b i with
  | ok s₁ => rw [readFrom_cons hmode (h.trans hfeed), readFrom_cons hmode' hfeed]
  | error cause => rw [readFrom_cons_of_error hmode (h.trans hfeed), readFrom_cons_of_error hmode' hfeed]

theorem feed_nameChar (h : Bytes.isNameChar b = true) {part : ShortcutPart} (hpart : part = .mark ∨ part = .name) :
    (s.switch (.shortcut part)).feed o b i = .ok (s.switch (.shortcut .name)) := by
  rcases hpart with rfl | rfl
  · exact if_pos h
  · exact if_pos h

/-- **The rest of a name is read.** -/
theorem readFrom_nameChars {name : Bytes} (h : ∀ b ∈ name, Bytes.isNameChar b = true) :
    readFrom o (s.switch (.shortcut .name)) i (name ++ rest) =
      readFrom o (s.switch (.shortcut .name)) (i + name.length) rest := by
  induction name generalizing i with
  | nil => rfl
  | cons b name ih =>
    obtain ⟨hb, hname⟩ := List.forall_mem_cons.1 h
    rw [List.cons_append, readFrom_cons (by nofun) (feed_nameChar hb (Or.inr rfl)), ih hname, List.length_cons,
      Nat.add_right_comm, Nat.add_assoc]

/-- A blank of a shortcut is no character of a name. -/
theorem isNameChar_of_isInnerBlank (h : State.isInnerBlank b = true) : Bytes.isNameChar b = false := by
  obtain ⟨hspace, -⟩ := Bool.and_eq_true_iff.1 h
  unfold Bytes.isSpace at hspace
  split at hspace
  iterate 4 next hb => rw [Bytes.eq_of_char_eq hb]; decide
  cases hspace

/-- Where a name ends is noted at the first blank after it. -/
theorem feed_blankAfterName (h : State.isInnerBlank b = true) :
    (s.switch (.shortcut .name)).feed o b i = .ok ((s.noted i).switch (.shortcut .afterName)) := by
  change (if Bytes.isNameChar b = true then _ else if State.isInnerBlank b = true then _ else _) = _
  rw [if_neg (Bool.eq_false_iff.1 (isNameChar_of_isInnerBlank h)), if_pos h]
  rfl

/-- Blanks after a name are skipped. -/
theorem readFrom_afterName {blanks : Bytes} (h : ∀ b ∈ blanks, State.isInnerBlank b = true) :
    readFrom o (s.switch (.shortcut .afterName)) i (blanks ++ rest) =
      readFrom o (s.switch (.shortcut .afterName)) (i + blanks.length) rest := by
  induction blanks generalizing i with
  | nil => rfl
  | cons b blanks ih =>
    obtain ⟨hb, hblanks⟩ := List.forall_mem_cons.1 h
    have hfeed : (s.switch (.shortcut .afterName)).feed o b i = .ok (s.switch (.shortcut .afterName)) := if_pos hb
    rw [List.cons_append, readFrom_cons (by nofun) hfeed, ih hblanks, List.length_cons, Nat.add_right_comm,
      Nat.add_assoc]

/-- Blanks after a bar are skipped. -/
theorem readFrom_afterBar {blanks : Bytes} (h : ∀ b ∈ blanks, State.isInnerBlank b = true) :
    readFrom o (s.switch (.shortcut .afterBar)) i (blanks ++ rest) =
      readFrom o (s.switch (.shortcut .afterBar)) (i + blanks.length) rest := by
  induction blanks generalizing i with
  | nil => rfl
  | cons b blanks ih =>
    obtain ⟨hb, hblanks⟩ := List.forall_mem_cons.1 h
    have hfeed : (s.switch (.shortcut .afterBar)).feed o b i = .ok (s.switch (.shortcut .afterBar)) := if_pos hb
    rw [List.cons_append, readFrom_cons (by nofun) hfeed, ih hblanks, List.length_cons, Nat.add_right_comm,
      Nat.add_assoc]

/-- **A bar is read** with the blanks in front of it. -/
theorem readFrom_bar {blanks : Bytes} (h : ∀ b ∈ blanks, State.isInnerBlank b = true) :
    readFrom o (s.switch (.shortcut .name)) i (blanks ++ Char.toUInt8 '|' :: rest) =
      readFrom o ((s.noted i).switch (.shortcut .afterBar)) (i + blanks.length + 1) rest := by
  cases blanks with
  | nil => exact readFrom_cons (by nofun) rfl
  | cons b blanks =>
    obtain ⟨hb, hblanks⟩ := List.forall_mem_cons.1 h
    have hbar (s : State) (i : Nat) : (s.switch (.shortcut .afterName)).feed o (Char.toUInt8 '|') i =
        .ok (s.switch (.shortcut .afterBar)) := rfl
    rw [List.cons_append, readFrom_cons (by nofun) (feed_blankAfterName hb), readFrom_afterName hblanks,
      readFrom_cons (by nofun) (hbar _ _), List.length_cons, Nat.add_right_comm i 1, Nat.add_assoc i]

/-- **The names of a shortcut are read**, from its first sign up to the end of the last name. -/
theorem readFrom_written {names : List String} (h : Shortcut.IsWrittenAs names text) :
    ∃ tail, text = Char.toUInt8 '@' :: tail ∧ ∀ (s : State) (i : Nat) (rest : Bytes), ∃ e,
      readFrom o (s.switch (.shortcut .mark)) i (tail ++ rest) =
        readFrom o ((s.noted e).switch (.shortcut .name)) (i + tail.length) rest := by
  -- The name itself, and what is read of it after the sign.
  have hread {name : String} (hname : isUserTypeName name = true) :
      ∃ tail, Bytes.ofString name = Char.toUInt8 '@' :: tail ∧
      ∀ (s : State) (i : Nat) (rest : Bytes), readFrom o (s.switch (.shortcut .mark)) i (tail ++ rest) =
        readFrom o (s.switch (.shortcut .name)) (i + tail.length) rest := by
    obtain ⟨tail, htext, hne, hall⟩ := isKeyShortcut_ofString hname
    refine ⟨tail, htext, fun s i rest => ?_⟩
    obtain ⟨b, tail, rfl⟩ := List.exists_cons_of_ne_nil hne
    obtain ⟨hb, hall⟩ := List.forall_mem_cons.1 hall
    rw [List.cons_append, readFrom_cons (by nofun) (feed_nameChar hb (Or.inl rfl)), readFrom_nameChars hall,
      List.length_cons, Nat.add_right_comm, Nat.add_assoc]
  induction h with
  | one hname =>
    obtain ⟨tail, htext, htail⟩ := hread hname
    exact ⟨tail, htext, fun s i rest => ⟨s.nameEnd, htail s i rest⟩⟩
  | @more name names before after more hname hbefore hafter hmore ih =>
    obtain ⟨tail, htext, htail⟩ := hread hname
    obtain ⟨tail', rfl, htail'⟩ := ih
    refine ⟨tail ++ (before ++ Char.toUInt8 '|' :: (after ++ Char.toUInt8 '@' :: tail')), by rw [htext]; rfl,
      fun s i rest => ?_⟩
    have hmark (s : State) (i : Nat) (rest : Bytes) :
        readFrom o (s.switch (.shortcut .afterBar)) i (Char.toUInt8 '@' :: rest) =
          readFrom o (s.switch (.shortcut .mark)) (i + 1) rest := readFrom_cons (by nofun) rfl
    obtain ⟨e, he⟩ :=
      htail' (s.noted (i + tail.length)) (i + tail.length + before.length + 1 + after.length + 1) rest
    refine ⟨e, ?_⟩
    have hlength : (tail ++ (before ++ Char.toUInt8 '|' :: (after ++ Char.toUInt8 '@' :: tail'))).length =
        tail.length + before.length + 1 + after.length + 1 + tail'.length := by simp; omega
    have hi : i + (tail.length + before.length + 1 + after.length + 1 + tail'.length) =
        i + tail.length + before.length + 1 + after.length + 1 + tail'.length := by omega
    rw [hlength, hi]
    simp only [List.append_assoc, List.cons_append]
    rw [htail, readFrom_bar hbefore, readFrom_afterBar hafter, hmark]
    exact he

/-- What may follow a shortcut and the blanks after it: nothing that goes on with it. -/
def EndsShortcut (rest : Bytes) : Prop :=
  ∀ b ∈ rest.head?, Bytes.isNameChar b = false ∧ State.isInnerBlank b = false ∧ Bytes.char b ≠ '|'

/-- **A shortcut ends with its last name**, whatever blanks come after that. -/
theorem readFrom_endOfShortcut {after : Nat → State} {blanks : Bytes}
    (hends : ∀ mode e stop, ((s.noted e).switch mode).finishValue stop = .ok ((after stop).noted e))
    (hplace : ∀ stop, (after stop).mode = .between next) (hnext : next ≠ .afterRules .inline)
    (hblanks : ∀ b ∈ blanks, State.isInnerBlank b = true) (hrest : EndsShortcut rest) :
    ∃ e, readFrom o (s.switch (.shortcut .name)) i (blanks ++ rest) =
      readFrom o ((after i).noted e) (i + blanks.length) rest := by
  -- After the first blank, the end of the name is no longer where the scan is.
  have hafter {e j : Nat} (blanks : Bytes) (hblanks : ∀ b ∈ blanks, State.isInnerBlank b = true) :
      readFrom o ((s.noted e).switch (.shortcut .afterName)) j (blanks ++ rest) =
        readFrom o ((after e).noted e) (j + blanks.length) rest := by
    rw [readFrom_afterName hblanks]
    have hfinish := hends (.shortcut .afterName) e e
    cases rest with
    | nil => exact State.readFrom_nil_of_land?_of_mode hfinish (hplace e) hnext rfl
    | cons b rest =>
      obtain ⟨hname, hblank, hbar⟩ := hrest b rfl
      have hfeed (j : Nat) :
          ((s.noted e).switch (.shortcut .afterName)).feed o b j = ((after e).noted e).feed o b j := by
        rw [← State.land_eq_feed_of_mode hfinish (hplace e) hnext]
        change (if State.isInnerBlank b = true then _ else if (Bytes.char b == '|') = true then _ else _) = _
        rw [if_neg (Bool.eq_false_iff.1 hblank), if_neg (by simpa using hbar)]
        rfl
      exact readFrom_cons_congr (by nofun) (fun h => by cases (hplace e).symm.trans h) (hfeed _)
  cases blanks with
  | nil =>
    have hfinish := hends (.shortcut .name) s.nameEnd i
    cases rest with
    | nil => exact ⟨_, State.readFrom_nil_of_land?_of_mode hfinish (hplace i) hnext rfl⟩
    | cons b rest =>
      obtain ⟨hname, hblank, hbar⟩ := hrest b rfl
      refine ⟨i, readFrom_cons_congr (by nofun) (fun h => by cases (hplace i).symm.trans h) ?_⟩
      rw [← State.land_eq_feed_of_mode (hends (.shortcut .name) i i) (hplace i) hnext]
      change (if Bytes.isNameChar b = true then _ else if State.isInnerBlank b = true then _ else
        if (Bytes.char b == '|') = true then _ else _) = _
      rw [if_neg (Bool.eq_false_iff.1 hname), if_neg (Bool.eq_false_iff.1 hblank), if_neg (by simpa using hbar)]
      rfl
  | cons b blanks =>
    obtain ⟨hb, hblanks⟩ := List.forall_mem_cons.1 hblanks
    refine ⟨i, ?_⟩
    rw [List.cons_append, readFrom_cons (by nofun) (feed_blankAfterName hb), hafter blanks hblanks, List.length_cons,
      Nat.add_right_comm, Nat.add_assoc]

/-- **A shortcut begins**: outside notes in place of a sample, in notes in place of the value of a rule. -/
theorem feed_shortcut (hmode : s.mode = .between p) (hnext : p.afterValue? = some next) (hplain : o.plain = false) :
    s.feed o (Char.toUInt8 '@') i =
      .ok (s.inside next (if s.inNote then .typesShortcut else .mixedValue) i [] (.shortcut .mark)) := by
  have hnote : (s.wrap next i).inNote = s.inNote := by
    rw [State.inNote, State.inNote, State.note?, State.note?, State.wrap, List.findSome?_append]
    cases next <;> simp [Place.wrapper, NoteKind.ofConstruct?]
  rw [State.feed_eq_visit hmode (Place.afterValue?_spec hnext).2.2.1, State.visit_eq_token rfl rfl,
    State.token_eq_startValue hnext (by decide)]
  have hstart (s : State) : State.startValue o s next (Char.toUInt8 '@') i = .ok ((s.begin
      (if s.inNote then .typesShortcut else .mixedValue) i).interrupt (.shortcut .mark) next) := by
    rw [State.startValue, hplain]
    rfl
  rw [hstart, hnote]
  rfl

/-- **A shortcut is one token.**  Where a value may start, outside notes and in them, the names, the bars and the blanks
around the bars are one construct, which ends with the last name. -/
theorem readFrom_shortcut {names : List String} {blanks : Bytes} (h : Shortcut.IsWrittenAs names text)
    (hplain : o.plain = false) (hmode : s.mode = .between p) (hnext : p.afterValue? = some next)
    (hcontainer : s.opened.head?.map Prod.fst = p.container?)
    (hblanks : ∀ b ∈ blanks, State.isInnerBlank b = true) (hrest : EndsShortcut rest) :
    ∃ e, readFrom o s i (text ++ (blanks ++ rest)) =
      readFrom o ((s.past next (i + text.length) (wrapped next i (i + text.length)
        (enclosed (if s.inNote then .typesShortcut else .mixedValue) i (i + text.length) []))).noted e)
        (i + text.length + blanks.length) rest := by
  obtain ⟨tail, rfl, htail⟩ := readFrom_written (o := o) h
  obtain ⟨hfollows, hinside, hstart, hinline⟩ := Place.afterValue?_spec hnext
  have hne : s.mode ≠ .done := by
    rw [hmode]
    nofun
  generalize hconstruct : (if s.inNote then Construct.typesShortcut else Construct.mixedValue) = c
  have hfeed : s.feed o (Char.toUInt8 '@') i = .ok (s.inside next c i [] (.shortcut .mark)) :=
    hconstruct ▸ feed_shortcut hmode hnext hplain
  obtain ⟨e, he⟩ := htail (s.inside next c i [] (.shortcut .mark)) (i + 1) (blanks ++ rest)
  have hends (mode : Mode) (last stop : Nat) :
      (((s.inside next c i [] (.shortcut .mark)).noted e).noted last |>.switch mode).finishValue stop =
        .ok ((s.past next stop (wrapped next i stop (enclosed c i stop []))).noted last) := by
    have hnoted (next : Place) (stop last : Nat) (events : List Event) :
        (s.noted last).past next stop events = (s.past next stop events).noted last := by
      rw [State.past, State.past, State.settle, State.settle]
      split <;> simp_all [State.noted, State.told, State.switch]
    rw [← hnoted]
    exact State.finishValue_inside_of_container (s := s.noted last) hfollows (hcontainer.trans hinside.symm) c i stop []
      mode
  obtain ⟨e', he'⟩ :=
    readFrom_endOfShortcut (o := o) (i := i + 1 + tail.length) hends (fun _ => rfl) hinline hblanks hrest
  refine ⟨e', ?_⟩
  rw [List.cons_append, readFrom_cons hne hfeed]
  refine he.trans (he'.trans ?_)
  rw [List.length_cons, Nat.add_right_comm i, Nat.add_assoc i]

/-- **A document that is a shortcut** is one token. -/
theorem read_shortcut {names : List String} {blanks : Bytes} (h : Shortcut.IsWrittenAs names text)
    (hplain : o.plain = false) (hblanks : ∀ b ∈ blanks, State.isInnerBlank b = true) :
    read o (text ++ blanks) =
      ⟨enclosed .mixedValue 0 text.length [] ++ [⟨.endTop, text.length, text.length⟩], none⟩ := by
  obtain ⟨e, he⟩ := @readFrom_shortcut o {} .start .finish 0 text [] names blanks h hplain rfl rfl rfl hblanks nofun
  rw [List.append_nil] at he
  refine readFrom_start_eq_some_iff.1 (he.trans ?_)
  rw [readFrom_nil rfl]
  have hnote : ({} : State).inNote = false := rfl
  simp [State.past, State.noted, State.told, State.settle, State.switch, State.stop, State.events, State.emit, wrapped,
    Place.wrapper, enclosed, hnote]

end Scan

/-! ## The names of a token -/

theorem Utf8.toList_toText_of_lt {text : Bytes} (h : ∀ b ∈ text, b < 0x80) :
    text.toText.toList = text.map Bytes.char := by
  rw [Bytes.toText, Utf8.decodeLossy, Utf8.groups_of_lt h, String.toList_ofList, List.map_map]
  rfl

/-- The characters of ASCII text, byte by byte. -/
theorem Bytes.map_char_ofString {text : String} (h : ∀ c ∈ text.toList, c.toNat < 0x80) :
    (Bytes.ofString text).map char = text.toList := by
  rw [ofString, Utf8.encode_eq_map h, List.map_map]
  exact (List.map_congr_left fun c hc => char_toUInt8 (h c hc)).trans (List.map_id' _)

/-- The white space characters below `0x80`. -/
theorem isBlank_iff_of_lt {c : Char} (h : c.toNat < 0x80) :
    isBlank c = true ↔ 9 ≤ c.toNat ∧ c.toNat ≤ 0xD ∨ c.toNat = 0x20 := by
  have hblanks : blanks.ranges = [(9, 0xD), (0x20, 0x20), (0x85, 0x85), (0xA0, 0xA0), (0x1680, 0x1680),
      (0x2000, 0x200A), (0x2028, 0x2028), (0x2029, 0x2029), (0x202F, 0x202F), (0x205F, 0x205F), (0x3000, 0x3000)] := by
    decide +kernel
  rw [isBlank, CharSet.contains, hblanks]
  simp only [List.any_cons, List.any_nil, Bool.or_eq_true, Bool.and_eq_true, decide_eq_true_eq, Bool.false_eq_true,
    or_false]
  omega

/-- Blanks around a text are dropped. -/
theorem trimBoth_append {front middle back : List Char} (hfront : ∀ c ∈ front, isBlank c = true)
    (hmiddle : ∀ c ∈ middle, isBlank c = false) (hne : middle ≠ []) (hback : ∀ c ∈ back, isBlank c = true) :
    trimBoth (String.ofList (front ++ (middle ++ back))) = String.ofList middle := by
  have hdrop {front rest : List Char} (hfront : ∀ c ∈ front, isBlank c = true)
      (hrest : ∀ c ∈ rest.head?, isBlank c = false) : (front ++ rest).dropWhile isBlank = rest := by
    rw [List.dropWhile_append_of_pos hfront]
    cases rest with
    | nil => rfl
    | cons c rest => exact List.dropWhile_cons_of_neg (by simp [hrest c rfl])
  have hhead : ∀ c ∈ (middle ++ back).head?, isBlank c = false := by
    obtain ⟨c, rest, rfl⟩ := List.exists_cons_of_ne_nil hne
    exact fun d hd => hmiddle d (by simp_all)
  have hlast : ∀ c ∈ middle.reverse.head?, isBlank c = false := fun c hc =>
    hmiddle c (List.mem_reverse.1 (List.mem_of_mem_head? hc))
  rw [trimBoth, trimRight, String.toList_ofList, String.toList_ofList, hdrop hfront hhead, List.reverse_append,
    hdrop (fun c hc => hback c (List.mem_reverse.1 hc)) hlast, List.reverse_reverse]

namespace Shortcut

open Scan.State (isInnerBlank)

/-- A blank around a bar is ASCII and white space, and no bar. -/
theorem spec_of_isInnerBlank {b : UInt8} (h : isInnerBlank b = true) :
    b < 0x80 ∧ isBlank (Bytes.char b) = true ∧ Bytes.char b ≠ '|' := by
  obtain ⟨hspace, -⟩ := Bool.and_eq_true_iff.1 h
  unfold Bytes.isSpace at hspace
  split at hspace
  iterate 4
    next hb =>
      rw [Bytes.eq_of_char_eq hb]
      exact ⟨by decide, (isBlank_iff_of_lt (by decide)).2 (by decide), by decide⟩
  cases hspace

/-- A character of the name of a type is no white space and no bar. -/
theorem spec_of_mem_typeName {name : String} (h : isUserTypeName name = true) :
    ∀ c ∈ name.toList, isBlank c = false ∧ c ≠ '|' := by
  intro c hc
  obtain ⟨hlow, hhigh⟩ := toNat_of_mem_typeName h c hc
  refine ⟨Bool.eq_false_iff.2 fun hblank => ?_, fun hbar => by simp [hbar] at hhigh⟩
  rw [isBlank_iff_of_lt (hhigh.trans (by decide))] at hblank
  change 32 < _ at hlow
  omega

/-- A name between blanks is read as that name. -/
theorem trimBoth_name {name : String} (h : isUserTypeName name = true) {front back : Bytes}
    (hfront : ∀ b ∈ front, isInnerBlank b = true) (hback : ∀ b ∈ back, isInnerBlank b = true) :
    trimBoth (String.ofList (front.map Bytes.char ++ (name.toList ++ back.map Bytes.char))) = name := by
  have hblank {blanks : Bytes} (hblanks : ∀ b ∈ blanks, isInnerBlank b = true) :
      ∀ c ∈ blanks.map Bytes.char, isBlank c = true :=
    List.forall_mem_map.2 fun b hb => (spec_of_isInnerBlank (hblanks b hb)).2.1
  have hne : name.toList ≠ [] := by
    obtain ⟨rest, hname, -⟩ := exists_of_isUserTypeName h
    rw [hname]
    exact List.cons_ne_nil _ _
  rw [trimBoth_append (hblank hfront) (fun c hc => (spec_of_mem_typeName h c hc).1) hne (hblank hback),
    String.ofList_toList]

theorem IsWrittenAs.ne_nil {names : List String} {text : Bytes} (h : IsWrittenAs names text) : names ≠ [] := by
  cases h <;> exact List.cons_ne_nil _ _

/-- What is written as a shortcut is ASCII. -/
theorem IsWrittenAs.lt {names : List String} {text : Bytes} (h : IsWrittenAs names text) :
    ∀ b ∈ text, b < 0x80 := by
  have hlt {name : String} (hname : isUserTypeName name = true) : ∀ b ∈ Bytes.ofString name, b < 0x80 := by
    obtain ⟨rest, htext, -, hall⟩ := isKeyShortcut_ofString hname
    rw [htext]
    exact List.forall_mem_cons.2 ⟨by decide, fun b hb => Bytes.lt_of_isNameChar (hall b hb)⟩
  induction h with
  | one hname => exact hlt hname
  | more hname hbefore hafter hrest ih =>
    intro b hb
    simp only [List.mem_append, List.mem_cons] at hb
    rcases hb with hb | hb | rfl | hb | hb
    · exact hlt hname b hb
    · exact (spec_of_isInnerBlank (hbefore b hb)).1
    · decide
    · exact (spec_of_isInnerBlank (hafter b hb)).1
    · exact ih b hb

/-- **The names stand between the bars**, behind some blanks that a bar has left. -/
theorem IsWrittenAs.mapM_splitOn {names : List String} {text : Bytes} (h : IsWrittenAs names text)
    {name? : List Char → Outcome String}
    (hname? : ∀ name, isUserTypeName name = true → ∀ part, trimBoth (String.ofList part) = name →
      name? part = .ok name)
    (front : Bytes) (hfront : ∀ b ∈ front, isInnerBlank b = true) :
    (((front ++ text).map Bytes.char).splitOn '|').mapM name? = .ok names := by
  have hpart {name : String} (hname : isUserTypeName name = true) {front back : Bytes}
      (hfront : ∀ b ∈ front, isInnerBlank b = true) (hback : ∀ b ∈ back, isInnerBlank b = true) :
      '|' ∉ (front ++ (Bytes.ofString name ++ back)).map Bytes.char ∧
        name? ((front ++ (Bytes.ofString name ++ back)).map Bytes.char) = .ok name := by
    rw [List.map_append, List.map_append, Bytes.map_char_ofString (toNat_lt_of_mem_typeName hname)]
    refine ⟨fun hbar => ?_, hname? name hname _ (trimBoth_name hname hfront hback)⟩
    simp only [List.mem_append, List.mem_map] at hbar
    rcases hbar with ⟨b, hb, hbar⟩ | hbar | ⟨b, hb, hbar⟩
    · exact (spec_of_isInnerBlank (hfront b hb)).2.2 hbar
    · exact (spec_of_mem_typeName hname _ hbar).2 rfl
    · exact (spec_of_isInnerBlank (hback b hb)).2.2 hbar
  induction h generalizing front with
  | @one name hname =>
    obtain ⟨hbar, hread⟩ := hpart hname hfront (List.forall_mem_nil _)
    rw [List.append_nil] at hbar hread
    rw [List.splitOn_eq_singleton hbar, List.mapM_cons, hread]
    rfl
  | @more name names before after rest hname hbefore hafter hrest ih =>
    obtain ⟨hbar, hread⟩ := hpart hname hfront hbefore
    have htext : (front ++ (Bytes.ofString name ++ (before ++ Char.toUInt8 '|' :: (after ++ rest)))).map Bytes.char =
        (front ++ (Bytes.ofString name ++ before)).map Bytes.char ++ '|' :: (after ++ rest).map Bytes.char := by
      simp [show Bytes.char (Char.toUInt8 '|') = '|' from rfl]
    rw [htext, List.splitOn_append_cons_self_of_not_mem hbar, List.mapM_cons, hread, Except.ok_bind, ih _ hafter]
    rfl

/-- **The names can be read off the token.** -/
theorem names_eq_ok {mark : Mark} {names : List String} (h : IsWrittenAs names mark.bytes) :
    Shortcut.names mark = .ok names := by
  rw [Shortcut.names, Mark.text, Utf8.toList_toText_of_lt h.lt]
  refine h.mapM_splitOn (fun name hname part hpart => ?_) [] (List.forall_mem_nil _)
  dsimp only
  rw [hpart, if_pos hname]

end Shortcut
end ExampleSchema
