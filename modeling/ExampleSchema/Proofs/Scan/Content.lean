import ExampleSchema.Proofs.Json.Events

/-!
# What the events of a scan are about

Three things that hold of the events of every scan, whatever is read and whether or not it fails.  An event
that closes a literal spans a literal of the grammar, one that closes the name of a property that is written as a
type spans the sign and a name, and at no moment are more containers open than the limit.

* `Construct.IsSpelledBy`: what the bytes of a literal and of the name of a type are.
* `Mode.Spells`, `Mode.Names`: what has been read of them, given the mode that it has led to.
* `Reported`: what holds of the events so far.
* `Spelling`: what every state satisfies: no literal and no such name is open, or one is that is opened last.
* `State.feed_leads`, `State.conclude_stays`: a byte and the end of the document keep it.
* `isLiteral_of_mem_read`, `isKeyShortcut_of_mem_read`, `opens_le_of_read`: what this says of a whole scan.
-/

namespace ExampleSchema

/-- A byte more. -/
theorem Bytes.slice_succ {text : Bytes} {b : UInt8} {start i : Nat} (hle : start ≤ i)
    (hb : text[i]? = some b) : text.slice start (i + 1) = text.slice start i ++ [b] := by
  have hdrop : (text.drop start)[i - start]? = some b := by
    rw [List.getElem?_drop, Nat.add_sub_cancel' hle, hb]
  rw [slice, slice, Nat.sub_add_comm hle, List.take_add_one, hdrop]
  rfl

@[simp] theorem Bytes.slice_self (text : Bytes) (start : Nat) : text.slice start start = [] := by
  rw [slice, Nat.sub_self, List.take_zero]

/-- The name of a property that is written as a type: the sign and a name. -/
def IsKeyShortcut (part : Bytes) : Prop :=
  ∃ name, part = Char.toUInt8 '@' :: name ∧ name ≠ [] ∧ ∀ b ∈ name, Bytes.isNameChar b = true

/-- A character of a name is one byte. -/
theorem Bytes.lt_of_isNameChar {b : UInt8} (h : isNameChar b = true) : b < 0x80 := by
  refine Classical.byContradiction fun hle => ?_
  have hhigh : 0x80 ≤ (char b).toNat := by
    change 0x80 ≤ (UInt8.toUInt32 b).toNat
    rw [UInt8.toNat_toUInt32]
    exact Nat.not_lt.1 hle
  have hne : ∀ c : Char, c.toNat < 0x80 → char b ≠ c := by
    rintro c hc rfl
    omega
  simp only [isNameChar, Bool.or_eq_true, beq_iff_eq, hne _ (by decide : '_'.toNat < 0x80),
    hne _ (by decide : '-'.toNat < 0x80), or_false] at h
  delta Char.isAlphanum Char.isAlpha Char.isUpper Char.isLower Char.isDigit at h
  simp only [Bool.or_eq_true, Bool.and_eq_true, decide_eq_true_eq, ge_iff_le, UInt32.le_iff_toNat_le] at h
  have hlast : 'Z'.val.toNat = 90 ∧ 'z'.val.toNat = 122 ∧ '9'.val.toNat = 57 := ⟨rfl, rfl, rfl⟩
  change 0x80 ≤ (char b).val.toNat at hhigh
  omega

/-- Bytes that are characters by themselves. -/
theorem Utf8.groups_of_lt {text : Bytes} (h : ∀ b ∈ text, b < 0x80) :
    groups text = text.map fun b => some (Bytes.char b) := by
  induction text with
  | nil => exact groups_nil
  | cons b rest ih =>
    obtain ⟨hb, hrest⟩ := List.forall_mem_cons.1 h
    rw [groups_cons, next, if_pos hb, ih hrest, List.map_cons]

/-- Such a name is the name of a type. -/
theorem IsKeyShortcut.isUserTypeName {part : Bytes} (h : IsKeyShortcut part) :
    isUserTypeName part.toText = true := by
  obtain ⟨name, rfl, hne, hall⟩ := h
  have hlt : ∀ b ∈ Char.toUInt8 '@' :: name, b < 0x80 :=
    List.forall_mem_cons.2 ⟨by decide, fun b hb => Bytes.lt_of_isNameChar (hall b hb)⟩
  have hchars : (Bytes.toText (Char.toUInt8 '@' :: name)).toList = '@' :: name.map Bytes.char := by
    rw [Bytes.toText, Utf8.decodeLossy, Utf8.groups_of_lt hlt, String.toList_ofList, List.map_map]
    rfl
  unfold ExampleSchema.isUserTypeName
  rw [hchars]
  simpa [hne, List.all_eq_true, Bytes.isNameChar] using hall

/-- The construct is one whose bytes are looked at here. -/
def Construct.isSpelled : Construct → Bool
  | .literal | .keyShortcut => true
  | _ => false

/-- What the bytes of a construct are, as far as they are looked at. -/
def Construct.IsSpelledBy (c : Construct) (part : Bytes) : Prop :=
  match c with
  | .literal => IsLiteral part
  | .keyShortcut => IsKeyShortcut part
  | _ => True

theorem Construct.isSpelledBy_of_not {c : Construct} (h : c.isSpelled = false) (part : Bytes) : c.IsSpelledBy part := by
  cases c <;> trivial

namespace Scan

/-! ## Literals and names in part -/

/-- What has been read of a literal, given the mode that it has led to: with whatever may follow in that
mode it is a literal. -/
def Mode.Spells (mode : Mode) (part : Bytes) : Prop :=
  match mode with
  | .string => ∀ tail, IsStringTail tail → IsLiteral (part ++ tail)
  | .escape => ∃ before, part = before ++ [Char.toUInt8 '\\'] ∧
      ∀ tail, IsStringTail tail → IsLiteral (before ++ tail)
  | .unicode count => ∃ before digits,
      part = before ++ Char.toUInt8 '\\' :: Char.toUInt8 'u' :: digits ∧
      digits.length = count ∧ count < 4 ∧ (∀ b ∈ digits, Bytes.isHexDigit b = true) ∧
      ∀ tail, IsStringTail tail → IsLiteral (before ++ tail)
  | .number last => ∀ tail, last.Completes tail → IsLiteral (part ++ tail)
  | .keyword _ next more => IsLiteral (part ++ next :: more)
  | _ => False

/-- What has been read of the name of a property that is written as a type. -/
def Mode.Names (mode : Mode) (part : Bytes) : Prop :=
  match mode with
  | .keyMark => part = [Char.toUInt8 '@']
  | .keyName => IsKeyShortcut part
  | _ => False

/-- A byte that begins a literal leads to a mode in which it has been read. -/
theorem spells_of_literalMode? {b : UInt8} {mode : Mode} (h : literalMode? b = some mode) :
    mode.Spells [b] := by
  have hfinishes : ∀ tail, mode.Finishes tail → IsLiteral ([b] ++ tail) := fun tail htail =>
    isLiteral_of_literalMode? h htail
  unfold literalMode? at h
  split at h
  · cases h
    exact hfinishes
  · cases h
    exact hfinishes
  · cases h
    exact hfinishes
  iterate 3
    · cases h
      exact hfinishes _ rfl
  · split at h
    · cases h
      exact hfinishes
    · cases h

/-! ## What has been reported -/

/-- How many containers some events open. -/
def opens (events : List Event) : Nat :=
  events.countP fun e => match e.kind with
    | .opening c => c.isContainer
    | _ => false

/-- How many containers some events close. -/
def closes (events : List Event) : Nat :=
  events.countP fun e => match e.kind with
    | .closing c => c.isContainer
    | _ => false

@[simp] theorem opens_cons (e : Event) (events : List Event) : opens (e :: events) =
    opens events + if (match e.kind with
      | .opening c => c.isContainer
      | _ => false) then 1 else 0 := List.countP_cons

@[simp] theorem closes_cons (e : Event) (events : List Event) : closes (e :: events) =
    closes events + if (match e.kind with
      | .closing c => c.isContainer
      | _ => false) then 1 else 0 := List.countP_cons

/-- The events so far: literals are literals of the grammar, names that are types are such names, and containers
nest no deeper than they may. -/
structure Reported (text : Bytes) (s : State) : Prop where
  spelled : ∀ e ∈ s.emitted, ∀ c, e.kind = .closing c → c.IsSpelledBy (text.slice e.start e.stop)
  depth_eq : opens s.emitted = closes s.emitted + s.depth
  shallow : ∀ earlier, earlier <:+ s.emitted → opens earlier ≤ closes earlier + maxDepth

/-- No literal is open, and no name that is a type. -/
structure Quiet (text : Bytes) (s : State) : Prop extends Reported text s where
  quiet : ∀ o ∈ s.opened, o.1.isSpelled = false

/-- **What every state satisfies** before the byte at offset `i`: no literal is open and no name that is a type, or
one is, which was opened last and has been read in part. -/
inductive Spelling (text : Bytes) (i : Nat) (s : State) : Prop
  | between (h : Quiet text s)
  | within (h : Reported text s) {start : Nat} {rest : List (Construct × Nat)}
      (hopened : s.opened = (.literal, start) :: rest) (hrest : ∀ o ∈ rest, o.1.isSpelled = false)
      (hle : start ≤ i) (hmode : s.mode.Spells (text.slice start i))
  | naming (h : Reported text s) {start : Nat} {rest : List (Construct × Nat)}
      (hopened : s.opened = (.keyShortcut, start) :: rest) (hrest : ∀ o ∈ rest, o.1.isSpelled = false)
      (hle : start ≤ i) (hmode : s.mode.Names (text.slice start i))

theorem Spelling.reported {text : Bytes} {i : Nat} {s : State} (h : Spelling text i s) : Reported text s := by
  cases h with
  | between h => exact h.toReported
  | within h | naming h => exact h

/-- A step leads to such a state or fails. -/
def Leads (text : Bytes) (i : Nat) (x : Verdict State) : Prop :=
  x.Meets (Spelling text i) fun _ => True

/-- A step leads to a state in which no literal and no name that is a type is open, or fails. -/
def Stays (text : Bytes) (x : Verdict State) : Prop := x.Meets (Quiet text) fun _ => True

variable {text : Bytes} {o : Options} {s s' : State} {b : UInt8} {i stop : Nat} {x : Verdict State}

theorem Stays.leads (h : Stays text x) (i : Nat) : Leads text i x :=
  h.imp (fun _ => .between) fun _ => id

theorem Stays.bind {f : State → Verdict State} (h : Stays text x)
    (hf : ∀ s, Quiet text s → Stays text (f s)) : Stays text (x >>= f) := Except.Meets.bind h hf

/-- Only the open constructs and the events count. -/
theorem Quiet.of_eq (h : Quiet text s) (hopened : s'.opened = s.opened)
    (hemitted : s'.emitted = s.emitted) : Quiet text s' := by
  refine ⟨⟨?_, ?_, ?_⟩, ?_⟩
  · rw [hemitted]
    exact h.spelled
  · rw [hemitted, h.depth_eq, State.depth, State.depth, hopened]
  · rw [hemitted]
    exact h.shallow
  · rw [hopened]
    exact h.quiet

/-- An event that leaves no more open than may be. -/
theorem Reported.emit (h : Reported text s) {e : Event} (hemitted : s'.emitted = e :: s.emitted)
    (hspelled : ∀ c, e.kind = .closing c → c.IsSpelledBy (text.slice e.start e.stop))
    (hdepth : opens s'.emitted = closes s'.emitted + s'.depth) (hle : s'.depth ≤ maxDepth) :
    Reported text s' := by
  refine ⟨?_, hdepth, fun earlier hearlier => ?_⟩
  · rw [hemitted, List.forall_mem_cons]
    exact ⟨hspelled, h.spelled⟩
  · rw [hemitted] at hearlier
    rcases List.suffix_cons_iff.1 hearlier with rfl | hearlier
    · rw [← hemitted, hdepth]
      exact Nat.add_le_add_left hle _
    · exact h.shallow earlier hearlier

theorem Reported.depth_le (h : Reported text s) : s.depth ≤ maxDepth := by
  have hall := h.shallow s.emitted List.suffix_rfl
  rw [h.depth_eq] at hall
  omega

namespace State

/-! ## Opening and closing -/

theorem reported_begin (h : Reported text s) {c : Construct}
    (hc : c.isContainer = true → s.depth < maxDepth) (start : Nat) :
    Reported text (s.begin c start) := by
  have hdepth : (s.begin c start).depth = s.depth + if c.isContainer then 1 else 0 :=
    List.countP_cons
  refine h.emit rfl nofun ?_ ?_
  · change opens (⟨.opening c, start, start⟩ :: s.emitted) =
      closes (⟨.opening c, start, start⟩ :: s.emitted) + _
    rw [hdepth, opens_cons, closes_cons, h.depth_eq]
    simp [Nat.add_assoc]
  · have hle := h.depth_le
    rw [hdepth]
    split
    · next hcontainer => exact hc hcontainer
    · exact hle

theorem quiet_begin (h : Quiet text s) {c : Construct} (hquiet : c.isSpelled = false)
    (hc : c.isContainer = true → s.depth < maxDepth) (start : Nat) : Quiet text (s.begin c start) :=
  ⟨reported_begin h.toReported hc start, List.forall_mem_cons.2 ⟨hquiet, h.quiet⟩⟩

theorem quiet_newLine (h : Quiet text s) (i : Nat) : Quiet text (s.emit .newLine i (i + 1)) := by
  refine ⟨h.toReported.emit rfl nofun ?_ h.depth_le, h.quiet⟩
  change opens (⟨.newLine, i, i + 1⟩ :: s.emitted) =
    closes (⟨.newLine, i, i + 1⟩ :: s.emitted) + s.depth
  rw [opens_cons, closes_cons, h.depth_eq]
  simp

/-- What is opened last is closed; a literal has to be one, and so does a name that is a type. -/
theorem reported_close (h : Reported text s) {c : Construct} {start : Nat}
    {rest : List (Construct × Nat)} (hopened : s.opened = (c, start) :: rest)
    (stop : Nat) (hspelled : c.IsSpelledBy (text.slice start stop)) :
    s.close stop = .ok ({ s with opened := rest }.emit (.closing c) start stop) ∧
      Reported text ({ s with opened := rest }.emit (.closing c) start stop) := by
  have hdepth : s.depth = State.depth { s with opened := rest } + if c.isContainer then 1 else 0 := by
    rw [depth, hopened]
    exact List.countP_cons
  refine ⟨by rw [close, hopened], h.emit rfl ?_ ?_ ?_⟩
  · intro c' hkind
    obtain rfl := EventKind.closing.inj hkind
    exact hspelled
  · change opens (⟨.closing c, start, stop⟩ :: s.emitted) =
      closes (⟨.closing c, start, stop⟩ :: s.emitted) + State.depth { s with opened := rest }
    rw [opens_cons, closes_cons, h.depth_eq, hdepth]
    simp only [Bool.false_eq_true, if_false]
    omega
  · have hle := h.depth_le
    change State.depth { s with opened := rest } ≤ maxDepth
    omega

theorem close_stays (h : Quiet text s) (stop : Nat) : Stays text (s.close stop) := by
  cases hopened : s.opened with
  | nil =>
    rw [close, hopened]
    trivial
  | cons o rest =>
    obtain ⟨c, start⟩ := o
    have hquiet := h.quiet
    rw [hopened, List.forall_mem_cons] at hquiet
    obtain ⟨hclose, hreported⟩ :=
      reported_close h.toReported hopened stop (Construct.isSpelledBy_of_not hquiet.1 _)
    rw [hclose]
    exact ⟨hreported, hquiet.2⟩

theorem closeIf_stays (h : Quiet text s) (select : Construct → Bool) (stop : Nat) :
    Stays text (s.closeIf select stop) := by
  rw [closeIf]
  split
  · split
    · exact close_stays h stop
    · exact h
  · exact h

theorem quiet_settle (h : Quiet text s) (stop : Nat) : Quiet text (s.settle stop) := by
  rw [settle]
  split
  · exact h.of_eq rfl rfl
  · exact h

theorem endValue_stays (h : Quiet text s) (stop : Nat) : Stays text (s.endValue stop) :=
  (close_stays h stop).bind fun _ h => (closeIf_stays h _ stop).bind fun _ h => quiet_settle h stop

theorem closeNote_stays (h : Quiet text s) (stop : Nat) : Stays text (s.closeNote stop) :=
  (closeIf_stays h _ _).bind fun _ h => (close_stays h stop).bind fun _ h => quiet_settle h stop

theorem resumeNext_stays (h : Quiet text s) : Stays text s.resumeNext := by
  rw [resumeNext]
  split
  · trivial
  · exact h.of_eq rfl rfl

theorem finishValue_stays (h : Quiet text s) (stop : Nat) : Stays text (s.finishValue stop) :=
  (endValue_stays h stop).bind fun _ => resumeNext_stays

theorem finishNote_stays (h : Quiet text s) (stop : Nat) : Stays text (s.finishNote stop) :=
  (closeNote_stays h stop).bind fun _ => resumeNext_stays

/-- A literal, or a name that is a type, ends with what wraps it. -/
theorem endValue_stays_of_spelled (h : Reported text s) {c : Construct} {start : Nat} {rest : List (Construct × Nat)}
    (hopened : s.opened = (c, start) :: rest) (hrest : ∀ o ∈ rest, o.1.isSpelled = false)
    (hspelled : c.IsSpelledBy (text.slice start stop)) : Stays text (s.endValue stop) := by
  obtain ⟨hclose, hreported⟩ := reported_close h hopened stop hspelled
  have hquiet : Stays text (s.close stop) := by
    rw [hclose]
    exact ⟨hreported, hrest⟩
  exact hquiet.bind fun _ h => (closeIf_stays h _ stop).bind fun _ h => quiet_settle h stop

/-! ## Between tokens -/

theorem switch_stays (h : Quiet text s) (mode : Mode) : Stays text (.ok (s.switch mode)) :=
  h.of_eq rfl rfl

theorem skipBlank_stays (h : Quiet text s) : Stays text (s.skipBlank b i) := by
  rw [skipBlank]
  split
  · split
    · exact quiet_newLine h i
    · exact h
    · trivial
  · exact h

theorem openContainer_stays (h : Quiet text s) {c : Construct} (hc : c.isSpelled = false)
    (inside next : Place) : Stays text (s.openContainer c inside next i) := by
  rw [openContainer]
  split
  · next hdepth => exact (quiet_begin h hc (fun _ => hdepth) i).of_eq rfl rfl
  · trivial

/-- A literal begins. -/
theorem literal_leads (h : Quiet text s) (hb : text[i]? = some b) {mode : Mode}
    (hmode : literalMode? b = some mode) (next : Place) :
    Leads text (i + 1) (.ok ((s.begin .literal i).interrupt mode next)) := by
  have hreported := reported_begin h.toReported (c := .literal) nofun i
  have hreported : Reported text ((s.begin .literal i).interrupt mode next) :=
    ⟨hreported.spelled, hreported.depth_eq, hreported.shallow⟩
  refine .within hreported rfl h.quiet (Nat.le_succ i) ?_
  rw [Bytes.slice_succ (Nat.le_refl i) hb, Bytes.slice_self]
  exact spells_of_literalMode? hmode

theorem startValue_leads (h : Quiet text s) (hb : text[i]? = some b) (next : Place) :
    Leads text (i + 1) (startValue o s next b i) := by
  cases hmode : literalMode? b with
  | some mode =>
    rw [(@literalMode?_spec o next i _ _ hmode).2.2.2 s]
    exact literal_leads h hb hmode next
  | none =>
    refine Stays.leads ?_ _
    unfold startValue
    split
    · exact openContainer_stays h (c := .object) rfl _ _
    · exact openContainer_stays h (c := .array) rfl _ _
    iterate 6
      next hchar =>
        rw [literalMode?, hchar] at hmode
        cases hmode
    · split
      · next hdigit =>
        unfold literalMode? at hmode
        split at hmode
        iterate 6 cases hmode
        · rw [if_pos hdigit] at hmode
          cases hmode
      · split
        · refine (quiet_begin h ?_ ?_ i).of_eq rfl rfl
          · split <;> rfl
          · split <;> nofun
        · trivial

theorem startKey_leads (h : Quiet text s) (hb : text[i]? = some b) : Leads text (i + 1) (startKey o s b i) := by
  have hkey : Quiet text (s.begin .objectKey i) := quiet_begin h (c := .objectKey) rfl nofun i
  unfold startKey
  split
  · exact .between (hkey.of_eq rfl rfl)
  split
  · split
    · trivial
    split
    · exact .between (hkey.of_eq rfl rfl)
    · trivial
  split
  · next hmark =>
    have hreported := reported_begin hkey.toReported (c := .keyShortcut) nofun i
    refine .naming ⟨hreported.spelled, hreported.depth_eq, hreported.shallow⟩ rfl hkey.quiet (Nat.le_succ i) ?_
    rw [Bytes.slice_succ (Nat.le_refl i) hb, Bytes.slice_self]
    exact congrArg (fun b => [b]) (Bytes.eq_of_char_eq (by simpa using (Bool.and_eq_true_iff.1 hmark).1))
  · trivial

theorem stop_quiet (h : Quiet text s) : Quiet text s.stop := by
  refine ⟨h.toReported.emit rfl nofun ?_ h.depth_le, h.quiet⟩
  change opens (⟨.endTop, s.valueEnd, s.valueEnd⟩ :: s.emitted) =
    closes (⟨.endTop, s.valueEnd, s.valueEnd⟩ :: s.emitted) + s.depth
  rw [opens_cons, closes_cons, h.depth_eq]
  simp

theorem token_leads (h : Quiet text s) (hb : text[i]? = some b) (place : Place) :
    Leads text (i + 1) (s.token o place b i) := by
  have hswitch : ∀ mode, Leads text (i + 1) (.ok (s.switch mode)) := fun mode =>
    (switch_stays h mode).leads _
  have hend := (finishValue_stays h (i + 1)).leads (i + 1)
  have hitem := startValue_leads (o := o) (quiet_begin h (c := .arrayItem) rfl nofun i) hb .arrayNext
  have hkey := startKey_leads (o := o) h hb
  unfold token
  split
  · exact startValue_leads h hb _
  · split
    · exact .between (stop_quiet h)
    · trivial
  · exact hend
  · exact hkey
  · trivial
  · exact hkey
  · exact hswitch _
  · trivial
  · exact startValue_leads (quiet_begin h (c := .objectValue) rfl nofun i) hb _
  · exact hswitch _
  · exact hend
  · trivial
  · exact hend
  · exact hitem
  · trivial
  · exact hitem
  · exact hswitch _
  · exact hend
  · trivial
  · exact hswitch _
  · trivial
  · exact hswitch _
  · exact hswitch _
  · trivial

theorem visit_leads (h : Quiet text s) (hb : text[i]? = some b) (place : Place) :
    Leads text (i + 1) (s.visit o place b i) := by
  rw [visit]
  split
  · exact (skipBlank_stays h).leads _
  split
  · split
    · exact .between (h.of_eq rfl rfl)
    · exact token_leads h hb place
  · exact token_leads h hb place

/-- Handing a byte to the places to resume. -/
theorem land_leads (h : Quiet text s) (hb : text[i]? = some b) (places : List Place) :
    Leads text (i + 1) (land o b i places s) := by
  induction places generalizing s with
  | nil => trivial
  | cons place rest ih =>
    rw [land]
    split
    · exact Except.Meets.bind (closeNote_stays h i) fun _ h => ih h
    · have hplace : Quiet text { s with mode := .between place, resume := rest } := h.of_eq rfl rfl
      exact visit_leads hplace hb place

theorem endValue_land_leads (h : Stays text (s.endValue stop)) (hb : text[i]? = some b) :
    Leads text (i + 1) (do land o b i s.resume (← s.endValue stop)) :=
  Except.Meets.bind h fun _ h => land_leads h hb _

/-! ## Where neither is open -/

theorem feedShortcut_leads (h : Quiet text s) (hb : text[i]? = some b) (part : ShortcutPart) :
    Leads text (i + 1) (s.feedShortcut o part b i) := by
  have hswitch : ∀ mode, Leads text (i + 1) (.ok (s.switch mode)) := fun mode =>
    (switch_stays h mode).leads _
  have hstay : Leads text (i + 1) (.ok s) := .between h
  have hafter : ∀ s, Quiet text s → Leads text (i + 1) (feedShortcut.afterName o b i s) := by
    intro s h
    unfold feedShortcut.afterName
    split
    · exact (switch_stays h _).leads _
    split
    · exact (switch_stays h _).leads _
    · exact endValue_land_leads (endValue_stays h _) hb
  unfold feedShortcut
  split
  · split
    · exact hswitch _
    · trivial
  · split
    · exact hstay
    · exact hafter _ (h.of_eq rfl rfl)
  · exact hafter _ h
  · split
    · exact hstay
    split
    · exact hswitch _
    · trivial

theorem feedName_leads (h : Quiet text s) (hb : text[i]? = some b) :
    Leads text (i + 1) (s.feedName o b i) := by
  unfold feedName
  split
  · exact .between h
  · exact endValue_land_leads (endValue_stays h _) hb

theorem feedCommentStart_stays (h : Quiet text s) : Stays text (s.feedCommentStart b i) := by
  unfold feedCommentStart
  split
  · exact (quiet_begin h (c := .inlineNote) rfl nofun _).of_eq rfl rfl
  · exact (quiet_begin h (c := .blockNote) rfl nofun _).of_eq rfl rfl
  · trivial

theorem feedLineComment_leads (h : Quiet text s) (hb : text[i]? = some b) :
    Leads text (i + 1) (s.feedLineComment o b i) := by
  unfold feedLineComment
  split
  · exact land_leads h hb _
  · exact (switch_stays h _).leads _

theorem feedBlockComment_stays (h : Quiet text s) (hashes : Nat) :
    Stays text (s.feedBlockComment hashes b i) := by
  unfold feedBlockComment
  split
  · split
    · exact resumeNext_stays h
    · exact switch_stays h _
  · exact switch_stays (quiet_newLine h i) _
  · exact switch_stays h _

theorem feedHashes_leads (h : Quiet text s) (hb : text[i]? = some b) (count : Nat) :
    Leads text (i + 1) (s.feedHashes o count b i) := by
  unfold feedHashes
  split
  · exact (switch_stays h _).leads _
  split
  · exact (feedBlockComment_stays h 0).leads _
  · exact feedLineComment_leads h hb

theorem quiet_beginText (h : Quiet text s) (kind : NoteKind) (start : Nat) :
    Quiet text (s.beginText kind start) := by
  have hkind : kind.textConstruct.isSpelled = false ∧ kind.textConstruct.isContainer = false := by
    cases kind <;> exact ⟨rfl, rfl⟩
  refine (quiet_begin h hkind.1 (fun hc => ?_) start).of_eq rfl rfl
  rw [hkind.2] at hc
  cases hc

theorem feedInline_leads (h : Quiet text s) (hb : text[i]? = some b) :
    Leads text (i + 1) (s.feedInline o b i) := by
  unfold feedInline
  split
  · exact Except.Meets.bind (closeNote_stays h i) fun _ h => land_leads h hb _
  · refine Stays.leads ?_ _
    split
    · exact h.of_eq rfl rfl
    · exact openContainer_stays h (c := .object) rfl _ _
    · exact switch_stays h _
    · split
      · exact h
      · exact (quiet_beginText h .inline i).of_eq rfl rfl

theorem quiet_feedBlockText (h : Quiet text s) : Quiet text (s.feedBlockText b i) := by
  unfold feedBlockText
  split
  · exact h.of_eq rfl rfl
  · exact h.of_eq rfl rfl

theorem feedBlockTextStar_stays (h : Quiet text s) : Stays text (s.feedBlockTextStar b i) := by
  unfold feedBlockTextStar
  split
  · exact finishNote_stays h _
  · exact h.of_eq rfl rfl
  · exact quiet_feedBlockText (h.of_eq rfl rfl)

theorem feedBlockStartStar_stays (h : Quiet text s) : Stays text (s.feedBlockStartStar b i) := by
  unfold feedBlockStartStar
  split
  · exact finishNote_stays h _
  · exact quiet_feedBlockText ((quiet_beginText h .block (i - 1)).of_eq rfl rfl)

theorem feedBlockStart_stays (h : Quiet text s) : Stays text (s.feedBlockStart b i) := by
  unfold feedBlockStart
  split
  · exact openContainer_stays h (c := .object) rfl _ _
  · exact switch_stays h _
  · exact switch_stays h _
  · split
    · exact h
    · exact quiet_feedBlockText (quiet_beginText h .block i)

/-- What is read where no literal and no name that is a type is open: a name, a shortcut, a comment, or a token. -/
theorem feed_leads_of_quiet (h : Quiet text s) (hb : text[i]? = some b) :
    Leads text (i + 1) (s.feed o b i) := by
  have hswitch : ∀ mode, Leads text (i + 1) (.ok (s.switch mode)) := fun mode =>
    (switch_stays h mode).leads _
  unfold feed
  split
  case h_1 => exact land_leads h hb _
  case h_2 => exact .between h
  case h_3 =>
    unfold feedString
    split
    · exact (finishValue_stays h _).leads _
    · exact hswitch _
    · split
      · trivial
      · exact .between h
  case h_4 =>
    unfold feedEscape
    split
    iterate 9 exact hswitch _
    · trivial
  case h_5 =>
    unfold feedUnicode
    split
    · exact hswitch _
    · trivial
  case h_6 =>
    unfold feedNumber
    split
    · exact hswitch _
    · trivial
    · exact endValue_land_leads (endValue_stays h _) hb
  case h_7 =>
    unfold feedKeyword
    split
    · split
      · exact (finishValue_stays h _).leads _
      · exact hswitch _
    · trivial
  case h_8 => exact feedShortcut_leads h hb _
  case h_9 | h_10 => exact feedName_leads h hb
  case h_11 =>
    unfold feedKeyMark
    split
    · exact hswitch _
    · trivial
  case h_12 => exact (feedCommentStart_stays h).leads _
  case h_13 => exact feedHashes_leads h hb _
  case h_14 => exact feedLineComment_leads h hb
  case h_15 => exact (feedBlockComment_stays h _).leads _
  case h_16 | h_17 | h_18 => exact feedInline_leads h hb
  case h_19 | h_20 => exact (feedBlockStart_stays h).leads _
  case h_21 => exact (feedBlockStartStar_stays h).leads _
  case h_22 => exact .between (quiet_feedBlockText h)
  case h_23 => exact (feedBlockTextStar_stays h).leads _
  case h_24 =>
    unfold feedBlockAfterRulesStar
    split
    · exact (finishNote_stays h _).leads _
    · trivial

/-! ## Inside a literal -/

section

variable (h : Reported text s) {start : Nat} {rest : List (Construct × Nat)}
  (hopened : s.opened = (.literal, start) :: rest) (hrest : ∀ o ∈ rest, o.1.isSpelled = false)
include h hopened hrest

/-- A literal is read on. -/
theorem switch_leads (hle : start ≤ i) {mode : Mode} (hmode : mode.Spells (text.slice start i)) :
    Leads text i (.ok (s.switch mode)) :=
  .within (s := s.switch mode) ⟨h.spelled, h.depth_eq, h.shallow⟩ hopened hrest hle hmode

/-- A literal ends. -/
theorem finishValue_leads (hliteral : IsLiteral (text.slice start stop)) :
    Leads text i (s.finishValue stop) :=
  ((endValue_stays_of_spelled h hopened hrest hliteral).bind fun _ => resumeNext_stays).leads i

variable (hle : start ≤ i) (hb : text[i]? = some b)
include hle hb

theorem feedString_leads (hmode : s.mode = .string)
    (hspells : Mode.string.Spells (text.slice start i)) :
    Leads text (i + 1) (s.feedString b i) := by
  have hsucc := Bytes.slice_succ hle hb
  have hle' := Nat.le_succ_of_le hle
  unfold feedString
  split
  · next hquote =>
    obtain rfl := Bytes.eq_of_char_eq hquote
    refine finishValue_leads h hopened hrest ?_
    rw [hsucc]
    exact hspells _ .close
  · next hescape =>
    obtain rfl := Bytes.eq_of_char_eq hescape
    exact switch_leads h hopened hrest hle' ⟨_, hsucc, hspells⟩
  · next hquote hescape =>
    split
    · trivial
    · next hcontrol =>
      refine .within h hopened hrest hle' ?_
      rw [hmode, hsucc]
      intro tail htail
      rw [List.append_assoc]
      exact hspells _ (.plain hquote hescape (Nat.not_lt.1 hcontrol) htail)

theorem feedEscape_leads (hspells : Mode.escape.Spells (text.slice start i)) :
    Leads text (i + 1) (s.feedEscape b) := by
  obtain ⟨before, hpart, hbefore⟩ := hspells
  have hsucc := Bytes.slice_succ hle hb
  have hle' := Nat.le_succ_of_le hle
  have hletter : Bytes.char b ∈ ['"', '\\', '/', 'b', 'f', 'n', 'r', 't'] →
      Mode.string.Spells (text.slice start (i + 1)) := by
    intro hletter tail htail
    rw [hsucc, hpart, List.append_assoc, List.append_assoc]
    exact hbefore _ (.escape hletter htail)
  unfold feedEscape
  split
  iterate 8
    next hchar => exact switch_leads h hopened hrest hle' (hletter (by simp [hchar]))
  · next hchar =>
    obtain rfl := Bytes.eq_of_char_eq hchar
    refine switch_leads h hopened hrest hle' ⟨before, [], ?_, rfl, by decide, nofun, hbefore⟩
    rw [hsucc, hpart, List.append_assoc]
    rfl
  · trivial

theorem feedUnicode_leads {count : Nat}
    (hspells : (Mode.unicode count).Spells (text.slice start i)) :
    Leads text (i + 1) (s.feedUnicode count b) := by
  obtain ⟨before, digits, hpart, hlength, hcount, hdigits, hbefore⟩ := hspells
  have hsucc := Bytes.slice_succ hle hb
  have hle' := Nat.le_succ_of_le hle
  have hmore : (digits ++ [b]).length = count + 1 := by
    rw [List.length_append, hlength, List.length_singleton]
  unfold feedUnicode
  split
  · next hdigit =>
    have hdigits : ∀ d ∈ digits ++ [b], Bytes.isHexDigit d = true :=
      List.forall_mem_append.2 ⟨hdigits, List.forall_mem_singleton.2 hdigit⟩
    split
    · next hthree =>
      refine switch_leads h hopened hrest hle' fun tail htail => ?_
      have hall := hbefore _ (.unicode (hmore.trans (by rw [hthree])) hdigits htail)
      rw [hsucc, hpart]
      simpa using hall
    · next hthree =>
      refine switch_leads h hopened hrest hle'
        ⟨before, digits ++ [b], ?_, hmore, by omega, hdigits, hbefore⟩
      rw [hsucc, hpart, List.append_assoc]
      rfl
  · trivial

theorem feedNumber_leads {part : NumberPart}
    (hspells : (Mode.number part).Spells (text.slice start i)) :
    Leads text (i + 1) (s.feedNumber o part b i) := by
  have hsucc := Bytes.slice_succ hle hb
  unfold feedNumber
  split
  · next hnext =>
    refine switch_leads h hopened hrest (Nat.le_succ_of_le hle) fun tail htail => ?_
    rw [hsucc, List.append_assoc]
    exact hspells _ (NumberPart.completes_of_next? hnext htail)
  · trivial
  · next hrefusal =>
    have hall := hspells [] ((NumberPart.completes_nil_iff part).2 (isComplete_of_refusal? hrefusal))
    rw [List.append_nil] at hall
    exact endValue_land_leads (endValue_stays_of_spelled h hopened hrest hall) hb

theorem feedKeyword_leads {word : Keyword} {next : UInt8} {more : Bytes}
    (hspells : (Mode.keyword word next more).Spells (text.slice start i)) :
    Leads text (i + 1) (s.feedKeyword word next more b i) := by
  have hsucc := Bytes.slice_succ hle hb
  unfold feedKeyword
  split
  · next hnext =>
    subst hnext
    split
    · refine finishValue_leads h hopened hrest ?_
      rw [hsucc]
      exact hspells
    · refine switch_leads h hopened hrest (Nat.le_succ_of_le hle) ?_
      change IsLiteral _
      rw [hsucc, List.append_assoc]
      exact hspells
  · trivial

/-- What is read inside a literal. -/
theorem feed_leads_of_literal (hspells : s.mode.Spells (text.slice start i)) :
    Leads text (i + 1) (s.feed o b i) := by
  unfold feed
  cases hmode : s.mode <;> rw [hmode] at hspells
  case string => exact feedString_leads h hopened hrest hle hb hmode hspells
  case escape => exact feedEscape_leads h hopened hrest hle hb hspells
  case unicode count => exact feedUnicode_leads h hopened hrest hle hb hspells
  case number part => exact feedNumber_leads h hopened hrest hle hb hspells
  case keyword word next more => exact feedKeyword_leads h hopened hrest hle hb hspells
  all_goals exact hspells.elim

end

/-! ## Inside a name that is a type -/

/-- What is read inside such a name. -/
theorem feed_leads_of_naming (h : Reported text s) {start : Nat} {rest : List (Construct × Nat)}
    (hopened : s.opened = (.keyShortcut, start) :: rest) (hrest : ∀ o ∈ rest, o.1.isSpelled = false)
    (hle : start ≤ i) (hb : text[i]? = some b) (hnames : s.mode.Names (text.slice start i)) :
    Leads text (i + 1) (s.feed o b i) := by
  have hsucc := Bytes.slice_succ hle hb
  have hle' := Nat.le_succ_of_le hle
  unfold feed
  cases hmode : s.mode <;> rw [hmode] at hnames
  case keyMark =>
    dsimp only [feedKeyMark]
    split
    · next hname =>
      refine .naming (s := s.switch .keyName) ⟨h.spelled, h.depth_eq, h.shallow⟩ hopened hrest hle' ?_
      refine ⟨[b], ?_, nofun, by simpa using hname⟩
      rw [hsucc, hnames]
      rfl
    · trivial
  case keyName =>
    obtain ⟨name, hpart, hne, hall⟩ := hnames
    dsimp only [feedName]
    split
    · next hname =>
      refine .naming h hopened hrest hle' ?_
      rw [hmode]
      refine ⟨name ++ [b], ?_, by simp, List.forall_mem_append.2 ⟨hall, by simpa using hname⟩⟩
      rw [hsucc, hpart]
      rfl
    · exact endValue_land_leads (endValue_stays_of_spelled h hopened hrest ⟨name, hpart, hne, hall⟩) hb
  all_goals exact hnames.elim

/-! ## Every mode -/

/-- **A byte** leads to such a state or fails. -/
theorem feed_leads (h : Spelling text i s) (hb : text[i]? = some b) :
    Leads text (i + 1) (s.feed o b i) := by
  cases h with
  | between h => exact feed_leads_of_quiet h hb
  | within h hopened hrest hle hspells => exact feed_leads_of_literal h hopened hrest hle hb hspells
  | naming h hopened hrest hle hnames => exact feed_leads_of_naming h hopened hrest hle hb hnames

theorem land?_stays {length : Nat} (h : Quiet text s) (places : List Place) :
    Stays text (land? length places s) := by
  induction places generalizing s with
  | nil => trivial
  | cons place rest ih =>
    cases place with
    | finish => exact stop_quiet h
    | afterRules kind =>
      cases kind with
      | inline => exact (closeNote_stays h length).bind fun _ h => ih h
      | block => trivial
    | _ => trivial

/-- **The end of the document** ends a literal or fails. -/
theorem conclude_stays (h : Spelling text i s) : Stays text (s.conclude i) := by
  have hend : ∀ {stop}, Stays text (s.endValue stop) →
      Stays text (do land? i s.resume (← s.endValue stop)) := fun h => h.bind fun _ h =>
    land?_stays h _
  unfold conclude
  cases h with
  | between h =>
    split
    · exact h
    · exact land?_stays h _
    · split
      · exact hend (endValue_stays h _)
      · trivial
    · exact hend (endValue_stays h _)
    · exact hend (endValue_stays h _)
    · exact land?_stays h _
    · split
      · trivial
      · exact land?_stays h _
    iterate 3 exact (closeNote_stays h i).bind fun _ h => land?_stays h _
    · trivial
  | within h hopened hrest hle hspells =>
    cases hmode : s.mode <;> rw [hmode] at hspells
    case number part =>
      dsimp only
      split
      · next hcomplete =>
        have hall := hspells [] ((NumberPart.completes_nil_iff part).2 hcomplete)
        rw [List.append_nil] at hall
        exact hend (endValue_stays_of_spelled h hopened hrest hall)
      · trivial
    case string | escape | unicode | keyword => trivial
    all_goals exact hspells.elim
  | naming h hopened hrest hle hnames =>
    cases hmode : s.mode <;> rw [hmode] at hnames
    case keyMark | keyName => trivial
    all_goals exact hnames.elim

end State

/-! ## Whole scans -/

/-- What a run reports. -/
theorem reported_run (o : Options) {rest : Bytes} (h : Spelling text i s)
    (hrest : text.drop i = rest) : Reported text (run o s i rest).1 := by
  have hreported := h.reported
  induction rest generalizing s i with
  | nil =>
    have hend := State.conclude_stays h
    rw [run]
    cases hconclude : s.conclude i with
    | ok s' => exact (hend.of_ok hconclude).toReported
    | error cause => exact hreported
  | cons b rest ih =>
    have hb : text[i]? = some b := by
      have hfirst : (text.drop i)[0]? = some b := by rw [hrest]; rfl
      rwa [List.getElem?_drop, Nat.add_zero] at hfirst
    rw [run]
    split
    · exact hreported
    · cases hfeed : s.feed o b i with
      | error cause => exact hreported
      | ok s' =>
        have hnext := (State.feed_leads h hb).of_ok hfeed
        refine ih hnext ?_ hnext.reported
        rw [← List.drop_drop, hrest]
        rfl

theorem reported_read (o : Options) (text : Bytes) :
    ∃ s, Reported text s ∧ (read o text).events = s.events := by
  have hnothing : opens [] ≤ closes [] + maxDepth := Nat.zero_le _
  have hstart : Spelling text 0 ({} : State) := by
    refine .between ⟨⟨nofun, rfl, fun earlier hearlier => ?_⟩, nofun⟩
    rw [List.suffix_nil.1 hearlier]
    exact hnothing
  exact ⟨_, reported_run o hstart rfl, rfl⟩

/-- **What closes as a literal is one.** -/
theorem isLiteral_of_mem_read {e : Event} (he : e ∈ (read o text).events)
    (hkind : e.kind = .closing .literal) : IsLiteral (text.slice e.start e.stop) := by
  obtain ⟨s, hreported, hevents⟩ := reported_read o text
  rw [hevents] at he
  exact hreported.spelled e (List.mem_reverse.1 he) _ hkind

/-- **What closes as a name that is a type is one.** -/
theorem isKeyShortcut_of_mem_read {e : Event} (he : e ∈ (read o text).events)
    (hkind : e.kind = .closing .keyShortcut) : IsKeyShortcut (text.slice e.start e.stop) := by
  obtain ⟨s, hreported, hevents⟩ := reported_read o text
  rw [hevents] at he
  exact hreported.spelled e (List.mem_reverse.1 he) _ hkind

/-- **Containers nest no deeper than they may**, at any moment of a scan. -/
theorem opens_le_of_read {before after : List Event} (h : (read o text).events = before ++ after) :
    opens before ≤ closes before + maxDepth := by
  obtain ⟨s, hreported, hevents⟩ := reported_read o text
  have hsuffix : before.reverse <:+ s.emitted := by
    have hemitted : s.emitted = after.reverse ++ before.reverse := by
      rw [← List.reverse_append, ← h, hevents, State.events, List.reverse_reverse]
    rw [hemitted]
    exact List.suffix_append _ _
  have hle := hreported.shallow _ hsuffix
  rwa [opens, closes, List.countP_reverse, List.countP_reverse] at hle

end Scan
end ExampleSchema
