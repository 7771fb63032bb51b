import ExampleSchema.Proofs.Json.Number
import ExampleSchema.Proofs.Scan.Reading
import ExampleSchema.Proofs.Scan.Shift

/-!
# Comments between tokens

A comment begins with number signs and is no part of the document: behind it, the scan is in the state that it was in
before.  So a document into which a comment is put has the same events, those behind the comment at later offsets.

* `Scan.State.after`: the state behind some bytes.
* `Scan.IsComment`, `Scan.State.AllowsComment`: a comment, and a state in which one may begin.
* `Scan.run_comment`: a comment leads back to the state before it.
* `Scan.read_comment`: the events of a document with a comment.
* `Scan.isApart_of_mem_read`: only containers, and what wraps the values in them, have comments inside.
* `Scan.slice_shift`: what has nothing put inside keeps its bytes.
-/

namespace ExampleSchema

/-- Whether a comment may stand inside the construct, which is so if it may have several tokens. -/
def Construct.holdsComments : Construct → Bool
  | .object | .objectValue | .array | .arrayItem => true
  | _ => false

namespace Bytes

theorem slice_of_le (text : Bytes) {start stop : Nat} (h : stop ≤ start) : text.slice start stop = [] := by
  rw [slice, Nat.sub_eq_zero_of_le h, List.take_zero]

/-- The bytes of the first part of a text. -/
theorem slice_append_of_le {front : Bytes} (rest : Bytes) {start stop : Nat} (h : stop ≤ front.length) :
    (front ++ rest).slice start stop = front.slice start stop := by
  rcases Nat.lt_or_ge stop start with hlt | hle
  · rw [slice_of_le _ (Nat.le_of_lt hlt), slice_of_le _ (Nat.le_of_lt hlt)]
  · rw [slice, slice, List.drop_append_of_le_length (Nat.le_trans hle h), List.take_append_of_le_length]
    rw [List.length_drop]
    exact Nat.sub_le_sub_right h start

/-- The bytes of the last part of a text, with something put in before. -/
theorem slice_insert_of_le {front inserted : Bytes} (rest : Bytes) {start stop : Nat} (h : front.length ≤ start) :
    (front ++ inserted ++ rest).slice (start + inserted.length) (stop + inserted.length) =
      (front ++ rest).slice start stop := by
  obtain ⟨more, rfl⟩ := Nat.exists_eq_add_of_le h
  rw [slice, slice, Nat.add_sub_add_right, List.drop_length_add_append]
  refine congrArg (List.take _) ?_
  rw [Nat.add_right_comm, ← List.length_append, List.drop_length_add_append]

end Bytes

namespace Scan

/-! ## Behind some bytes -/

/-- The state behind some bytes, if none of them is refused. -/
def State.after (o : Options) (s : State) (i : Nat) : Bytes → Verdict State
  | [] => .ok s
  | b :: rest => do State.after o (← s.feed o b i) (i + 1) rest

variable {o : Options} {s s' : State} {i n : Nat} {text rest front comment back : Bytes}

/-- Nothing goes on behind the end of the document. -/
theorem after_of_done (hmode : s.mode = .done) (i : Nat) (text : Bytes) : s.after o i text = .ok s := by
  induction text generalizing i with
  | nil => rfl
  | cons b rest ih =>
    have hfeed : s.feed o b i = .ok s := by rw [State.feed, hmode]
    rw [State.after, hfeed, Except.ok_bind, ih]

/-- Where the document has not ended, a scan goes on from the state behind the first bytes. -/
theorem run_append (h : s.after o i text = .ok s') (hmode : s'.mode ≠ .done) (rest : Bytes) :
    run o s i (text ++ rest) = run o s' (i + text.length) rest := by
  induction text generalizing s i with
  | nil =>
    obtain rfl := Except.ok.inj h
    rfl
  | cons b text ih =>
    obtain ⟨next, hfeed, h⟩ := Except.bind_eq_ok_iff.1 h
    have hgoes : s.mode ≠ .done := by
      intro hdone
      have hsame : s.feed o b i = .ok s := by rw [State.feed, hdone]
      obtain rfl := Except.ok.inj (hsame.symm.trans hfeed)
      rw [after_of_done hdone] at h
      obtain rfl := Except.ok.inj h
      exact hmode hdone
    rw [List.cons_append, run, if_neg hgoes, hfeed, List.length_cons, Nat.add_comm text.length, ← Nat.add_assoc]
    exact ih h

/-- The state behind some bytes, and then behind some more. -/
theorem after_append (h : s.after o i text = .ok s') (rest : Bytes) :
    s.after o i (text ++ rest) = s'.after o (i + text.length) rest := by
  induction text generalizing s i with
  | nil =>
    obtain rfl := Except.ok.inj h
    rfl
  | cons b text ih =>
    obtain ⟨next, hfeed, h⟩ := Except.bind_eq_ok_iff.1 h
    rw [List.cons_append, State.after, hfeed, Except.ok_bind, List.length_cons, Nat.add_comm text.length,
      ← Nat.add_assoc]
    exact ih h

/-- The state behind some bytes is sound. -/
theorem sound_after {past : List Event} (hs : Sound past i s) (h : s.after o i text = .ok s') :
    Sound past (i + text.length) s' := by
  induction text generalizing s i with
  | nil =>
    obtain rfl := Except.ok.inj h
    exact hs
  | cons b text ih =>
    obtain ⟨next, hfeed, h⟩ := Except.bind_eq_ok_iff.1 h
    rw [List.length_cons, Nat.add_comm text.length, ← Nat.add_assoc]
    exact ih ((State.feed_goes o b hs).of_ok hfeed) h

/-! ## Comments -/

/-- The number sign. -/
def hash : UInt8 := Char.toUInt8 '#'

/-- The mark at either end of a comment that does not go up to the end of the line. -/
def hashes : Bytes := [hash, hash, hash]

/-- **A comment**, before what follows it: between two marks, or up to the end of the line. -/
inductive IsComment : Bytes → Bytes → Prop
  | block {text rest : Bytes} (hne : text ≠ []) (hline : ∀ b ∈ text, Bytes.isNewLine b = false)
      (hfirst : text.head? ≠ some hash) (hlast : text.getLast? ≠ some hash) (hinside : ¬ hashes <:+: text) :
    IsComment (hashes ++ text ++ hashes) rest
  | line {text rest : Bytes} {b : UInt8} (hline : ∀ b ∈ text, Bytes.isNewLine b = false)
      (hfirst : text.head? ≠ some hash) (hnewLine : Bytes.isNewLine b = true) : IsComment (hash :: text) (b :: rest)

/-- **A state between tokens in which a comment may begin**, outside of notes. -/
structure State.AllowsComment (s : State) (place : Place) : Prop where
  mode : s.mode = .between place
  allows : place.allowsComment hash = true
  note : s.note? = none

theorem State.AllowsComment.ne_afterRules {place : Place} (h : s.AllowsComment place) (kind : NoteKind) :
    place ≠ .afterRules kind := by
  rintro rfl
  exact Bool.false_ne_true h.allows

theorem State.AllowsComment.ne_done {place : Place} (h : s.AllowsComment place) : s.mode ≠ .done := by
  intro hdone
  cases h.mode.symm.trans hdone

theorem char_beq_hash_iff {b : UInt8} : (Bytes.char b == '#') = true ↔ b = hash := by
  rw [beq_iff_eq]
  constructor
  · exact Bytes.eq_of_char_eq
  · rintro rfl
    rfl

variable {place : Place}

/-- A comment begins with a number sign. -/
theorem feed_hash (h : s.AllowsComment place) : s.feed {} hash i = .ok (s.interrupt (.hashes 1) place) := by
  have hnote : s.inNote = false := by rw [State.inNote, h.note]; rfl
  rw [State.feed_eq_visit h.mode (h.ne_afterRules .inline), State.visit, h.allows, hnote]
  rfl

/-- A byte that is neither a number sign nor the end of a line. -/
theorem feed_interrupt_text {count : Nat} {b : UInt8} (hb : b ≠ hash) (hline : Bytes.isNewLine b = false) :
    (s.interrupt (.blockComment count) place).feed {} b i = .ok (s.interrupt (.blockComment 0) place) := by
  have hchar : Bytes.char b ≠ '#' := fun hchar => hb (Bytes.eq_of_char_eq hchar)
  have hnewLine : Bytes.char b ≠ '\n' := fun hchar => by simp [Bytes.isNewLine, hchar] at hline
  change State.feedBlockComment _ count b i = _
  rw [State.feedBlockComment]
  split
  · next h => exact (hchar h).elim
  · next h => exact (hnewLine h).elim
  · rfl

/-- The text of a comment between two marks. -/
theorem after_text {count : Nat} (hcount : count < 3) (hline : ∀ b ∈ text, Bytes.isNewLine b = false)
    (hlast : text.getLast? ≠ some hash) (hempty : text = [] → count = 0)
    (hinside : ¬ hashes <:+: List.replicate count hash ++ text) :
    (s.interrupt (.blockComment count) place).after {} i text = .ok (s.interrupt (.blockComment 0) place) := by
  induction text generalizing count i with
  | nil => rw [hempty rfl]; rfl
  | cons b rest ih =>
    have hlines := List.forall_mem_cons.1 hline
    have hrest : rest.getLast? ≠ some hash := by
      intro hrest
      cases rest with
      | nil => cases hrest
      | cons => exact hlast hrest
    rw [State.after]
    by_cases hb : b = hash
    · subst hb
      -- Another number sign: there are not three of them, and it is not the last byte.
      have htwo : count ≠ 2 := by
        rintro rfl
        exact hinside ⟨[], rest, rfl⟩
      have hfeed : (s.interrupt (.blockComment count) place).feed {} hash i =
          .ok (s.interrupt (.blockComment (count + 1)) place) := if_neg htwo
      rw [hfeed, Except.ok_bind]
      refine ih (by omega) hlines.2 hrest ?_ ?_
      · rintro rfl
        exact (hlast rfl).elim
      · rwa [List.replicate_succ', List.append_assoc]
    · rw [feed_interrupt_text hb hlines.1, Except.ok_bind]
      refine ih (by omega) hlines.2 hrest (fun _ => rfl) fun hinfix => hinside ?_
      exact hinfix.trans ((List.suffix_cons b rest).trans (List.suffix_append _ _)).isInfix

/-- **A comment between two marks** leads back to the state before it. -/
theorem after_block (h : s.AllowsComment place) (hne : text ≠ []) (hline : ∀ b ∈ text, Bytes.isNewLine b = false)
    (hfirst : text.head? ≠ some hash) (hlast : text.getLast? ≠ some hash) (hinside : ¬ hashes <:+: text) (i : Nat) :
    s.after {} i (hashes ++ text ++ hashes) = .ok s := by
  obtain ⟨b, rest, rfl⟩ := List.exists_cons_of_ne_nil hne
  have hb : b ≠ hash := fun hb => hfirst (congrArg some hb)
  have hopen : s.after {} i hashes = .ok (s.interrupt (.hashes 3) place) := by
    rw [hashes, State.after, feed_hash h]
    rfl
  -- The first byte of the text shows that it is no comment up to the end of the line.
  have hbegin : (s.interrupt (.hashes 3) place).after {} (i + 3) (b :: rest) =
      (s.interrupt (.blockComment 0) place).after {} (i + 3) (b :: rest) := by
    have hchar : (Bytes.char b == '#') = false := Bool.eq_false_iff.2 fun hchar => hb (char_beq_hash_iff.1 hchar)
    have hfeed : (s.interrupt (.hashes 3) place).feed {} b (i + 3) =
        (s.interrupt (.blockComment 0) place).feed {} b (i + 3) := by
      change State.feedHashes {} _ 3 b (i + 3) = State.feedBlockComment _ 0 b (i + 3)
      rw [State.feedHashes, hchar]
      rfl
    rw [State.after, State.after, hfeed]
  have hbody := (after_append hopen (b :: rest)).trans
    (hbegin.trans (after_text (by decide) hline hlast (fun _ => rfl) (by simpa using hinside)))
  rw [after_append hbody]
  obtain ⟨mode, resume, opened, nameEnd, textEnd, valueEnd, emitted⟩ := s
  obtain rfl : mode = .between place := h.mode
  rfl

/-- The text of a comment up to the end of the line. -/
theorem after_line (hline : ∀ b ∈ text, Bytes.isNewLine b = false) (i : Nat) :
    (s.interrupt .lineComment place).after {} i text = .ok (s.interrupt .lineComment place) := by
  induction text generalizing i with
  | nil => rfl
  | cons b rest ih =>
    obtain ⟨hb, hrest⟩ := List.forall_mem_cons.1 hline
    have hfeed : (s.interrupt .lineComment place).feed {} b i = .ok (s.interrupt .lineComment place) := by
      change State.feedLineComment {} _ b i = _
      rw [State.feedLineComment, hb]
      rfl
    rw [State.after, hfeed, Except.ok_bind, ih hrest]

/-- Outside of notes, the end of a line is told. -/
theorem visit_newLine (place : Place) (hnote : s.note? = none) {b : UInt8} (hnewLine : Bytes.isNewLine b = true) :
    s.visit {} place b i = .ok (s.emit .newLine i (i + 1)) := by
  have hspace : Bytes.isSpace b = true := by
    rw [Bytes.eq_of_char_eq (beq_iff_eq.1 hnewLine)]
    rfl
  rw [State.visit, if_pos hspace, State.skipBlank, if_pos hnewLine, hnote]

/-- The end of the line is read in the state before the comment. -/
theorem feed_interrupt_newLine (h : s.AllowsComment place) {b : UInt8} (hnewLine : Bytes.isNewLine b = true)
    {mode : Mode} (hmode : mode = .hashes 1 ∨ mode = .lineComment) :
    (s.interrupt mode place).feed {} b i = .ok (s.emit .newLine i (i + 1)) := by
  have hchar : (Bytes.char b == '#') = false := by
    rw [Bytes.eq_of_char_eq (beq_iff_eq.1 hnewLine)]
    rfl
  have hland : (s.interrupt mode place).feed {} b i = (s.interrupt mode place).feedLineComment {} b i := by
    rcases hmode with rfl | rfl
    · change State.feedHashes {} _ 1 b i = _
      rw [State.feedHashes, hchar]
      rfl
    · rfl
  rw [hland, State.feedLineComment, if_pos hnewLine, ← visit_newLine place h.note hnewLine]
  change State.land {} b i (place :: s.resume) _ = _
  rw [State.land, if_neg fun hinline => h.ne_afterRules .inline hinline.1]
  obtain ⟨mode, resume, opened, nameEnd, textEnd, valueEnd, emitted⟩ := s
  obtain rfl : mode = .between place := h.mode
  rfl

/-- **A comment up to the end of the line** leads back to the state before it where the line ends. -/
theorem run_line {b : UInt8} (h : s.AllowsComment place) (hline : ∀ b ∈ text, Bytes.isNewLine b = false)
    (hfirst : text.head? ≠ some hash) (hnewLine : Bytes.isNewLine b = true) (i : Nat) :
    run {} s i (hash :: text ++ b :: rest) = run {} s (i + (hash :: text).length) (b :: rest) := by
  have hafter : ∃ mode, (mode = .hashes 1 ∨ mode = .lineComment) ∧
      s.after {} i (hash :: text) = .ok (s.interrupt mode place) := by
    rw [State.after, feed_hash h, Except.ok_bind]
    cases text with
    | nil => exact ⟨_, Or.inl rfl, rfl⟩
    | cons first text =>
      obtain ⟨hfirstLine, hlines⟩ := List.forall_mem_cons.1 hline
      have hchar : (Bytes.char first == '#') = false :=
        Bool.eq_false_iff.2 fun hchar => hfirst (congrArg some (char_beq_hash_iff.1 hchar))
      have hfeed : (s.interrupt (.hashes 1) place).feed {} first (i + 1) = .ok (s.interrupt .lineComment place) := by
        change State.feedHashes {} _ 1 first (i + 1) = _
        rw [State.feedHashes, hchar, State.feedLineComment.eq_def, hfirstLine]
        rfl
      refine ⟨_, Or.inr rfl, ?_⟩
      rw [State.after, hfeed, Except.ok_bind, after_line hlines]
  obtain ⟨mode, hmode, hafter⟩ := hafter
  have hgoes : (s.interrupt mode place).mode ≠ .done := by
    intro hdone
    rcases hmode with rfl | rfl <;> cases hdone
  have hfeed (i : Nat) : s.feed {} b i = .ok (s.emit .newLine i (i + 1)) := by
    rw [State.feed_eq_visit h.mode (h.ne_afterRules .inline), visit_newLine _ h.note hnewLine]
  rw [run_append hafter hgoes, run, run, if_neg hgoes, if_neg h.ne_done, feed_interrupt_newLine h hnewLine hmode, hfeed]

/-- **A comment leads back to the state before it.** -/
theorem run_comment (h : s.AllowsComment place) (hcomment : IsComment comment rest) (i : Nat) :
    run {} s i (comment ++ rest) = run {} s (i + comment.length) rest := by
  cases hcomment with
  | block hne hline hfirst hlast hinside =>
    exact run_append (after_block h hne hline hfirst hlast hinside i) h.ne_done rest
  | line hline hfirst hnewLine => exact run_line h hline hfirst hnewLine i

/-! ## Putting something in -/

/-- The offsets behind `n` bytes that are put in at offset `p`.  What ends there ends before them, and what begins
there begins behind them. -/
def Shift.insertion (p n : Nat) : Shift where
  opening _ x := if x < p then x else x + n
  line x := if x < p then x else x + n
  stop x := if x ≤ p then x else x + n

theorem movesAll_before {p i : Nat} (h : i < p) (n : Nat) : (Shift.insertion p n).MovesAll i i where
  opening _ := if_pos h
  line := if_pos h
  stop := if_pos h
  back _ := if_pos (by omega)
  here := if_pos (Nat.le_of_lt h)

theorem moves_behind {p i : Nat} (h : p ≤ i) (n : Nat) : (Shift.insertion p n).Moves i (i + n) where
  opening _ := if_neg (by omega)
  line := if_neg (by omega)
  stop := (if_neg (by omega)).trans (Nat.add_right_comm i 1 n)

theorem movesAll_behind {p i : Nat} (h : p < i) (n : Nat) : (Shift.insertion p n).MovesAll i (i + n) where
  toMoves := moves_behind (Nat.le_of_lt h) n
  back _ := (if_neg (by omega)).trans (by omega)
  here := if_neg (by omega)

/-- The state where something is put in keeps its offsets. -/
theorem shift_after {p : Nat} (hle : i + text.length ≤ p) (hs : s.shift (.insertion p n) = s)
    (h : s.after o i text = .ok s') : s'.shift (.insertion p n) = s' := by
  induction text generalizing s i with
  | nil =>
    obtain rfl := Except.ok.inj h
    exact hs
  | cons b text ih =>
    obtain ⟨next, hfeed, h⟩ := Except.bind_eq_ok_iff.1 h
    rw [List.length_cons] at hle
    have hmoved : (s.shift (.insertion p n)).feed o b i = State.shift (.insertion p n) <$> s.feed o b i :=
      State.feed_shift (movesAll_before (by omega) n)
    rw [hs, hfeed] at hmoved
    exact ih (by omega) (Except.ok.inj hmoved).symm h

/-- What a scan tells, with `n` bytes put in at offset `p`. -/
def Reading.inserted (p n : Nat) (r : Reading) : Reading :=
  ⟨r.events.map (Event.shift (.insertion p n)), r.failure.map (Failure.later n)⟩

/-- **A comment is no part of the document**: the scan tells the same events, those behind the comment at later
offsets, and fails for the same reason if it fails. -/
theorem read_comment (hfront : State.after {} {} 0 front = .ok s) (h : s.AllowsComment place)
    (hcomment : IsComment comment back) :
    read {} (front ++ comment ++ back) = (read {} (front ++ back)).inserted front.length comment.length := by
  have hsame : s.shift (.insertion front.length comment.length) = s := by
    refine shift_after (by simp) ?_ hfront
    simp [State.shift, Shift.insertion]
  have hrun : run {} (s.shift (.insertion front.length comment.length)) (front.length + comment.length) back =
      (Shift.insertion front.length comment.length).outcome comment.length (run {} s front.length back) :=
    run_shift_of_between h.mode (h.ne_afterRules .inline) (moves_behind (Nat.le_refl front.length) _)
      fun k hk => movesAll_behind hk _
  rw [hsame] at hrun
  rw [read, read, List.append_assoc, run_append hfront h.ne_done, run_append hfront h.ne_done, Nat.zero_add,
    run_comment h hcomment, hrun]
  simp [Reading.inserted, State.events, State.shift, Shift.insertion]

/-! ## What has something put inside -/

/-- Outside of notes, only such constructs are open between tokens as may have comments inside. -/
theorem Nested.holdsComments {places : List Place} {opened : List Construct} (h : Nested places opened)
    (hnote : ¬ IsInNote opened) : ∀ c ∈ opened, c.holdsComments = true := by
  induction h with
  | start | finish =>
    intro c hc
    cases hc
  | @inside place next container places opened hplace hnext _ ih =>
    have houter : ¬ IsInNote opened := by
      rintro ⟨c, hc, hkind⟩
      exact hnote ⟨c, by simp [hc], hkind⟩
    have hcontainer : container.holdsComments = true := by cases place <;> cases hplace <;> rfl
    have hwrapper : ∀ c ∈ next.wrapper, c.holdsComments = true := by
      cases next <;> cases hnext <;> simp [Place.wrapper, Construct.holdsComments]
    exact List.forall_mem_cons.2 ⟨hcontainer, fun c hc => (List.mem_append.1 hc).elim (hwrapper c) (ih houter c)⟩
  | @afterRules kind => exact (hnote ⟨_, List.mem_cons_self, by cases kind <;> rfl⟩).elim

/-- Events that come behind offset `p`, after some others: nothing begins before, unless it may have comments
inside. -/
def Shift.behind (p : Nat) (past : List Event) : Shift where
  opening c x := if c.holdsComments then x else max x p
  line x := x
  stop x := x
  past := past

theorem moves_behind_self (p : Nat) (past : List Event) {i : Nat} (h : p ≤ i) : (Shift.behind p past).Moves i i where
  opening c := by
    change (if c.holdsComments then i else max i p) = i
    split
    · rfl
    · exact Nat.max_eq_left h
  line := rfl
  stop := rfl

theorem movesAll_behind_self (p : Nat) (past : List Event) {i : Nat} (h : p < i) :
    (Shift.behind p past).MovesAll i i where
  toMoves := moves_behind_self p past (Nat.le_of_lt h)
  back := (moves_behind_self p past (Nat.le_sub_one_of_lt h)).opening
  here := rfl

/-- Where a comment may begin, only such constructs are open as may have comments inside. -/
theorem State.AllowsComment.holdsComments {past : List Event} (h : s.AllowsComment place) (hs : Sound past i s) :
    ∀ o ∈ s.opened, o.1.holdsComments = true := by
  cases hs with
  | ended hmode => cases hmode.symm.trans h.mode
  | running hfits _ _ =>
    rw [h.mode] at hfits
    have hnote : ¬ IsInNote s.constructs := by
      rw [← State.inNote_iff, State.inNote, h.note]
      decide
    exact fun o ho => Nested.holdsComments hfits hnote o.1 (List.mem_map_of_mem ho)

/-- What is told from here on, put behind what was told before, is what the state tells. -/
theorem shift_behind {p : Nat} (hopen : ∀ o ∈ s.opened, o.1.holdsComments = true) :
    State.shift (.behind p s.emitted) { s with emitted := [] } = s := by
  have hopened : s.opened.map (fun o => (o.1, (Shift.behind p s.emitted).opening o.1 o.2)) = s.opened := by
    refine (List.map_congr_left fun o ho => ?_).trans (List.map_id _)
    exact Prod.ext rfl (if_pos (hopen o ho))
  rw [State.shift, hopened]
  rfl

/-- **What has no comment inside lies before it or behind it.** -/
theorem isApart_of_mem_read (hfront : State.after {} {} 0 front = .ok s) (h : s.AllowsComment place) {e : Event}
    (he : e ∈ (read {} (front ++ back)).events) {c : Construct} (hkind : e.kind = .closing c)
    (hc : c.holdsComments = false) : e.stop ≤ front.length ∨ front.length ≤ e.start := by
  have hsound := sound_after sound_start hfront
  rw [Nat.zero_add] at hsound
  have hrun : run {} (State.shift (.behind front.length s.emitted) { s with emitted := [] }) front.length back =
      (Shift.behind front.length s.emitted).outcome 0 (run {} { s with emitted := [] } front.length back) :=
    run_shift_of_between (s := { s with emitted := [] }) (n := 0) h.mode (h.ne_afterRules .inline)
      (moves_behind_self front.length _ (Nat.le_refl _)) fun k hk => movesAll_behind_self front.length _ hk
  rw [shift_behind (h.holdsComments hsound)] at hrun
  rw [read, run_append hfront h.ne_done, Nat.zero_add, hrun] at he
  rcases List.mem_append.1 (List.mem_reverse.1 he) with he | he
  · obtain ⟨⟨kind, start, stop⟩, -, rfl⟩ := List.mem_map.1 he
    rw [Event.kind_shift] at hkind
    obtain rfl : kind = .closing c := hkind
    refine Or.inr ?_
    change front.length ≤ if c.holdsComments then start else max start front.length
    rw [hc]
    exact Nat.le_max_right _ _
  · refine Or.inl ?_
    cases hsound with
    | ended hmode => cases hmode.symm.trans h.mode
    | running _ hrec hle => exact (hrec.history.mono hle).stop_le e he

/-- Where an event of a scan begins and ends: one that opens something is empty, and so is the end of the document. -/
theorem span_of_mem_read {text : Bytes} {e : Event} (he : e ∈ (read o text).events) :
    e.start ≤ e.stop ∧ (e.kind.isBegin = true ∨ e.kind = .endTop → e.start = e.stop) := by
  obtain ⟨opened, events, h, hread⟩ := read_history o text
  have hevents : ∀ e ∈ events, e.start ≤ e.stop ∧ (e.kind.isBegin = true ∨ e.kind = .endTop → e.start = e.stop) :=
    fun e he => ⟨h.start_le_stop e he, fun hempty => hempty.elim (h.start_eq_stop e he)
      fun hend => (h.kind_ne_endTop e he hend).elim⟩
  rcases hread with ⟨-, -, n, hread⟩ | ⟨-, hread⟩
  · rw [hread, List.mem_append, List.mem_reverse, List.mem_singleton] at he
    rcases he with he | rfl
    · exact hevents e he
    · exact ⟨Nat.le_refl n, fun _ => rfl⟩
  · rw [hread, List.mem_reverse] at he
    exact hevents e he

/-- **What has nothing put inside keeps its bytes.** -/
theorem slice_shift {e : Event} (hle : e.start ≤ e.stop)
    (hempty : e.kind.isBegin = true ∨ e.kind = .endTop → e.start = e.stop)
    (hapart : e.stop ≤ front.length ∨ front.length ≤ e.start) :
    (front ++ comment ++ back).slice (e.shift (.insertion front.length comment.length)).start
        (e.shift (.insertion front.length comment.length)).stop =
      (front ++ back).slice e.start e.stop := by
  obtain ⟨kind, start, stop⟩ := e
  dsimp only at hle hempty hapart
  rcases Nat.eq_or_lt_of_le hle with rfl | hlt
  · rw [Bytes.slice_of_le (front ++ back) (Nat.le_refl start)]
    refine Bytes.slice_of_le _ ?_
    cases kind with
    | opening | endTop => exact Nat.le_refl _
    | closing | newLine =>
      change (if start ≤ front.length then start else start + comment.length) ≤
        if start < front.length then start else start + comment.length
      split <;> split <;> omega
  · have hends : (Event.shift (.insertion front.length comment.length) ⟨kind, start, stop⟩).start =
          (if start < front.length then start else start + comment.length) ∧
        (Event.shift (.insertion front.length comment.length) ⟨kind, start, stop⟩).stop =
          if stop ≤ front.length then stop else stop + comment.length := by
      cases kind with
      | opening => exact (Nat.ne_of_lt hlt (hempty (Or.inl rfl))).elim
      | endTop => exact (Nat.ne_of_lt hlt (hempty (Or.inr rfl))).elim
      | closing | newLine => exact ⟨rfl, rfl⟩
    rw [hends.1, hends.2]
    rcases hapart with hbefore | hbehind
    · rw [if_pos (by omega), if_pos hbefore, List.append_assoc, Bytes.slice_append_of_le _ hbefore,
        Bytes.slice_append_of_le _ hbefore]
    · rw [if_neg (by omega), if_neg (by omega), Bytes.slice_insert_of_le _ hbehind]

end Scan
end ExampleSchema
