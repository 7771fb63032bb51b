import ExampleSchema.Note.Builder
import ExampleSchema.Proofs.Scan.Course

/-!
# Notes among the events of a document

Where the notes of a document stand can be told from its events, without anything that is built from them.  A note
is what is between an event that opens one and the next event that ends one.  Some events outside of notes mark a
value, and the value that is marked last on a line is the one that the next note is about.

* `IsWithinNote`: some events lead into a note; `outside_induction`: events, and notes as a whole.
* `IsMarkedLast`: the value that begins at some byte is the one that is marked last on its line.
* `WrittenNote`: a note among the events of a document, and `WrittenNote.eq_of_through_eq`: only one note ends at an
  event.
* `IsReading`: so much has been read of a note.
-/

namespace ExampleSchema

namespace EventKind

/-- Whether a note ends. -/
def closesNote : EventKind → Bool
  | .closing .inlineNote | .closing .blockNote => true
  | _ => false

theorem closesNote_iff {kind : EventKind} :
    kind.closesNote = true ↔ kind = .closing .inlineNote ∨ kind = .closing .blockNote := by
  cases kind with
  | closing c => cases c <;> simp [closesNote]
  | opening | newLine | endTop => simp [closesNote]

/-- No event both begins a note and ends one. -/
theorem closesNote_of_opensNote {kind : EventKind} (h : kind.opensNote = true) : kind.closesNote = false := by
  cases kind with
  | opening => rfl
  | closing | newLine | endTop => cases h

end EventKind

/-- Some events lead into a note. -/
def IsWithinNote (past : List Event) : Prop :=
  ∃ before opening inside, past = before ++ opening :: inside ∧ opening.kind.opensNote = true ∧
    ∀ e ∈ inside, e.kind.closesNote = false

/-- Of some events, those of the right kind mark a value.  The value that begins at `start` has been marked last, and
the line goes on. -/
def IsMarkedLast (marks : EventKind → Bool) (past : List Event) (start : Nat) : Prop :=
  ∃ before e after, past = before ++ e :: after ∧
    marks e.kind = true ∧ ¬ IsWithinNote before ∧ e.start = start ∧
    (∀ x ∈ after, x.kind ≠ .newLine) ∧
    ∀ between x rest, after = between ++ x :: rest → marks x.kind = true → IsWithinNote (before ++ e :: between)

section

variable {past : List Event} {e : Event} {marks : EventKind → Bool} {start : Nat}

theorem not_isWithinNote_nil : ¬ IsWithinNote [] := by
  rintro ⟨before, opening, inside, h, -⟩
  simp at h

/-- An event leads into a note, or stays in one. -/
theorem isWithinNote_append_singleton : IsWithinNote (past ++ [e]) ↔
    e.kind.opensNote = true ∨ IsWithinNote past ∧ e.kind.closesNote = false := by
  constructor
  · rintro ⟨before, opening, inside, h, hopens, hinside⟩
    rcases Event.append_singleton_eq_append_cons h with ⟨-, rfl, -⟩ | ⟨more, rfl, rfl⟩
    · exact Or.inl hopens
    · refine Or.inr ⟨⟨before, opening, more, rfl, hopens, fun x hx => ?_⟩, hinside e (by simp)⟩
      exact hinside x (List.mem_append_left _ hx)
  · rintro (hopens | ⟨⟨before, opening, inside, rfl, hopens, hinside⟩, hstays⟩)
    · exact ⟨past, e, [], rfl, hopens, nofun⟩
    · refine ⟨before, opening, inside ++ [e], by simp, hopens, fun x hx => ?_⟩
      rcases List.mem_append.1 hx with hx | hx
      · exact hinside x hx
      · exact List.mem_singleton.1 hx ▸ hstays

/-- Whether some events lead into a note, told by going through them once. -/
theorem isWithinNote_iff : IsWithinNote past ↔
    past.foldl (fun within e => e.kind.opensNote || within && !e.kind.closesNote) false = true := by
  induction past using List.reverseRecOn with
  | nil => simp [not_isWithinNote_nil]
  | append_singleton past e ih => simp [isWithinNote_append_singleton, ih]

/-- The note that some events lead into begins outside of notes. -/
theorem IsWithinNote.exists_outside (h : IsWithinNote past) : ∃ before opening inside,
    past = before ++ opening :: inside ∧ ¬ IsWithinNote before ∧ opening.kind.opensNote = true ∧
      ∀ e ∈ inside, e.kind.closesNote = false := by
  induction past using List.reverseRecOn with
  | nil => exact (not_isWithinNote_nil h).elim
  | append_singleton past e ih =>
    by_cases hpast : IsWithinNote past
    · obtain ⟨before, opening, inside, rfl, hout, hopens, hstays⟩ := ih hpast
      rcases isWithinNote_append_singleton.1 h with hopens' | ⟨-, hstays'⟩
      · refine ⟨before, opening, inside ++ [e], by simp, hout, hopens, fun x hx => ?_⟩
        rcases List.mem_append.1 hx with hx | hx
        · exact hstays x hx
        · exact List.mem_singleton.1 hx ▸ EventKind.closesNote_of_opensNote hopens'
      · refine ⟨before, opening, inside ++ [e], by simp, hout, hopens, fun x hx => ?_⟩
        rcases List.mem_append.1 hx with hx | hx
        · exact hstays x hx
        · exact List.mem_singleton.1 hx ▸ hstays'
    · exact ⟨past, e, [], rfl, hpast, (isWithinNote_append_singleton.1 h).resolve_right fun hin => hpast hin.1, nofun⟩

/-- **Events, and notes as a whole.**  Whatever holds at the start, and after an event outside of notes if before it,
and after a note if before it, holds wherever no note is being read. -/
theorem outside_induction {motive : List Event → Prop} (nil : motive [])
    (event : ∀ past e, ¬ IsWithinNote past → e.kind.opensNote = false → motive past → motive (past ++ [e]))
    (note : ∀ past opening inside closing, ¬ IsWithinNote past → opening.kind.opensNote = true →
      (∀ e ∈ inside, e.kind.closesNote = false) → closing.kind.closesNote = true → motive past →
      motive (past ++ opening :: inside ++ [closing])) : ∀ past, ¬ IsWithinNote past → motive past := by
  intro past
  induction hlength : past.length using Nat.strongRecOn generalizing past with
  | ind length ih =>
    intro hout
    rcases List.eq_nil_or_concat past with rfl | ⟨earlier, e, rfl⟩
    · exact nil
    · rw [List.concat_eq_append] at hout hlength ⊢
      rw [isWithinNote_append_singleton, not_or, Bool.not_eq_true] at hout
      by_cases hin : IsWithinNote earlier
      · have hcloses : e.kind.closesNote = true := by
          by_contra hstays
          exact hout.2 ⟨hin, Bool.eq_false_iff.2 hstays⟩
        obtain ⟨before, opening, inside, rfl, hbefore, hopens, hstays⟩ := hin.exists_outside
        refine note before opening inside e hbefore hopens hstays hcloses (ih before.length ?_ before rfl hbefore)
        simp [← hlength]
      · exact event earlier e hin hout.1 (ih earlier.length (by simp [← hlength]) earlier rfl hin)

instance : DecidablePred IsWithinNote := fun _ => decidable_of_iff _ isWithinNote_iff.symm

/-- An event outside of notes marks its value. -/
theorem isMarkedLast_of_marks (hmarks : marks e.kind = true) (hout : ¬ IsWithinNote past) :
    IsMarkedLast marks (past ++ [e]) start ↔ e.start = start := by
  constructor
  · rintro ⟨before, x, after, h, -, -, hstart, -, hlast⟩
    rcases Event.append_singleton_eq_append_cons h with ⟨-, rfl, -⟩ | ⟨more, rfl, rfl⟩
    · exact hstart
    · exact (hout (hlast more e [] rfl hmarks)).elim
  · rintro rfl
    exact ⟨past, e, [], rfl, hmarks, hout, rfl, nofun, fun between x rest h => by simp at h⟩

/-- At the end of a line, no value is marked. -/
theorem not_isMarkedLast_newLine (hline : e.kind = .newLine) (hmarks : marks .newLine = false) :
    ¬ IsMarkedLast marks (past ++ [e]) start := by
  rintro ⟨before, x, after, h, hx, -, -, hlines, -⟩
  rcases Event.append_singleton_eq_append_cons h with ⟨-, rfl, -⟩ | ⟨more, rfl, -⟩
  · rw [hline, hmarks] at hx
    cases hx
  · exact hlines e (by simp) hline

/-- Any other event leaves it as it is. -/
theorem isMarkedLast_of_other (hline : e.kind ≠ .newLine) (hother : marks e.kind = true → IsWithinNote past) :
    IsMarkedLast marks (past ++ [e]) start ↔ IsMarkedLast marks past start := by
  constructor
  · rintro ⟨before, x, after, h, hx, hout, hstart, hlines, hlast⟩
    rcases Event.append_singleton_eq_append_cons h with ⟨rfl, rfl, -⟩ | ⟨more, rfl, rfl⟩
    · exact (hout (hother hx)).elim
    · refine ⟨before, x, more, rfl, hx, hout, hstart, fun y hy => hlines y (List.mem_append_left _ hy), ?_⟩
      rintro between y rest rfl hy
      exact hlast between y (rest ++ [e]) (by simp) hy
  · rintro ⟨before, x, after, rfl, hx, hout, hstart, hlines, hlast⟩
    refine ⟨before, x, after ++ [e], by simp, hx, hout, hstart, fun y hy => ?_, fun between y rest h hy => ?_⟩
    · rcases List.mem_append.1 hy with hy | hy
      · exact hlines y hy
      · exact List.mem_singleton.1 hy ▸ hline
    · rcases Event.append_singleton_eq_append_cons h with ⟨rfl, rfl, -⟩ | ⟨more, rfl, rfl⟩
      · exact hother hy
      · exact hlast between y more rfl hy

/-- There is nothing marked before the first event. -/
theorem not_isMarkedLast_nil : ¬ IsMarkedLast marks [] start := by
  rintro ⟨before, x, after, h, -⟩
  simp at h

/-- Whatever is marked last has been marked outside of notes. -/
theorem IsMarkedLast.exists_mark (h : IsMarkedLast marks past start) :
    ∃ before x after, past = before ++ x :: after ∧ marks x.kind = true ∧ ¬ IsWithinNote before ∧ x.start = start := by
  obtain ⟨before, x, after, rfl, hx, hout, hstart, -⟩ := h
  exact ⟨before, x, after, rfl, hx, hout, hstart⟩

end

/-! ## Notes -/

/-- What the events inside of a note say, the first event of which opens it. -/
def Note.Builder.ofEvents (source : Source) (opening : Event) (inside : List Event) : Outcome Note.Builder :=
  inside.foldlM (fun (b : Note.Builder) e => b.add ⟨source, e⟩) { mark := ⟨source, opening⟩ }

/-- A note among the events of a document. -/
structure WrittenNote (source : Source) where
  /-- The events before the note. -/
  past : List Event
  opening : Event
  inside : List Event
  closing : Event
  builder : Note.Builder
  isOutside : ¬ IsWithinNote past
  opens : opening.kind.opensNote = true
  stays : ∀ e ∈ inside, e.kind.closesNote = false
  closes : closing.kind.closesNote = true
  reads : Note.Builder.ofEvents source opening inside = .ok builder

/-- So much has been read of the note that some events lead into. -/
def IsReading (source : Source) (past : List Event) (builder : Note.Builder) : Prop :=
  ∃ before opening inside, past = before ++ opening :: inside ∧ ¬ IsWithinNote before ∧
    opening.kind.opensNote = true ∧ (∀ e ∈ inside, e.kind.closesNote = false) ∧
    Note.Builder.ofEvents source opening inside = .ok builder

/-- The note that some events lead into begins with a certain one of them. -/
theorem opening_unique {front front' back back' : List Event} {e e' : Event}
    (h : front ++ e :: back = front' ++ e' :: back') (hout : ¬ IsWithinNote front) (hout' : ¬ IsWithinNote front')
    (hopens : e.kind.opensNote = true) (hopens' : e'.kind.opensNote = true)
    (hstays : ∀ x ∈ back, x.kind.closesNote = false) (hstays' : ∀ x ∈ back', x.kind.closesNote = false) :
    front = front' ∧ e = e' ∧ back = back' := by
  rcases List.append_eq_append_iff.1 h with ⟨between, rfl, hcut⟩ | ⟨between, rfl, hcut⟩
  · cases between with
    | nil =>
      obtain ⟨rfl, rfl⟩ := List.cons.inj hcut
      exact ⟨(List.append_nil _).symm, rfl, rfl⟩
    | cons x between =>
      obtain ⟨rfl, rfl⟩ := List.cons.inj hcut
      refine (hout' ⟨front, e, between, rfl, hopens, fun y hy => ?_⟩).elim
      exact hstays y (List.mem_append_left _ hy)
  · cases between with
    | nil =>
      obtain ⟨rfl, rfl⟩ := List.cons.inj hcut
      exact ⟨List.append_nil _, rfl, rfl⟩
    | cons x between =>
      obtain ⟨rfl, rfl⟩ := List.cons.inj hcut
      refine (hout ⟨front', e', between, rfl, hopens', fun y hy => ?_⟩).elim
      exact hstays' y (List.mem_append_left _ hy)

theorem IsReading.isWithinNote {source : Source} {past : List Event} {builder : Note.Builder}
    (h : IsReading source past builder) : IsWithinNote past := by
  obtain ⟨before, opening, inside, rfl, -, hopens, hstays, -⟩ := h
  exact ⟨before, opening, inside, rfl, hopens, hstays⟩

/-- A note begins. -/
theorem isReading_of_opensNote {source : Source} {past : List Event} {e : Event} (hout : ¬ IsWithinNote past)
    (hopens : e.kind.opensNote = true) : IsReading source (past ++ [e]) { mark := ⟨source, e⟩ } :=
  ⟨past, e, [], rfl, hout, hopens, nofun, rfl⟩

/-- A note goes on. -/
theorem IsReading.append_singleton {source : Source} {past : List Event} {e : Event} {builder next : Note.Builder}
    (h : IsReading source past builder) (hstays : e.kind.closesNote = false)
    (hadd : builder.add ⟨source, e⟩ = .ok next) : IsReading source (past ++ [e]) next := by
  obtain ⟨before, opening, inside, rfl, hout, hopens, hinside, hreads⟩ := h
  refine ⟨before, opening, inside ++ [e], by simp, hout, hopens, fun x hx => ?_, ?_⟩
  · rcases List.mem_append.1 hx with hx | hx
    · exact hinside x hx
    · exact List.mem_singleton.1 hx ▸ hstays
  · rw [Note.Builder.ofEvents] at hreads ⊢
    rw [Except.foldlM_append_singleton, hreads]
    exact hadd

namespace WrittenNote

variable {source : Source} (n : WrittenNote source)

/-- The note. -/
def note : Note := n.builder.note

/-- The events before the one that ends the note. -/
def before : List Event := n.past ++ n.opening :: n.inside

/-- The events up to the end of the note. -/
def through : List Event := n.before ++ [n.closing]

/-- The note has neither rules nor a text. -/
def IsEmpty : Prop := n.note.rules? = none ∧ n.note.text? = none

theorem isReading_before : IsReading source n.before n.builder :=
  ⟨n.past, n.opening, n.inside, rfl, n.isOutside, n.opens, n.stays, n.reads⟩

variable {n}

/-- What has been read of a note before its end is the note. -/
theorem builder_eq {builder : Note.Builder} (h : IsReading source n.before builder) : builder = n.builder := by
  obtain ⟨before, opening, inside, heq, hout, hopens, hstays, hreads⟩ := h
  obtain ⟨-, rfl, rfl⟩ := opening_unique heq n.isOutside hout n.opens hopens n.stays hstays
  exact Except.ok.inj (hreads.symm.trans n.reads)

/-- Two notes that end together are one. -/
theorem eq_of_through_eq {m : WrittenNote source} (h : n.through = m.through) : n = m := by
  obtain ⟨hbefore, hclosing⟩ := List.append_inj' h rfl
  obtain ⟨hpast, hopening, hinside⟩ := opening_unique hbefore n.isOutside m.isOutside n.opens m.opens n.stays m.stays
  have hbuilder : m.builder = n.builder := builder_eq (hbefore ▸ m.isReading_before)
  obtain ⟨past, opening, inside, closing, builder, _, _, _, _, _⟩ := n
  obtain ⟨past', opening', inside', closing', builder', _, _, _, _, _⟩ := m
  obtain rfl : past = past' := hpast
  obtain rfl : opening = opening' := hopening
  obtain rfl : inside = inside' := hinside
  obtain rfl : closing = closing' := List.singleton_inj.1 hclosing
  obtain rfl : builder' = builder := hbuilder
  rfl

/-- The notes that have ended after an event are those that had ended, and the one that it ends. -/
theorem through_prefix_append_singleton_iff {past : List Event} {e : Event} :
    n.through <+: past ++ [e] ↔ n.through = past ++ [e] ∨ n.through <+: past := List.prefix_concat_iff

/-- Only some events end a note, and only where one has begun. -/
theorem closes_of_through_eq {past : List Event} {e : Event} (h : n.through = past ++ [e]) :
    e.kind.closesNote = true ∧ IsWithinNote past := by
  obtain ⟨rfl, hclosing⟩ := List.append_inj' h rfl
  obtain rfl := List.singleton_inj.1 hclosing
  exact ⟨n.closes, n.isReading_before.isWithinNote⟩

theorem past_prefix_through (n : WrittenNote source) : n.past <+: n.through := by
  rw [through, before, List.append_assoc]
  exact List.prefix_append _ _

/-- After a note, none is being read. -/
theorem not_isWithinNote_through (n : WrittenNote source) : ¬ IsWithinNote n.through := by
  rw [through, isWithinNote_append_singleton]
  rintro (hopens | ⟨-, hstays⟩)
  · exact Bool.false_ne_true ((EventKind.closesNote_of_opensNote hopens).symm.trans n.closes)
  · exact Bool.false_ne_true (hstays.symm.trans n.closes)

/-- Where none of some events ends a note, no note has ended. -/
theorem through_prefix_of_append {past more : List Event} (hmore : ∀ e ∈ more, e.kind.closesNote = false)
    (h : n.through <+: past ++ more) : n.through <+: past := by
  induction more using List.reverseRecOn with
  | nil => simpa using h
  | append_singleton more e ih =>
    rw [← List.append_assoc] at h
    rcases through_prefix_append_singleton_iff.1 h with heq | h
    · have hcloses := (closes_of_through_eq heq).1
      rw [hmore e (by simp)] at hcloses
      cases hcloses
    · exact ih (fun x hx => hmore x (List.mem_append_left _ hx)) h

/-- The notes that have ended after a note are those that had ended before it, and the note. -/
theorem through_prefix_through {m : WrittenNote source} (h : m.through <+: n.through) :
    m = n ∨ m.through <+: n.past := by
  refine (through_prefix_append_singleton_iff.1 h).imp eq_of_through_eq fun h => through_prefix_of_append ?_ h
  intro e he
  rcases List.mem_cons.1 he with rfl | he
  · exact EventKind.closesNote_of_opensNote n.opens
  · exact n.stays e he

/-- A note ends where what has been read leads into one. -/
theorem exists_of_isReading {past : List Event} {e : Event} {builder : Note.Builder} (h : IsReading source past builder)
    (hcloses : e.kind.closesNote = true) :
    ∃ n : WrittenNote source, n.before = past ∧ n.closing = e ∧ n.builder = builder := by
  obtain ⟨before, opening, inside, rfl, hout, hopens, hstays, hreads⟩ := h
  exact ⟨⟨before, opening, inside, e, builder, hout, hopens, hstays, hcloses, hreads⟩, rfl, rfl, rfl⟩

end WrittenNote
end ExampleSchema
