import ExampleSchema.Proofs.Load.Written
import ExampleSchema.Proofs.Outcome
import ExampleSchema.Schema.EnumRule

/-!
# Notes in enum rules

An enum rule looks at no more of a note than its text, and refuses a note with rules.  So whatever the events of a
note are, in the end the last item has the text as its comment, if it stands on the line of the note.

* `Note.Builder.IsWithoutRules`: a note that has no rules so far.
* `EnumReader.commented`: the last item with a text as its comment.
* `EnumReader.commented_of_through`: what a note does to an enum rule.
-/

namespace ExampleSchema

/-! ## Notes without rules -/

namespace Note.Builder

variable {b b' : Note.Builder} {mark : Mark}

/-- A note that has no rules so far, and none that are being read. -/
structure IsWithoutRules (b : Note.Builder) : Prop where
  rules? : b.rules? = none
  frames : ∀ frame ∈ b.frames, ∃ items, frame = .array items

/-- A value that is placed in a note without rules goes into a list. -/
theorem IsWithoutRules.place (h : b.IsWithoutRules) {value : RuleValue}
    (hvalue : ∀ mark rules, value ≠ .object mark rules) (hplace : b.place value = .ok b') :
    b'.IsWithoutRules ∧ b'.text? = b.text? := by
  unfold Note.Builder.place at hplace
  split at hplace
  · exact (hvalue _ _ rfl).elim
  · cases hplace
  · next items rest hframes =>
    obtain rfl := Except.ok.inj hplace
    refine ⟨⟨h.rules?, fun frame hframe => ?_⟩, rfl⟩
    rcases List.mem_cons.1 hframe with rfl | hframe
    · exact ⟨_, rfl⟩
    · exact h.frames frame (hframes ▸ List.mem_cons_of_mem _ hframe)
  · next hframes =>
    obtain ⟨items, hitems⟩ := h.frames _ (hframes ▸ List.mem_cons_self)
    cases hitems
  · next hframes =>
    obtain ⟨items, hitems⟩ := h.frames _ (hframes ▸ List.mem_cons_self)
    cases hitems

/-- Without an object, a note has no rules.  Its text is what its text events say. -/
theorem IsWithoutRules.add (h : b.IsWithoutRules) (hkind : mark.kind ≠ .opening .object) (hadd : b.add mark = .ok b') :
    b'.IsWithoutRules ∧
      ((mark.kind = .closing .inlineNoteText ∨ mark.kind = .closing .blockNoteText) ∧ b' = b.takeText mark ∨
        mark.kind ≠ .closing .inlineNoteText ∧ mark.kind ≠ .closing .blockNoteText ∧ b'.text? = b.text?) := by
  have hquiet (hquiet : mark.kind ≠ .closing .inlineNoteText ∧ mark.kind ≠ .closing .blockNoteText)
      (hsame : b'.IsWithoutRules ∧ b'.text? = b.text?) : b'.IsWithoutRules ∧
        ((mark.kind = .closing .inlineNoteText ∨ mark.kind = .closing .blockNoteText) ∧ b' = b.takeText mark ∨
          mark.kind ≠ .closing .inlineNoteText ∧ mark.kind ≠ .closing .blockNoteText ∧ b'.text? = b.text?) :=
    ⟨hsame.1, Or.inr ⟨hquiet.1, hquiet.2, hsame.2⟩⟩
  have htext : (b.takeText mark).IsWithoutRules := by
    rw [takeText]
    split
    · exact h
    · exact ⟨h.rules?, h.frames⟩
  unfold Note.Builder.add at hadd
  split at hadd
  case h_1 hobject => exact (hkind hobject).elim
  case h_2 harray =>
    obtain rfl := Except.ok.inj hadd
    refine hquiet (by rw [harray]; decide) ⟨⟨h.rules?, fun frame hframe => ?_⟩, rfl⟩
    rcases List.mem_cons.1 hframe with rfl | hframe
    · exact ⟨_, rfl⟩
    · exact h.frames frame hframe
  case h_3 hname =>
    refine hquiet (by rw [hname]; decide) ?_
    obtain ⟨name, -, hadd⟩ := Except.bind_eq_ok_iff.1 hadd
    split at hadd
    · next hframes =>
      obtain ⟨items, hitems⟩ := h.frames _ (hframes ▸ List.mem_cons_self)
      cases hitems
    · obtain rfl := Except.ok.inj hadd
      exact ⟨h, rfl⟩
  case h_4 hliteral => exact hquiet (by rw [hliteral]; decide) (h.place (fun _ _ heq => by cases heq) hadd)
  case h_5 hshortcut => exact hquiet (by rw [hshortcut]; decide) (h.place (fun _ _ heq => by cases heq) hadd)
  case h_6 hcontainer | h_7 hcontainer =>
    refine hquiet (by rw [hcontainer]; decide) ?_
    rw [Note.Builder.leave] at hadd
    split at hadd
    · next hframes _ =>
      obtain ⟨items, hitems⟩ := h.frames _ (hframes ▸ List.mem_cons_self)
      cases hitems
    · next items rest hframes _ =>
      have hrest : IsWithoutRules { b with frames := rest } :=
        ⟨h.rules?, fun frame hframe => h.frames frame (hframes ▸ List.mem_cons_of_mem _ hframe)⟩
      exact hrest.place (fun _ _ heq => by cases heq) hadd
    · cases hadd
  case h_8 hinline =>
    obtain rfl := Except.ok.inj hadd
    exact ⟨htext, Or.inl ⟨Or.inl hinline, rfl⟩⟩
  case h_9 hblock =>
    obtain rfl := Except.ok.inj hadd
    exact ⟨htext, Or.inl ⟨Or.inr hblock, rfl⟩⟩
  case h_10 hinline hblock =>
    obtain rfl := Except.ok.inj hadd
    exact hquiet ⟨hinline, hblock⟩ ⟨h, rfl⟩

end Note.Builder

/-! ## Enum rules -/

namespace EnumReader

variable {source : Source} {r r' : EnumReader} {b b' : Note.Builder} {e : Event}

/-- What has been read of an enum rule after some events of a document. -/
def after (source : Source) (events : List Event) : Outcome EnumReader :=
  events.foldlM (fun (r : EnumReader) e => r.add ⟨source, e⟩) {}

/-- The items, the last one with the text of a note as its comment. -/
def comment : Option String → List (Mark × Option String) → List (Mark × Option String)
  | some text, (item, _) :: rest => (item, some text) :: rest
  | _, items => items

/-- The last item is commented by the text of a note, if the note stands on its line and has a text. -/
def commented (r : EnumReader) (text? : Option String) : EnumReader :=
  { r with items := if r.isCommentable then comment text? r.items else r.items }

theorem comment_comment (text? later? : Option String) (items : List (Mark × Option String)) :
    comment later? (comment text? items) = comment (later?.or text?) items := by
  cases text? <;> cases later? <;> rcases items with _ | ⟨⟨item, c⟩, rest⟩ <;> rfl

theorem commented_commented (r : EnumReader) (text? later? : Option String) :
    (r.commented text?).commented later? = r.commented (later?.or text?) := by
  simp only [commented]
  split <;> simp_all [comment_comment]

/-- A text event comments the last item by what it says. -/
theorem takeText_eq (r : EnumReader) (mark : Mark) :
    r.takeText mark = r.commented (if mark.bytes.trim.toText.isEmpty then none else some mark.bytes.trim.toText) := by
  obtain ⟨items, isInArray, isInNote, isCommentable⟩ := r
  rcases items with _ | ⟨⟨item, c⟩, rest⟩ <;> cases isCommentable <;>
    cases hempty : mark.bytes.trim.toText.isEmpty <;> simp [takeText, commented, comment, hempty]

theorem text?_takeText (b : Note.Builder) (mark : Mark) : (b.takeText mark).text? =
    (if mark.bytes.trim.toText.isEmpty then none else some mark.bytes.trim.toText).or b.text? := by
  rw [Note.Builder.takeText]
  split <;> simp

/-- An event of a note says no more to an enum rule than the text of the note. -/
theorem add_of_isInNote (hnote : b.IsWithoutRules) (hstays : e.kind.closesNote = false)
    (hb : b.add ⟨source, e⟩ = .ok b')
    (hr : EnumReader.add { r.commented b.text? with isInNote := true } ⟨source, e⟩ = .ok r') :
    b'.IsWithoutRules ∧ r' = { r.commented b'.text? with isInNote := true } := by
  change addToNote _ _ = _ at hr
  unfold addToNote at hr
  split at hr
  case h_1 => cases hr
  case h_2 htext | h_3 htext =>
    obtain rfl := Except.ok.inj hr
    obtain ⟨hnote', ⟨-, rfl⟩ | ⟨hinline, hblock, -⟩⟩ := hnote.add (by rw [htext]; nofun) hb
    · refine ⟨hnote', ?_⟩
      rw [takeText_eq, text?_takeText, ← commented_commented]
      rfl
    · first | exact (hinline htext).elim | exact (hblock htext).elim
  case h_4 hcloses | h_5 hcloses =>
    rw [show e.kind = _ from hcloses] at hstays
    cases hstays
  case h_6 hobject hinline hblock _ _ =>
    obtain rfl := Except.ok.inj hr
    obtain ⟨hnote', ⟨htext, -⟩ | ⟨-, -, hsame⟩⟩ := hnote.add hobject hb
    · exact (htext.elim hinline hblock).elim
    · exact ⟨hnote', by rw [hsame]⟩

/-- The events of a note say no more to an enum rule than the text of the note. -/
theorem foldlM_add_of_isInNote {inside : List Event} (hnote : b.IsWithoutRules)
    (hstays : ∀ e ∈ inside, e.kind.closesNote = false)
    (hb : inside.foldlM (fun (b : Note.Builder) e => b.add ⟨source, e⟩) b = .ok b')
    (hr : inside.foldlM (fun (r : EnumReader) e => r.add ⟨source, e⟩) { r.commented b.text? with isInNote := true } =
      .ok r') : b'.IsWithoutRules ∧ r' = { r.commented b'.text? with isInNote := true } := by
  induction inside generalizing b with
  | nil =>
    obtain rfl := Except.ok.inj hb
    obtain rfl := Except.ok.inj hr
    exact ⟨hnote, rfl⟩
  | cons e rest ih =>
    rw [List.foldlM_cons] at hb hr
    obtain ⟨next, hnext, hb⟩ := Except.bind_eq_ok_iff.1 hb
    obtain ⟨middle, hmiddle, hr⟩ := Except.bind_eq_ok_iff.1 hr
    obtain ⟨hnote', rfl⟩ := add_of_isInNote hnote (hstays e List.mem_cons_self) hnext hmiddle
    exact ih hnote' (fun x hx => hstays x (List.mem_cons_of_mem _ hx)) hb hr

theorem commented_of_not {text? : Option String} (h : r.isCommentable = false) : r.commented text? = r := by
  obtain ⟨items, isInArray, isInNote, isCommentable⟩ := r
  obtain rfl : isCommentable = false := h
  rfl

theorem commented_none (r : EnumReader) : r.commented none = r := by
  obtain ⟨items, isInArray, isInNote, isCommentable⟩ := r
  cases isCommentable <;> rfl

/-- A note begins. -/
theorem add_of_opensNote (hopens : e.kind.opensNote = true) (hout : r.isInNote = false) :
    r.add ⟨source, e⟩ = .ok { r with isInNote := true } := by
  rw [EnumReader.add, hout]
  obtain ⟨kind, start, stop⟩ := e
  cases kind with
  | opening c => cases c <;> first | rfl | cases hopens
  | closing | newLine | endTop => cases hopens

/-- A note ends. -/
theorem add_of_closesNote (hcloses : e.kind.closesNote = true) :
    EnumReader.add { r with isInNote := true } ⟨source, e⟩ = .ok { r with isInNote := false } := by
  obtain ⟨kind, start, stop⟩ := e
  cases kind with
  | closing c => cases c <;> first | rfl | cases hcloses
  | opening | newLine | endTop => cases hcloses

/-- **A note comments the last item of an enum rule**, and has no rules. -/
theorem commented_of_through {n : WrittenNote source} {earlier : EnumReader} (h : after source n.past = .ok earlier)
    (hout : earlier.isInNote = false) (hr : after source n.through = .ok r) :
    n.note.rules? = none ∧ r = earlier.commented n.note.text? := by
  rw [after] at h hr
  rw [WrittenNote.through, WrittenNote.before, List.append_assoc, List.foldlM_append, h, Except.ok_bind,
    List.cons_append, List.foldlM_cons, add_of_opensNote n.opens hout, Except.ok_bind, List.foldlM_append] at hr
  obtain ⟨last, hlast, hr⟩ := Except.bind_eq_ok_iff.1 hr
  have hnone : ({ earlier with isInNote := true } : EnumReader) =
      { earlier.commented none with isInNote := true } := by rw [commented_none]
  rw [hnone] at hlast
  obtain ⟨hnote, rfl⟩ :=
    foldlM_add_of_isInNote (b := { mark := ⟨source, n.opening⟩ }) ⟨rfl, by simp⟩ n.stays n.reads hlast
  refine ⟨hnote.rules?, ?_⟩
  rw [List.foldlM_cons, add_of_closesNote n.closes, Except.ok_bind] at hr
  obtain rfl := Except.ok.inj hr
  change _ = EnumReader.commented _ n.builder.text?
  have hsame : (earlier.commented n.builder.text?).isInNote = false := hout
  rw [← hsame]

end EnumReader
end ExampleSchema
