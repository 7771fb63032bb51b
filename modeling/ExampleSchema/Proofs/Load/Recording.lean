import ExampleSchema.Proofs.Load.Placement
import ExampleSchema.Proofs.Scan.Continue

/-!
# Notes in loaded schemas

Whatever a document looks like, each of its notes is recorded on the value that is marked last before it on its line,
and on no other.  A note that is about no value is ignored, unless it has rules, and a second one about the same value
is refused.  By then its rules have been built: what is wrong with them on their own is told first.

* `WrittenNote.after_through`: the end of a note, where it begins.
* `Schema.load_eq_error_of_after`: a problem of an event is one of the document.
* `Schema.RecordsNotes`, `Schema.HandlesMisplaced`: where notes are recorded, and what becomes of a note without a
  place.
* `Schema.load_records_notes`: all of that.
* `Schema.load_ne_annotatedTwice`: a second note is refused in another way.
-/

namespace ExampleSchema

open Scan (IsInNote NoteKind)
open Event (trackAll)

namespace WrittenNote

variable {source : Source} {owner : String} {n : WrittenNote source} {l : Loader}

/-- The note is one of its document. -/
def IsIn (n : WrittenNote source) : Prop := n.through <+: (Scan.read {} source.content).events

theorem IsIn.past (h : n.IsIn) : n.past <+: (Scan.read {} source.content).events := n.past_prefix_through.trans h

theorem IsIn.before (h : n.IsIn) : n.before <+: (Scan.read {} source.content).events :=
  (List.prefix_append _ _).trans h

/-- While a note is read, nothing else happens. -/
theorem foldlM_add_of_note (inside : List Event) (hstays : ∀ e ∈ inside, e.kind.closesNote = false)
    (l : Loader) (b : Note.Builder) :
    inside.foldlM (fun (l : Loader) e => l.add ⟨source, e⟩) { l with note? := some b } =
      (fun b : Note.Builder => { l with note? := some b }) <$>
        inside.foldlM (fun (b : Note.Builder) e => b.add ⟨source, e⟩) b := by
  induction inside generalizing b with
  | nil => rfl
  | cons e rest ih =>
    have hopen : Loader.add { l with note? := some b } ⟨source, e⟩ =
        (fun b : Note.Builder => { l with note? := some b }) <$> b.add ⟨source, e⟩ := by
      have hcloses : ¬ (e.kind = .closing .inlineNote ∨ e.kind = .closing .blockNote) := fun hcloses =>
        Bool.false_ne_true ((hstays e List.mem_cons_self).symm.trans (EventKind.closesNote_iff.2 hcloses))
      change Loader.addToNote _ b _ = _
      rw [Loader.addToNote]
      split
      · next hkind => exact (hcloses (Or.inl hkind)).elim
      · next hkind => exact (hcloses (Or.inr hkind)).elim
      · cases b.add ⟨source, e⟩ <;> rfl
    rw [List.foldlM_cons, List.foldlM_cons, hopen]
    exact Except.bind_eq_map_bind rfl fun next _ => ih (fun x hx => hstays x (List.mem_cons_of_mem _ hx)) next

/-- A note begins. -/
theorem add_of_opensNote {e : Event} (hopens : e.kind.opensNote = true) (hnote : l.note? = none) :
    l.add ⟨source, e⟩ = .ok { l with note? := some { mark := ⟨source, e⟩ } } := by
  rw [Loader.add, hnote]
  obtain ⟨kind, start, stop⟩ := e
  cases kind with
  | opening c => cases c <;> first | rfl | cases hopens
  | closing | newLine | endTop => cases hopens

/-- The loader before the end of a note knows the note, and else what it knew before the note. -/
theorem after_before (h : Loader.after source owner n.past = .ok l) (hnote : l.note? = none) :
    Loader.after source owner n.before = .ok { l with note? := some n.builder } := by
  rw [Loader.after] at h ⊢
  rw [before, List.foldlM_append, h, Except.ok_bind, List.foldlM_cons, add_of_opensNote n.opens hnote, Except.ok_bind,
    foldlM_add_of_note _ n.stays]
  exact congrArg _ n.reads

/-- **The end of a note**, where it begins. -/
theorem after_through (h : Loader.after source owner n.past = .ok l) (hnote : l.note? = none) :
    Loader.after source owner n.through = l.applyNote n.note := by
  rw [through, Loader.after_append_singleton (after_before h hnote)]
  have hsame : { l with note? := none } = l := by rw [← hnote]
  change Loader.addToNote _ n.builder _ = _
  rw [Loader.addToNote]
  split
  · exact congrArg (fun l : Loader => l.applyNote n.note) hsame
  · exact congrArg (fun l : Loader => l.applyNote n.note) hsame
  · next hinline hblock => exact ((EventKind.closesNote_iff.1 n.closes).elim hinline hblock).elim

/-- No note is read where one begins. -/
theorem note?_eq_none (n : WrittenNote source) (h : l.Tracks source owner n.past) : l.note? = none := by
  cases hnote : l.note? with
  | none => rfl
  | some builder => exact (n.isOutside (h.reading builder hnote).isWithinNote).elim

/-- The rules of a note are built where it begins. -/
theorem added_eq_of_past (h : l.Tracks source owner n.past) : n.added owner = n.note.added l.unnamed := by
  rw [added_eq (after_before h.run (n.note?_eq_none h))]

end WrittenNote

namespace Loader

variable {source : Source} {owner : String} {n : WrittenNote source} {l : Loader}

/-- What has been read can be read up to any event. -/
theorem exists_after_of_prefix {past events : List Event} (hpast : past <+: events)
    (h : Loader.after source owner events = .ok l) : ∃ earlier, Loader.after source owner past = .ok earlier := by
  obtain ⟨rest, rfl⟩ := hpast
  rw [after, List.foldlM_append] at h
  obtain ⟨earlier, hearlier, -⟩ := Except.bind_eq_ok_iff.1 h
  exact ⟨earlier, hearlier⟩

/-- The notes that have been read are notes of the document. -/
theorem Tracks.exists_writtenNote {past inside : List Event} {opening closing : Event}
    (h : l.Tracks source owner (past ++ opening :: inside)) (hout : ¬ IsWithinNote past)
    (hopens : opening.kind.opensNote = true) (hstays : ∀ e ∈ inside, e.kind.closesNote = false)
    (hcloses : closing.kind.closesNote = true) : ∃ n : WrittenNote source,
      n.past = past ∧ n.opening = opening ∧ n.inside = inside ∧ n.closing = closing := by
  cases hnote : l.note? with
  | none => exact (h.outside hnote ⟨past, opening, inside, rfl, hopens, hstays⟩).elim
  | some builder =>
    obtain ⟨before, first, rest, heq, hout', hopens', hstays', hreads⟩ := h.reading builder hnote
    obtain ⟨rfl, rfl, rfl⟩ := opening_unique heq hout hout' hopens hopens' hstays hstays'
    exact ⟨⟨past, opening, inside, closing, builder, hout, hopens, hstays, hcloses, hreads⟩, rfl, rfl, rfl, rfl⟩

/-- A note that is about no value is ignored, unless it has rules. -/
theorem Tracks.applyNote_of_lost (h : l.Tracks source owner n.past) (hlost : ∀ start, ¬ n.Describes start) :
    (n.note.rules?.isSome = true → l.applyNote n.note = .error (Cause.annotationWithoutValue.on n.note.mark)) ∧
      (n.note.rules? = none → l.applyNote n.note = .ok l) := by
  have htarget : l.target = .nothing := by
    refine h.lost ?_
    cases hnode : l.target? with
    | none => rfl
    | some node => exact (hlost node.start ((h.target node.start).2 (by rw [hnode]; rfl))).elim
  rw [applyNote]
  constructor
  · intro hrules
    obtain ⟨rules, hsome⟩ := Option.isSome_iff_exists.1 hrules
    rw [hsome]
    exact if_pos htarget
  · intro hnone
    rw [hnone]
    cases n.note.text? with
    | none => rfl
    | some text =>
      change l.describe n.note [] = _
      rw [describe, htarget]

/-- A second note about a value is refused, as soon as its rules are built. -/
theorem Tracks.applyNote_of_twice (h : l.Tracks source owner n.past) {m : WrittenNote source} {start : Nat}
    (hm : m.through <+: n.past) (hspeaks : ¬ m.IsEmpty) (hotherSpeaks : ¬ n.IsEmpty) (hdescribes : m.Describes start)
    (htoo : n.Describes start) :
    (∀ added, n.added owner = .ok added → l.applyNote n.note = .error (Cause.annotatedTwice.on n.note.mark)) ∧
      ∀ problem, n.added owner = .error problem → l.applyNote n.note = .error problem := by
  obtain ⟨node, htarget, rfl⟩ := Option.map_eq_some_iff.1 ((h.target start).1 htoo)
  have hannotated : node.header.isAnnotated = true := by
    have hbare := (h.recorded node.bare (bare_mem_of_target? htarget)).isAnnotated hm hspeaks
    rw [Node.start_bare, Node.header_bare] at hbare
    exact hbare hdescribes
  have hrefused (unnamed : Unnamed) (added : List Rule) : Loader.describe { l with unnamed } n.note added =
      .error (Cause.annotatedTwice.on n.note.mark) := by
    obtain ⟨put, hput, -⟩ := exists_describe_eq (l := { l with unnamed }) htarget n.note added
    rw [hput, Node.annotate_of_isAnnotated hannotated]
    rfl
  rw [WrittenNote.added_eq_of_past h, Note.added, applyNote]
  cases hrules : n.note.rules? with
  | none =>
    cases htext : n.note.text? with
    | none => exact (hotherSpeaks ⟨hrules, htext⟩).elim
    | some text => exact ⟨fun _ _ => hrefused l.unnamed [], fun _ hproblem => (by cases hproblem)⟩
  | some rules =>
    have hkept : l.target ≠ .nothing := fun hnothing => by simp [target?, hnothing] at htarget
    dsimp only
    rw [if_neg hkept]
    cases hbuilt : RuleValue.constraintsOf l.unnamed rules with
    | error problem =>
      exact ⟨fun _ hadded => (by cases hadded), fun _ hproblem => congrArg Except.error (Except.error.inj hproblem)⟩
    | ok built => exact ⟨fun _ _ => hrefused built.2 built.1, fun _ hproblem => (by cases hproblem)⟩

end Loader

namespace Schema

variable {source : Source} {owner : String} {past : List Event} {problem : Problem} {schema : Schema}

/-- **A problem of an event is one of the document.** -/
theorem load_eq_error_of_after (hpast : past <+: (Scan.read {} source.content).events)
    (h : Loader.after source owner past = .error problem) : Schema.load source owner = .error problem := by
  obtain ⟨rest, hevents⟩ := hpast
  rw [Loader.after] at h
  rw [load, Scan.foldMarks, ← hevents, List.foldlM_append, h]
  rfl

/-- What a loaded schema has been read from. -/
theorem exists_tracks_of_load_eq_ok (h : Schema.load source owner = .ok schema) :
    ∃ l : Loader, l.Tracks source owner (Scan.read {} source.content).events ∧ l.note? = none ∧ l.openNodes = [] ∧
      l.root? = some schema.root := by
  obtain ⟨l, hl, h⟩ := Except.bind_eq_ok_iff.1 h
  obtain ⟨events, hread, hrun⟩ := Scan.foldMarks_eq_ok_iff.1 hl
  have hevents : events = (Scan.read {} source.content).events := by rw [hread]
  have htracks := Loader.tracks_of_after (hevents ▸ List.prefix_refl _) hrun
  obtain ⟨opened, htrack, hstands⟩ := htracks.stands
  obtain ⟨closed, hclosed, hnil⟩ := (Scan.read_isOrderly {} source.content).1.nests
  obtain rfl : opened = [] := by
    rw [← hevents, htrack] at hclosed
    rw [Option.some.inj hclosed]
    exact hnil (by rw [hread])
  have hnote : l.note? = none := by
    by_contra hsome
    obtain ⟨builder, hbuilder⟩ := Option.ne_none_iff_exists'.1 hsome
    obtain ⟨inside, note, outside, hcut, -⟩ := (Loader.nests_iff_of_some hbuilder).1 hstands.nests
    simp at hcut
  refine ⟨l, hevents ▸ htracks, hnote, List.map_eq_nil_iff.1 ((Loader.nests_iff_of_none hnote).1 hstands.nests).2, ?_⟩
  split at h
  · next root hroot =>
    obtain rfl := Except.ok.inj h
    exact hroot
  · cases h

/-- The notes of a document are recorded in the schema that it loads as. -/
structure RecordsNotes (source : Source) (owner : String) (schema : Schema) : Prop where
  /-- No two nodes begin together. -/
  nodup : (schema.root.subnodes.map Node.start).Nodup
  /-- All notes can be read. -/
  reads : ∀ past opening inside closing,
    past ++ opening :: inside ++ [closing] <+: (Scan.read {} source.content).events → ¬ IsWithinNote past →
    opening.kind.opensNote = true → (∀ e ∈ inside, e.kind.closesNote = false) → closing.kind.closesNote = true →
    ∃ n : WrittenNote source, n.past = past ∧ n.opening = opening ∧ n.inside = inside ∧ n.closing = closing
  /-- Each node is what its value and the one note about it make of it. -/
  recorded : ∀ part ∈ schema.root.subnodes,
    part.bare.IsRecorded source owner (Scan.read {} source.content).events
  /-- Whatever a note is about has its node. -/
  described : ∀ n : WrittenNote source, n.IsIn → ∀ start, n.Describes start →
    ∃ part ∈ schema.root.subnodes, part.start = start

/-- What becomes of a note that has no place, where a document has been read up to the note. -/
structure HandlesMisplaced (source : Source) (owner : String) (n : WrittenNote source) (l : Loader) : Prop where
  /-- It has rules and is about no value. -/
  lost : (∀ start, ¬ n.Describes start) → n.note.rules?.isSome = true →
    Schema.load source owner = .error (Cause.annotationWithoutValue.on n.note.mark)
  /-- It has no rules and is about no value. -/
  ignored : (∀ start, ¬ n.Describes start) → n.note.rules? = none → Loader.after source owner n.through = .ok l
  /-- It is the second one about its value, and its rules can be built. -/
  twice : ∀ (m : WrittenNote source) (start : Nat), m.through <+: n.past → ¬ m.IsEmpty → ¬ n.IsEmpty →
    m.Describes start → n.Describes start → ∀ added, n.added owner = .ok added →
    Schema.load source owner = .error (Cause.annotatedTwice.on n.note.mark)
  /-- It is the second one about its value, and its rules cannot be built. -/
  unbuilt : ∀ (m : WrittenNote source) (start : Nat), m.through <+: n.past → ¬ m.IsEmpty → ¬ n.IsEmpty →
    m.Describes start → n.Describes start → ∀ problem, n.added owner = .error problem →
    Schema.load source owner = .error problem

theorem recordsNotes_of_load_eq_ok (h : Schema.load source owner = .ok schema) : RecordsNotes source owner schema := by
  obtain ⟨l, htracks, -, hopen, hroot⟩ := exists_tracks_of_load_eq_ok h
  obtain ⟨opened, -, hstands⟩ := htracks.stands
  have hbares : l.bares = schema.root.bares := by simp [Loader.bares, hopen, hroot]
  have hstarts : l.bares.map Node.start = schema.root.subnodes.map Node.start := by
    rw [hbares, Node.bares, List.map_map]
    exact List.map_congr_left fun part _ => Node.start_bare part
  refine ⟨hstarts ▸ (List.nodup_append.1 hstands.begun.nodup).2.1, ?_, fun part hpart => ?_,
    fun n hn start habout => ?_⟩
  · intro past opening inside closing hprefix hout hopens hstays hcloses
    have hbefore := (List.prefix_append _ [closing]).trans hprefix
    obtain ⟨earlier, hearlier⟩ := Loader.exists_after_of_prefix hbefore htracks.run
    exact (Loader.tracks_of_after hbefore hearlier).exists_writtenNote hout hopens hstays hcloses
  · exact htracks.recorded part.bare (hbares ▸ List.mem_map_of_mem hpart)
  · obtain ⟨before, x, after, heq, hx, hout, rfl⟩ := habout.exists_mark hn
    exact List.mem_map.1 (hstarts ▸ hstands.marked before x after heq hx hout)

theorem handlesMisplaced_of_after {n : WrittenNote source} {l : Loader} (hn : n.IsIn)
    (hrun : Loader.after source owner n.past = .ok l) : HandlesMisplaced source owner n l := by
  have htracks : l.Tracks source owner n.past := Loader.tracks_of_after hn.past hrun
  have hthrough := WrittenNote.after_through hrun (n.note?_eq_none htracks)
  have hload {problem : Problem} (happly : l.applyNote n.note = .error problem) :
      Schema.load source owner = .error problem := load_eq_error_of_after hn (hthrough.trans happly)
  exact
    { lost := fun hlost hrules => hload ((htracks.applyNote_of_lost hlost).1 hrules)
      ignored := fun hlost hrules => hthrough.trans ((htracks.applyNote_of_lost hlost).2 hrules)
      twice := fun m start hm hspeaks hotherSpeaks hdescribes htoo added hadded =>
        hload ((htracks.applyNote_of_twice hm hspeaks hotherSpeaks hdescribes htoo).1 added hadded)
      unbuilt := fun m start hm hspeaks hotherSpeaks hdescribes htoo problem hproblem =>
        hload ((htracks.applyNote_of_twice hm hspeaks hotherSpeaks hdescribes htoo).2 problem hproblem) }

/-- **Notes are recorded on the value that is marked last before them on their line**, and on no other.  A note about
no value is ignored or refused, and so is a second note about a value refused. -/
theorem load_records_notes (source : Source) (owner : String) :
    (∀ schema, Schema.load source owner = .ok schema → RecordsNotes source owner schema) ∧
      ∀ (n : WrittenNote source) (l : Loader), n.IsIn → Loader.after source owner n.past = .ok l →
        HandlesMisplaced source owner n l :=
  ⟨fun _ h => recordsNotes_of_load_eq_ok h, fun _ _ hn hrun => handlesMisplaced_of_after hn hrun⟩

/-- A document with two notes about one value. -/
def twiceNoted : Source := .ofString "test" "1 /* a */ // \x7bfoo: 1\x7d"

/-- Whether a document is refused for a second note. -/
def isRefusedAsTwice (source : Source) (owner : String) : Bool :=
  match Schema.load source owner with
  | .ok _ => false
  | .error problem => decide (problem.cause = .annotatedTwice)

/-- A note that says something, where some events say so. -/
theorem exists_note_of_speaks {past inside : List Event} {opening closing : Event} (hout : ¬ IsWithinNote past)
    (hopens : opening.kind.opensNote = true) (hstays : ∀ e ∈ inside, e.kind.closesNote = false)
    (hcloses : closing.kind.closesNote = true)
    (hspeaks : ((Note.Builder.ofEvents source opening inside).map fun b => b.rules?.isSome || b.text?.isSome).toOption =
      some true) : ∃ n : WrittenNote source,
      n.past = past ∧ n.through = past ++ opening :: inside ++ [closing] ∧ ¬ n.IsEmpty := by
  cases hreads : Note.Builder.ofEvents source opening inside with
  | error problem =>
    rw [hreads] at hspeaks
    cases hspeaks
  | ok b =>
    rw [hreads] at hspeaks
    refine ⟨⟨past, opening, inside, closing, b, hout, hopens, hstays, hcloses, hreads⟩, rfl, rfl, fun hempty => ?_⟩
    have hrules : b.rules? = none := hempty.1
    have htext : b.text? = none := hempty.2
    simp [Except.map, Except.toOption, hrules, htext] at hspeaks

/-- The notes of the document with two notes are both about the value. -/
theorem exists_notes_of_twiceNoted : ∃ (m n : WrittenNote twiceNoted) (l : Loader),
    Loader.after twiceNoted "test" n.past = .ok l ∧ n.IsIn ∧ m.through <+: n.past ∧ ¬ m.IsEmpty ∧ ¬ n.IsEmpty ∧
      m.Describes 0 ∧ n.Describes 0 := by
  let value : List Event := [⟨.opening .literal, 0, 0⟩, ⟨.closing .literal, 0, 1⟩]
  let text : List Event := [⟨.opening .blockNoteText, 5, 5⟩, ⟨.closing .blockNoteText, 5, 6⟩]
  let rules : List Event := [⟨.opening .object, 13, 13⟩, ⟨.opening .objectKey, 14, 14⟩, ⟨.closing .objectKey, 14, 17⟩,
    ⟨.opening .objectValue, 19, 19⟩, ⟨.opening .literal, 19, 19⟩, ⟨.closing .literal, 19, 20⟩,
    ⟨.closing .objectValue, 19, 20⟩, ⟨.closing .object, 13, 21⟩]
  obtain ⟨m, hmPast, hmThrough, hmSpeaks⟩ := @exists_note_of_speaks twiceNoted value text ⟨.opening .blockNote, 2, 2⟩
    ⟨.closing .blockNote, 2, 9⟩ (by decide) rfl (by decide) rfl (by decide +kernel)
  obtain ⟨n, hnPast, hnThrough, hnSpeaks⟩ := @exists_note_of_speaks twiceNoted
    (value ++ ⟨.opening .blockNote, 2, 2⟩ :: text ++ [⟨.closing .blockNote, 2, 9⟩]) rules ⟨.opening .inlineNote, 10, 10⟩
    ⟨.closing .inlineNote, 10, 21⟩ (by decide) rfl (by decide) rfl (by decide +kernel)
  have hmarked (after : List Event) (hafter : ∀ x ∈ after, x.kind ≠ .newLine ∧ x.kind.marksValue = false) :
      IsMarkedLast EventKind.marksValue (value ++ after) 0 := by
    refine ⟨[⟨.opening .literal, 0, 0⟩], ⟨.closing .literal, 0, 1⟩, after, rfl, rfl, by decide, rfl,
      fun x hx => (hafter x hx).1, ?_⟩
    rintro between x rest rfl hx
    exact (Bool.false_ne_true ((hafter x (by simp)).2.symm.trans hx)).elim
  have hloads : (Loader.after twiceNoted "test" n.past).toOption.isSome = true := by
    rw [hnPast]
    decide +kernel
  obtain ⟨l, hl⟩ := Option.isSome_iff_exists.1 hloads
  refine ⟨m, n, l, Except.toOption_eq_some_iff.1 hl, ?_, by rw [hmThrough, hnPast], hmSpeaks, hnSpeaks, ?_, ?_⟩
  · rw [WrittenNote.IsIn, hnThrough]
    decide +kernel
  · rw [WrittenNote.Describes, hmPast]
    exact hmarked [] (by simp)
  · rw [WrittenNote.Describes, hnPast]
    exact hmarked _ (by decide)

/-- A value and its note. -/
def onceNoted : Source := .ofString "test" "1 // a"

/-- One note is recorded, and the rule of a second one is refused. -/
theorem load_of_onceNoted_twiceNoted :
    (∃ schema, Schema.load onceNoted "test" = .ok schema ∧ schema.root.header.comment? = some "a" ∧
      RecordsNotes onceNoted "test" schema) ∧
    ∃ (n : WrittenNote twiceNoted) (problem : Problem), n.IsIn ∧ n.Describes 0 ∧ n.added "test" = .error problem ∧
      Schema.load twiceNoted "test" = .error problem := by
  constructor
  · have hcomment : ((Schema.load onceNoted "test").map fun schema => schema.root.header.comment?).toOption =
        some (some "a") := by decide +kernel
    obtain ⟨schema, hload, hcomment⟩ := Except.map_eq_ok_iff.1 (Except.toOption_eq_some_iff.1 hcomment)
    exact ⟨schema, hload, hcomment, (load_records_notes onceNoted "test").1 schema hload⟩
  · obtain ⟨m, n, l, hl, hn, hm, hmSpeaks, hnSpeaks, hmDescribes, hnDescribes⟩ := exists_notes_of_twiceNoted
    have hhandles := (load_records_notes twiceNoted "test").2 n l hn hl
    cases hadded : n.added "test" with
    | error problem =>
      exact ⟨n, problem, hn, hnDescribes, hadded,
        hhandles.unbuilt m 0 hm hmSpeaks hnSpeaks hmDescribes hnDescribes problem hadded⟩
    | ok added =>
      have hload := hhandles.twice m 0 hm hmSpeaks hnSpeaks hmDescribes hnDescribes added hadded
      have hrefused : isRefusedAsTwice twiceNoted "test" = false := by decide +kernel
      rw [isRefusedAsTwice, hload] at hrefused
      exact (of_decide_eq_false hrefused rfl).elim

/-- **A second note about a value may be refused in another way**: in `1 /* a */ // {foo: 1}` its rule is unknown. -/
theorem load_ne_annotatedTwice : ¬ ∀ (source : Source) (owner : String) (m n : WrittenNote source) (start : Nat),
    n.IsIn → m.through <+: n.past → ¬ m.IsEmpty → ¬ n.IsEmpty → m.Describes start → n.Describes start →
    Schema.load source owner = .error (Cause.annotatedTwice.on n.note.mark) := by
  intro h
  obtain ⟨m, n, -, -, hn, hm, hmSpeaks, hnSpeaks, hmDescribes, hnDescribes⟩ := exists_notes_of_twiceNoted
  have hload := h twiceNoted "test" m n 0 hn hm hmSpeaks hnSpeaks hmDescribes hnDescribes
  have hrefused : isRefusedAsTwice twiceNoted "test" = false := by decide +kernel
  rw [isRefusedAsTwice, hload] at hrefused
  exact of_decide_eq_false hrefused rfl

end Schema
end ExampleSchema
