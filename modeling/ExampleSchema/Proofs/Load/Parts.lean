import ExampleSchema.Proofs.Order.Agreement
import ExampleSchema.Proofs.Scan.Continue
import ExampleSchema.Schema.Load

/-!
# The parts of a document

A document is a sequence of events, some of which make up notes.  The loader takes the events of a note one by
one, but until the note is complete it only keeps what it has read of it.  So it may as well take whole notes.

* `Source.parts`: the events of a document, with whole notes in place of the events that they are made of.
* `Loader.addPart`: what one part does.
* `Schema.agree_loadParts`: a document is loaded part by part.
-/

namespace ExampleSchema

open Except

/-! ## Parts of a document -/

/-- A part of a document: an event outside of notes, or a note. -/
inductive Source.Part where
  | event (mark : Mark)
  | note (note : Note)

namespace Source

/-- The parts that some events make up; a note may have begun before. -/
def partsOf : Option Note.Builder → List Mark → Outcome (List Part)
  | _, [] => .ok []
  | none, mark :: rest =>
    match mark.kind with
    | .opening .inlineNote | .opening .blockNote => partsOf (some { mark }) rest
    | _ => do return .event mark :: (← partsOf none rest)
  | some builder, mark :: rest =>
    match mark.kind with
    | .closing .inlineNote | .closing .blockNote => do return .note builder.note :: (← partsOf none rest)
    | _ => do partsOf (some (← builder.add mark)) rest

/-- A note that ends is a part. -/
theorem partsOf_of_closing {builder : Note.Builder} {mark : Mark} {rest : List Mark}
    (h : mark.kind = .closing .inlineNote ∨ mark.kind = .closing .blockNote) :
    partsOf (some builder) (mark :: rest) = do return .note builder.note :: (← partsOf none rest) := by
  rw [partsOf]
  rcases h with h | h <;> rw [h]

/-- Inside a note, events go to its builder. -/
theorem partsOf_of_within {builder : Note.Builder} {mark : Mark} {rest : List Mark}
    (hinline : mark.kind ≠ .closing .inlineNote) (hblock : mark.kind ≠ .closing .blockNote) :
    partsOf (some builder) (mark :: rest) = builder.add mark >>= fun next => partsOf (some next) rest := by
  rw [partsOf]
  split
  · next hkind => exact (hinline hkind).elim
  · next hkind => exact (hblock hkind).elim
  · rfl

/-- The parts of a document. -/
def parts (source : Source) : Outcome (List Part) := do partsOf none (← Scan.marks {} source)

end Source

namespace Loader

/-- Takes a part of a document. -/
def addPart (l : Loader) : Source.Part → Outcome Loader
  | .event mark => l.addEvent mark
  | .note note => l.applyNote note

/-! ### The note that is being read -/

/-- The note that is being read stays, if nothing fails. -/
abbrev KeepsNote (l : Loader) (o : Outcome Loader) : Prop := o.Meets (fun m => m.note? = l.note?) fun _ => True

/-- What comes last decides whether the note stays. -/
theorem keepsNote_bind {α : Type} {l : Loader} {o : Outcome α} {f : α → Outcome Loader}
    (h : ∀ a, KeepsNote l (f a)) : KeepsNote l (o >>= f) := by
  cases o with
  | error p => trivial
  | ok a => exact h a

theorem keepsNote_place (l : Loader) (node : Node) : KeepsNote l (l.place node) := by
  rw [place]
  split
  · rfl
  · exact keepsNote_bind fun _ => rfl

theorem keepsNote_leave (l : Loader) (mark : Mark) : KeepsNote l (l.leave mark) := by
  rw [leave]
  split
  · exact keepsNote_place _ _
  · trivial

theorem keepsNote_takeKey (l : Loader) (key : PropertyKey) : KeepsNote l (.ok (l.takeKey key)) := by
  rw [takeKey]
  split <;> rfl

theorem keepsNote_takeName (l : Loader) (mark : Mark) : KeepsNote l (l.takeName mark) := by
  rw [takeName]
  split
  · exact keepsNote_bind fun _ => keepsNote_takeKey l _
  · rfl

theorem keepsNote_describe (l : Loader) (note : Note) (rules : List Rule) : KeepsNote l (l.describe note rules) := by
  rw [describe]
  dsimp only
  split
  · rfl
  · exact keepsNote_bind fun _ => rfl
  · exact keepsNote_bind fun _ => keepsNote_bind fun _ => rfl
  · split
    · exact keepsNote_bind fun _ => rfl
    · trivial
  · trivial

theorem keepsNote_applyNote (l : Loader) (note : Note) : KeepsNote l (l.applyNote note) := by
  rw [applyNote]
  split
  · rfl
  · exact keepsNote_describe _ _ _
  · split
    · trivial
    · exact keepsNote_bind fun _ => keepsNote_describe { l with unnamed := _ } _ _

/-- An event outside of notes leaves them alone, unless it begins one. -/
theorem keepsNote_addEvent (l : Loader) {mark : Mark} (hinline : mark.kind ≠ .opening .inlineNote)
    (hblock : mark.kind ≠ .opening .blockNote) : KeepsNote l (l.addEvent mark) := by
  rw [addEvent]
  split
  · rfl
  · rfl
  · exact keepsNote_leave l mark
  · exact keepsNote_leave l mark
  · exact keepsNote_takeKey l _
  · exact keepsNote_takeName l mark
  · exact keepsNote_place l _
  · exact keepsNote_bind fun _ => keepsNote_place l _
  · next h => exact (hinline h).elim
  · next h => exact (hblock h).elim
  · rfl
  · rfl

theorem addToNote_of_closing (l : Loader) (builder : Note.Builder) {mark : Mark}
    (h : mark.kind = .closing .inlineNote ∨ mark.kind = .closing .blockNote) :
    l.addToNote builder mark = applyNote { l with note? := none } builder.note := by
  rw [addToNote]
  rcases h with h | h <;> rw [h]

theorem addToNote_of_within (l : Loader) (builder : Note.Builder) {mark : Mark}
    (hinline : mark.kind ≠ .closing .inlineNote) (hblock : mark.kind ≠ .closing .blockNote) :
    l.addToNote builder mark = builder.add mark >>= fun next => .ok { l with note? := some next } := by
  rw [addToNote]
  split
  · next hkind => exact (hinline hkind).elim
  · next hkind => exact (hblock hkind).elim
  · rfl

/-! ### Part by part -/

/-- The loader without the note that is being read. -/
def withoutNote (l : Loader) : Loader := { l with note? := none }

/-- A part is taken before the others. -/
theorem agree_partsOf_cons {l : Loader} {part : Source.Part} {rest : List Mark} {o : Outcome Loader}
    (ho : o.Meets (fun m => m.note? = none) fun _ => True) (hpart : l.withoutNote.addPart part = o)
    (ih : ∀ m : Loader, Agree (fun m n : Loader => m.withoutNote = n) (rest.foldlM add m)
      (Source.partsOf m.note? rest >>= fun parts => parts.foldlM addPart m.withoutNote)) :
    Agree (fun m n : Loader => m.withoutNote = n) (o >>= fun m => rest.foldlM add m)
      ((do return part :: (← Source.partsOf none rest)) >>= fun parts => parts.foldlM addPart l.withoutNote) := by
  subst hpart
  cases hparts : Source.partsOf none rest with
  | error p =>
    -- The others fail, whatever is done before them.
    cases htaken : l.withoutNote.addPart part with
    | error q => trivial
    | ok m =>
      have hm := ih m
      rw [ho.of_ok htaken, hparts] at hm
      exact hm
  | ok parts =>
    change Agree _ _ ((part :: parts).foldlM addPart l.withoutNote)
    rw [List.foldlM_cons]
    cases htaken : l.withoutNote.addPart part with
    | error q => trivial
    | ok m =>
      have hnone : m.note? = none := ho.of_ok htaken
      have hm := ih m
      rw [hnone, hparts, withoutNote, ← hnone] at hm
      exact hm

/-- **The loader takes a document part by part.** -/
theorem agree_partsOf (marks : List Mark) (l : Loader) :
    Agree (fun m n : Loader => m.withoutNote = n) (marks.foldlM add l)
      (Source.partsOf l.note? marks >>= fun parts => parts.foldlM addPart l.withoutNote) := by
  induction marks generalizing l with
  | nil =>
    rw [Source.partsOf.eq_def]
    rfl
  | cons mark rest ih =>
    rw [List.foldlM_cons, add]
    cases hnote : l.note? with
    | none =>
      have hwithout : l.withoutNote = l := by rw [withoutNote, ← hnote]
      dsimp only
      rw [Source.partsOf]
      split
      · next hkind =>
        have hbegin : l.addEvent mark = .ok { l with note? := some { mark } } := by rw [addEvent, hkind]
        rw [hbegin]
        exact ih { l with note? := some { mark } }
      · next hkind =>
        have hbegin : l.addEvent mark = .ok { l with note? := some { mark } } := by rw [addEvent, hkind]
        rw [hbegin]
        exact ih { l with note? := some { mark } }
      · next hinline hblock =>
        refine agree_partsOf_cons ?_ (show l.withoutNote.addPart (.event mark) = _ by rw [hwithout, addPart]) ih
        exact hnote ▸ keepsNote_addEvent l hinline hblock
    | some builder =>
      dsimp only
      by_cases hclosing : mark.kind = .closing .inlineNote ∨ mark.kind = .closing .blockNote
      · rw [addToNote_of_closing l builder hclosing, Source.partsOf_of_closing hclosing]
        exact agree_partsOf_cons (keepsNote_applyNote l.withoutNote builder.note)
          (show l.withoutNote.addPart (.note builder.note) = _ from rfl) ih
      · obtain ⟨hinline, hblock⟩ := not_or.1 hclosing
        rw [addToNote_of_within l builder hinline hblock, Source.partsOf_of_within hinline hblock]
        cases builder.add mark with
        | error p => trivial
        | ok next => exact ih { l with note? := some next }

end Loader

/-- The loader of a whole document. -/
theorem Loader.agree_parts (source : Source) {l : Loader} (h : l.note? = none) :
    Agree (fun m n : Loader => m.withoutNote = n) (Scan.foldMarks {} source add l)
      (source.parts >>= fun parts => parts.foldlM addPart l) := by
  have hwithout : l.withoutNote = l := by rw [withoutNote, ← h]
  have hmarks : ∀ events : List Event, Agree (fun m n : Loader => m.withoutNote = n)
      (events.foldlM (fun l event => add l ⟨source, event⟩) l)
      (Source.partsOf none (events.map fun event => ⟨source, event⟩) >>= fun parts => parts.foldlM addPart l) := by
    intro events
    have hagree := agree_partsOf (events.map fun event => ⟨source, event⟩) l
    rwa [h, hwithout, List.foldlM_map] at hagree
  refine agree_iff.2 ⟨fun m hm => ?_, fun n hn => ?_⟩
  · obtain ⟨events, hread, hm⟩ := Scan.foldMarks_eq_ok_iff.1 hm
    obtain ⟨n, hn, hsame⟩ := (hmarks events).exists_of_ok hm
    rw [Source.parts, Scan.marks_eq_ok_iff.2 ⟨events, hread, rfl⟩]
    exact ⟨n, hn, hsame⟩
  · obtain ⟨parts, hparts, hn⟩ := Except.bind_eq_ok_iff.1 hn
    obtain ⟨marks, hevents, hparts⟩ := Except.bind_eq_ok_iff.1 hparts
    obtain ⟨events, hread, rfl⟩ := Scan.marks_eq_ok_iff.1 hevents
    obtain ⟨m, hm⟩ := (hmarks events).exists_ok_iff.2 ⟨n, Except.bind_eq_ok_iff.2 ⟨parts, hparts, hn⟩⟩
    exact ⟨m, Scan.foldMarks_eq_ok_iff.2 ⟨events, hread, hm⟩⟩

/-- The schema that has been read in the end. -/
def Loader.schema (l : Loader) : Outcome Schema :=
  match l.root? with
  | some root => return { root, types := l.unnamed.types }
  | none => throw Cause.noSchema.anywhere

/-- Loading part by part. -/
def Source.loadParts (source : Source) (owner : String) : Outcome Schema := do
  let l ← (← source.parts).foldlM Loader.addPart { unnamed := { source, owner } }
  l.schema

/-- **A document is loaded part by part.** -/
theorem Schema.agree_loadParts (source : Source) (owner : String) :
    Agree Eq (Schema.load source owner) (source.loadParts owner) := by
  rw [load, Source.loadParts, ← bind_assoc]
  refine (Loader.agree_parts source (l := { unnamed := { source, owner } }) rfl).bind fun m n hsame => ?_
  rw [← hsame]
  exact agree_refl m.schema

end ExampleSchema
