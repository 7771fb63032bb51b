import ExampleSchema.Proofs.Json.Refusal
import ExampleSchema.Proofs.Load.Causes
import ExampleSchema.Proofs.Scan.Reading
import ExampleSchema.Proofs.Scan.Slots

/-!
# Promises that are kept

Several branches of the library are there only because an event might come that does not fit: an end where
nothing is open, a value without a name, a note that describes a value which is not there.  The library
promises that it never gets there.  The events of a scan can all be taken by a stack of slots, and what
builds a note or a tree from them has at least what these slots say.

* `Note.Builder.Suits.add`: an event of a note is taken, or the note is refused for what is wrong with it.
* `Loader.Suits.add`: so is any event of a document by the loader.
* `Schema.load_ofReading`, `Enumeration.load_ofReading`: a load fails in the layers that read documents.
* `never_internal`: no text makes a scan, a parse or a load break a promise.
-/

namespace ExampleSchema

open Scan (Slot)

/-! ## Notes -/

namespace Note

/-- A list or an object that is being filled suits what the events fill. -/
def Frame.Suits : Slot → Frame → Prop
  | .object isNamed, .object _ name? => isNamed = true → name?.isSome = true
  | .array, .array _ => True
  | _, _ => False

namespace Builder

/-- What the builder of a note is filling suits what the events fill in that note. -/
def Suits (outer slots : List Slot) (b : Builder) : Prop :=
  ∃ inner, slots = inner ++ .note :: outer ∧ List.Forall₂ Frame.Suits inner b.frames

variable {outer slots slots' : List Slot} {b : Builder}

/-- Where a value may be put, nothing is open, or an object that has a name for it, or a list. -/
theorem Suits.cases_fill (h : b.Suits outer slots) (hfill : Slot.fill slots = some slots') :
    b.frames = [] ∧ slots' = .note :: outer ∨
    (∃ rules name rest inner, b.frames = .object rules (some name) :: rest ∧
      slots' = .object false :: inner ++ .note :: outer ∧ List.Forall₂ Frame.Suits inner rest) ∨
    ∃ items rest inner, b.frames = .array items :: rest ∧
      slots' = .array :: inner ++ .note :: outer ∧ List.Forall₂ Frame.Suits inner rest := by
  obtain ⟨inner, rfl, hframes⟩ := h
  generalize b.frames = frames at hframes ⊢
  cases hframes with
  | nil =>
    cases hfill
    exact Or.inl ⟨rfl, rfl⟩
  | @cons slot frame inner rest hslot hrest =>
    rcases slot with isNamed | - | - <;> rcases frame with ⟨rules, name?⟩ | ⟨items⟩
    · cases isNamed with
      | false => cases hfill
      | true =>
        cases hfill
        obtain ⟨name, rfl⟩ := Option.isSome_iff_exists.1 (hslot rfl)
        exact Or.inr (Or.inl ⟨rules, name, rest, inner, rfl, rfl, hrest⟩)
    · exact hslot.elim
    · exact hslot.elim
    · cases hfill
      exact Or.inr (Or.inr ⟨items, rest, inner, rfl, rfl, hrest⟩)
    iterate 2 exact hslot.elim

/-- A value is put where it belongs, or it is no object of rules, or its rule has been written before. -/
theorem Suits.place (h : b.Suits outer slots) (hfill : Slot.fill slots = some slots')
    (value : RuleValue) : (b.place value).Meets (Suits outer slots') Problem.IsOfReading := by
  have hcases := h.cases_fill hfill
  obtain ⟨start, frames, rules?, text?⟩ := b
  rcases hcases with ⟨rfl, rfl⟩ | ⟨rules, ⟨name, mark⟩, rest, inner, rfl, rfl, hrest⟩ |
    ⟨items, rest, inner, rfl, rfl, hrest⟩
  · cases value with
    | object mark rules => exact ⟨[], rfl, .nil⟩
    | literal | shortcut | array => rfl
  · change Except.Meets (if Catalog.contains rules name then _ else _) _ _
    exact .ite rfl ⟨.object false :: inner, rfl, .cons nofun hrest⟩
  · exact ⟨.array :: inner, rfl, .cons trivial hrest⟩

/-- A value may be left out. -/
theorem Suits.skip (h : b.Suits outer slots) (hfill : Slot.fill slots = some slots') :
    b.Suits outer slots' := by
  rcases h.cases_fill hfill with ⟨hframes, rfl⟩ | ⟨rules, name, rest, inner, hframes, rfl, hrest⟩ |
    ⟨items, rest, inner, hframes, rfl, hrest⟩
  · exact ⟨[], rfl, hframes ▸ .nil⟩
  · exact ⟨.object false :: inner, rfl, hframes ▸ .cons nofun hrest⟩
  · exact ⟨.array :: inner, rfl, hframes ▸ .cons trivial hrest⟩

/-- The object that ends is the one that is being filled, and so is the list. -/
theorem Suits.leave (h : b.Suits outer slots) {mark : Mark}
    (hkind : mark.kind = .closing .object ∨ mark.kind = .closing .array)
    (htake : Slot.take slots mark.kind = some slots') :
    (b.leave mark).Meets (Suits outer slots') Problem.IsOfReading := by
  obtain ⟨inner, rfl, hframes⟩ := h
  obtain ⟨start, frames, rules?, text?⟩ := b
  unfold Builder.leave
  cases hframes with
  | nil => rcases hkind with hkind | hkind <;> rw [hkind] at htake <;> cases htake
  | @cons slot frame inner rest hslot hrest =>
    have hplace (value : RuleValue) (hfill : Slot.fill (inner ++ .note :: outer) = some slots') :
        (Builder.place ⟨start, rest, rules?, text?⟩ value).Meets (Suits outer slots')
          Problem.IsOfReading := Suits.place ⟨inner, rfl, hrest⟩ hfill value
    rcases slot with isNamed | - | - <;> rcases frame with ⟨rules, name?⟩ | ⟨items⟩ <;>
      rcases hkind with hkind | hkind <;> rw [hkind] at htake ⊢ <;>
      first | exact hplace _ htake | exact hslot.elim | cases htake

theorem nameOf_ofReading (mark : Mark) : (nameOf mark).FailsOnly Problem.IsOfReading := by
  unfold nameOf
  split
  · split
    · trivial
    · rfl
  · trivial

/-- The next rule has its name. -/
theorem Suits.takeName (h : b.Suits outer slots) (mark : Mark)
    (htake : Slot.take slots (.closing .objectKey) = some slots') :
    (b.takeName mark).Meets (Suits outer slots') Problem.IsOfReading := by
  obtain ⟨inner, rfl, hframes⟩ := h
  obtain ⟨start, frames, rules?, text?⟩ := b
  refine Except.Meets.bind (nameOf_ofReading mark) fun name _ => ?_
  cases hframes with
  | nil => cases htake
  | @cons slot frame inner rest hslot hrest =>
    rcases slot with isNamed | - | - <;> rcases frame with ⟨rules, name?⟩ | ⟨items⟩ <;>
      first | exact hslot.elim | cases htake
    exact ⟨.object true :: inner, rfl, .cons (fun _ => rfl) hrest⟩

theorem Suits.takeText (h : b.Suits outer slots) (mark : Mark) :
    (b.takeText mark).Suits outer slots := by
  unfold Builder.takeText
  dsimp only
  split <;> exact h

/-- **An event of a note** is taken, or the note is refused. -/
theorem Suits.add (h : b.Suits outer slots) {mark : Mark}
    (hinline : mark.kind ≠ .closing .inlineNote) (hblock : mark.kind ≠ .closing .blockNote)
    (htake : Slot.take slots mark.kind = some slots') :
    (b.add mark).Meets (Suits outer slots') Problem.IsOfReading := by
  have hleave := @Suits.leave _ _ slots' _ h mark
  obtain ⟨inner, hslots, hframes⟩ := id h
  rw [Builder.add]
  generalize mark.kind = kind at *
  cases kind with
  | opening c =>
    cases c with
    | object =>
      cases htake
      exact ⟨.object false :: inner, congrArg _ hslots, .cons nofun hframes⟩
    | array =>
      cases htake
      exact ⟨.array :: inner, congrArg _ hslots, .cons trivial hframes⟩
    | inlineNote | blockNote =>
      have hnote : Slot.note ∈ slots := hslots ▸ List.mem_append_right _ (List.mem_cons_self ..)
      cases htake.symm.trans (if_pos hnote)
    | _ =>
      cases htake
      exact h
  | closing c =>
    cases c with
    | object | array => exact hleave (by simp) htake
    | objectKey => exact h.takeName mark htake
    | literal => exact h.place htake (.literal mark)
    | typesShortcut => exact h.place htake (.shortcut mark)
    | mixedValue => exact h.skip htake
    | inlineNote => exact (hinline rfl).elim
    | blockNote => exact (hblock rfl).elim
    | inlineNoteText | blockNoteText =>
      cases htake
      exact h.takeText mark
    | _ =>
      cases htake
      exact h
  | newLine | endTop =>
    cases htake
    exact h

/-- A note ends where nothing is open in it. -/
theorem Suits.eq_of_take_note (h : b.Suits outer slots) {kind : EventKind}
    (hkind : kind = .closing .inlineNote ∨ kind = .closing .blockNote)
    (htake : Slot.take slots kind = some slots') : slots' = outer := by
  obtain ⟨inner, rfl, hframes⟩ := h
  generalize b.frames = frames at hframes
  cases hframes with
  | nil => rcases hkind with rfl | rfl <;> exact (Option.some.inj htake).symm
  | @cons slot frame inner rest hslot hrest =>
    cases slot with
    | note => cases frame <;> exact hslot.elim
    | object | array => rcases hkind with rfl | rfl <;> cases htake

end Builder
end Note

/-! ## Open objects and arrays -/

namespace OpenNode

/-- An object or an array that is open suits what the events fill. -/
def Suits : Slot → OpenNode → Prop
  | .object isNamed, ⟨_, .object _ key?⟩ => isNamed = true → key?.isSome = true
  | .array, ⟨_, .array _⟩ => True
  | _, _ => False

/-- A value has been completed in the object or the array. -/
def HasLast (n : OpenNode) : Prop :=
  match n.filling with
  | .object properties _ => properties ≠ []
  | .array items => items ≠ []

/-- The value that was completed last is changed, or refuses it. -/
theorem HasLast.changeLast? {n : OpenNode} (h : n.HasLast) {change : Node → Outcome Node}
    (hchange : ∀ node, (change node).FailsOnly Problem.IsOfReading) :
    ∃ changed, n.changeLast? change = some changed ∧
      changed.Meets (fun n' => n'.HasLast ∧ ∀ slot, Suits slot n → Suits slot n')
        Problem.IsOfReading := by
  obtain ⟨header, filling⟩ := n
  cases filling with
  | object properties key? =>
    cases properties with
    | nil => exact (h rfl).elim
    | cons p properties =>
      refine ⟨_, rfl, ?_⟩
      have hnode := hchange p.2
      cases hchanged : change p.2 with
      | ok node => exact ⟨List.cons_ne_nil _ _, fun slot hslot => by cases slot <;> exact hslot⟩
      | error problem =>
        rw [hchanged] at hnode
        exact hnode
  | array items =>
    cases items with
    | nil => exact (h rfl).elim
    | cons item items =>
      refine ⟨_, rfl, ?_⟩
      have hnode := hchange item
      cases hchanged : change item with
      | ok node => exact ⟨List.cons_ne_nil _ _, fun slot hslot => by cases slot <;> exact hslot⟩
      | error problem =>
        rw [hchanged] at hnode
        exact hnode

theorem HasLast.takeKey {n : OpenNode} (h : n.HasLast) (key : PropertyKey) :
    (n.takeKey key).HasLast := by
  obtain ⟨header, filling⟩ := n
  cases filling <;> exact h

/-- Taking a key fills nothing. -/
theorem Suits.takeKey {n : OpenNode} {slot : Slot} (h : n.Suits slot) (key : PropertyKey) :
    (n.takeKey key).Suits slot := by
  obtain ⟨header, filling⟩ := n
  rcases slot with isNamed | - | - <;> cases filling <;> first | exact h.elim | exact fun _ => rfl | exact h

end OpenNode

/-! ## Documents -/

namespace Loader

variable {l : Loader} {slots slots' : List Slot}

/-- What the next note describes is there. -/
def HasTarget (l : Loader) : Prop :=
  match l.target with
  | .nothing => True
  | .root => l.root?.isSome = true
  | .top => l.openNodes ≠ []
  | .lastChild => ∃ top rest, l.openNodes = top :: rest ∧ top.HasLast

/-- The objects and arrays that are open suit what the events fill, and what the next note describes is
there. -/
structure Holds (slots : List Slot) (l : Loader) : Prop where
  openNodes : List.Forall₂ OpenNode.Suits slots l.openNodes
  target : l.HasTarget

/-- A step goes on outside of notes as it should, or refuses the document. -/
def GoesOn (l : Loader) (slots : List Slot) (x : Outcome Loader) : Prop :=
  x.Meets (fun l' => l'.note? = l.note? ∧ l'.Holds slots) Problem.IsOfReading

/-- A value is put where it belongs, or its key has been written before. -/
theorem place_goesOn (h : List.Forall₂ OpenNode.Suits slots l.openNodes)
    (hfill : Slot.fill slots = some slots') (node : Node) : l.GoesOn slots' (l.place node) := by
  obtain ⟨openNodes, root?, target, note?, unnamed⟩ := l
  cases h with
  | nil =>
    cases hfill
    exact ⟨rfl, .nil, rfl⟩
  | @cons slot top outer rest hslot hrest =>
    obtain ⟨header, filling⟩ := top
    rcases slot with isNamed | - | - <;> rcases filling with ⟨properties, key?⟩ | ⟨items⟩
    · cases isNamed with
      | false => cases hfill
      | true =>
        cases hfill
        obtain ⟨key, rfl⟩ := Option.isSome_iff_exists.1 (hslot rfl)
        change GoesOn _ _ (do let top ← (if properties.any _ then _ else _ : Outcome OpenNode); _)
        split
        · rfl
        · exact ⟨rfl, .cons nofun hrest, _, _, rfl, List.cons_ne_nil _ _⟩
    · exact hslot.elim
    · exact hslot.elim
    · cases hfill
      exact ⟨rfl, .cons trivial hrest, _, _, rfl, List.cons_ne_nil _ _⟩
    iterate 2 exact hslot.elim

/-- The object or the array that ends is the one that is open. -/
theorem leave_goesOn (h : l.Holds slots) {mark : Mark}
    (hkind : mark.kind = .closing .object ∨ mark.kind = .closing .array)
    (htake : Slot.take slots mark.kind = some slots') : l.GoesOn slots' (l.leave mark) := by
  obtain ⟨hopen, -⟩ := h
  obtain ⟨openNodes, root?, target, note?, unnamed⟩ := l
  cases hopen with
  | nil => rcases hkind with hkind | hkind <;> rw [hkind] at htake <;> cases htake
  | @cons slot top outer rest hslot hrest =>
    have hplace (hfill : Slot.fill outer = some slots') :=
      @place_goesOn ⟨rest, root?, target, note?, unnamed⟩ outer slots' hrest hfill (top.close mark)
    rcases slot with isNamed | - | - <;> rcases hkind with hkind | hkind <;> rw [hkind] at htake <;>
      first | exact hplace htake | cases htake

/-- The innermost object or array that is open may be changed if it keeps the values that it has. -/
theorem Holds.cases_cons {top : OpenNode} {rest : List OpenNode} (h : l.Holds slots)
    (hopen : l.openNodes = top :: rest) : ∃ slot outer, slots = slot :: outer ∧ top.Suits slot ∧
      ∀ (top' : OpenNode) slot', (top.HasLast → top'.HasLast) → top'.Suits slot' →
        Holds (slot' :: outer) { l with openNodes := top' :: rest } := by
  obtain ⟨openNodes, root?, target, note?, unnamed⟩ := l
  obtain ⟨hfits, htarget⟩ := h
  cases hopen
  cases hfits with
  | cons hslot hrest =>
    refine ⟨_, _, rfl, hslot, fun top' slot' hlast hslot' => ⟨.cons hslot' hrest, ?_⟩⟩
    cases target with
    | nothing => trivial
    | root => exact htarget
    | top => exact List.cons_ne_nil _ _
    | lastChild =>
      obtain ⟨_, _, heq, htop⟩ := htarget
      cases heq
      exact ⟨_, _, rfl, hlast htop⟩

theorem Holds.takeKey (h : l.Holds slots) (key : PropertyKey) :
    (l.takeKey key).note? = l.note? ∧ (l.takeKey key).Holds slots := by
  unfold Loader.takeKey
  split
  · next top rest hopen =>
    obtain ⟨slot, outer, rfl, hslot, hchange⟩ := h.cases_cons hopen
    exact ⟨rfl, hchange _ _ (fun hlast => hlast.takeKey key) (hslot.takeKey key)⟩
  · exact ⟨rfl, h⟩

/-- The next property has its name, or is written as a type and has it already. -/
theorem takeName_goesOn (h : l.Holds slots) (mark : Mark)
    (htake : Slot.take slots (.closing .objectKey) = some slots') :
    l.GoesOn slots' (l.takeName mark) := by
  have hstring := Verdict.on_ofReading (Literal.string_ofReading mark.bytes) mark
  cases hopen : l.openNodes with
  | nil =>
    cases hopen ▸ h.openNodes
    cases htake
  | cons top rest =>
    obtain ⟨slot, outer, rfl, hslot, hchange⟩ := h.cases_cons hopen
    obtain ⟨header, filling⟩ := top
    rcases slot with isNamed | - | - <;> rcases filling with ⟨properties, key?⟩ | ⟨items⟩ <;>
      first | exact hslot.elim | cases htake
    unfold Loader.takeName
    rw [hopen]
    cases key? with
    | none =>
      refine Except.Meets.bind hstring fun name _ => ?_
      unfold Loader.takeKey
      rw [hopen]
      exact ⟨rfl, hchange _ _ id fun _ => rfl⟩
    | some key =>
      refine ⟨rfl, ?_⟩
      have hnamed := hchange ⟨header, .object properties (some key)⟩ (.object true) id fun _ => rfl
      rwa [← hopen] at hnamed

/-- **A note describes what is there**, or is refused. -/
theorem describe_goesOn (h : l.Holds slots) (note : Note) (rules : List Rule) :
    l.GoesOn slots (l.describe note rules) := by
  have hannotate (node : Node) := node.annotate_ofReading note.mark note.text? rules
  have htarget := h.target
  obtain ⟨openNodes, root?, target, note?, unnamed⟩ := l
  cases target with
  | nothing => exact ⟨rfl, h⟩
  | root =>
    obtain ⟨root, rfl⟩ := Option.isSome_iff_exists.1 htarget
    exact Except.Meets.bind (hannotate root) fun root' _ => ⟨rfl, h.openNodes, rfl⟩
  | top =>
    cases openNodes with
    | nil => exact (htarget rfl).elim
    | cons top rest =>
      obtain ⟨slot, outer, rfl, hslot, hchange⟩ := h.cases_cons rfl
      refine Except.Meets.bind (top.header.annotate_ofReading note.mark note.text?) fun header _ => ?_
      refine Except.Meets.bind (header.apply_ofReading none rules) fun header' _ => ⟨rfl, ?_⟩
      refine hchange _ _ id ?_
      obtain ⟨_, filling⟩ := top
      cases slot <;> cases filling <;> exact hslot
  | lastChild =>
    obtain ⟨top, rest, rfl, hlast⟩ := htarget
    obtain ⟨slot, outer, rfl, hslot, hchange⟩ := h.cases_cons rfl
    obtain ⟨changed, hchanged, hmeets⟩ := hlast.changeLast? hannotate
    rw [describe]
    dsimp only
    rw [hchanged]
    refine Except.Meets.bind hmeets fun top' htop' => ⟨rfl, ?_⟩
    exact hchange top' slot (fun _ => htop'.1) (htop'.2 slot hslot)

/-- A note that ends describes what is there, or is refused. -/
theorem applyNote_goesOn (h : l.Holds slots) (note : Note) : l.GoesOn slots (l.applyNote note) := by
  unfold applyNote
  split
  · exact ⟨rfl, h⟩
  · exact describe_goesOn h note []
  · next rules _ =>
    split
    · rfl
    · refine Except.Meets.bind (RuleValue.constraintsOf_ofReading l.unnamed rules) fun built _ => ?_
      exact @describe_goesOn { l with unnamed := built.2 } slots ⟨h.openNodes, h.target⟩ note built.1

/-- The loader suits what the events fill, in a note and outside of notes. -/
def Suits (slots : List Slot) (l : Loader) : Prop :=
  match l.note? with
  | none => l.Holds slots
  | some builder => ∃ outer, builder.Suits outer slots ∧ l.Holds outer

theorem GoesOn.suits {x : Outcome Loader} (h : l.GoesOn slots x) (hnote : l.note? = none) :
    x.Meets (Suits slots) Problem.IsOfReading := by
  refine Except.Meets.imp h (fun l' hl' => ?_) fun _ => id
  unfold Suits
  rw [hl'.1, hnote]
  exact hl'.2

/-- A value may be left out. -/
theorem Holds.skip (h : l.Holds slots) (hfill : Slot.fill slots = some slots') :
    l.Holds slots' := by
  obtain ⟨hopen, htarget⟩ := h
  refine ⟨?_, htarget⟩
  generalize l.openNodes = openNodes at hopen
  cases hopen with
  | nil =>
    cases hfill
    exact .nil
  | @cons slot top outer rest hslot hrest =>
    obtain ⟨header, filling⟩ := top
    rcases slot with isNamed | - | - <;> rcases filling with ⟨properties, key?⟩ | ⟨items⟩ <;>
      first | exact hslot.elim | (cases isNamed <;> cases hfill) | cases hfill
    · exact .cons nofun hrest
    · exact .cons trivial hrest

/-- No note ends outside of notes. -/
theorem Holds.ne_note (h : l.Holds slots) (rest : List Slot) : slots ≠ .note :: rest := by
  rintro rfl
  have hopen := h.openNodes
  generalize l.openNodes = openNodes at hopen
  cases openNodes with
  | nil => cases hopen
  | cons top outer =>
    obtain ⟨hslot, -⟩ := List.forall₂_cons.1 hopen
    obtain ⟨header, filling⟩ := top
    cases filling <;> exact hslot

/-- An event outside of notes is taken, or the document is refused. -/
theorem Holds.addEvent (h : l.Holds slots) (hnote : l.note? = none) {mark : Mark}
    (htake : Slot.take slots mark.kind = some slots') :
    (l.addEvent mark).Meets (Suits slots') Problem.IsOfReading := by
  have hleave := @leave_goesOn l slots slots' h mark
  have hstay : l.GoesOn slots (.ok l) := ⟨rfl, h⟩
  rw [Loader.addEvent]
  generalize mark.kind = kind at *
  cases kind with
  | opening c =>
    cases c with
    | object =>
      cases htake
      exact GoesOn.suits (l := l) ⟨rfl, .cons nofun h.openNodes, List.cons_ne_nil _ _⟩ hnote
    | array =>
      cases htake
      exact GoesOn.suits (l := l) ⟨rfl, .cons trivial h.openNodes, List.cons_ne_nil _ _⟩ hnote
    | inlineNote | blockNote =>
      by_cases hmem : Slot.note ∈ slots
      · cases htake.symm.trans (if_pos hmem)
      · cases htake.symm.trans (if_neg hmem)
        exact ⟨slots, ⟨[], rfl, .nil⟩, h.openNodes, h.target⟩
    | _ =>
      cases htake
      exact hstay.suits hnote
  | closing c =>
    cases c with
    | object | array => exact (hleave (by simp) htake).suits hnote
    | objectKey => exact (takeName_goesOn h mark htake).suits hnote
    | keyShortcut =>
      cases htake
      exact GoesOn.suits (l := l) (h.takeKey _) hnote
    | literal => exact (place_goesOn h.openNodes htake _).suits hnote
    | mixedValue =>
      refine Except.Meets.bind (Shortcut.node_ofReading mark) fun node _ => ?_
      exact (place_goesOn h.openNodes htake node).suits hnote
    | typesShortcut => exact GoesOn.suits (l := l) ⟨rfl, h.skip htake⟩ hnote
    | inlineNote | blockNote =>
      cases slots with
      | nil => cases htake
      | cons slot rest =>
        cases slot with
        | note => exact (h.ne_note rest rfl).elim
        | object | array => cases htake
    | _ =>
      cases htake
      exact hstay.suits hnote
  | newLine =>
    cases htake
    exact GoesOn.suits (l := l) ⟨rfl, h.openNodes, trivial⟩ hnote
  | endTop =>
    cases htake
    exact hstay.suits hnote

/-- An event of a note is taken, or the document is refused. -/
theorem addToNote_suits {outer : List Slot} {builder : Note.Builder}
    (hbuilder : builder.Suits outer slots) (h : l.Holds outer) {mark : Mark}
    (htake : Slot.take slots mark.kind = some slots') :
    (l.addToNote builder mark).Meets (Suits slots') Problem.IsOfReading := by
  have hend (hkind : mark.kind = .closing .inlineNote ∨ mark.kind = .closing .blockNote) :
      (applyNote { l with note? := none } builder.note).Meets (Suits slots') Problem.IsOfReading := by
    obtain rfl := hbuilder.eq_of_take_note hkind htake
    have hclosed : Holds slots' { l with note? := none } := ⟨h.openNodes, h.target⟩
    exact (applyNote_goesOn hclosed builder.note).suits rfl
  unfold addToNote
  split
  · next hkind => exact hend (Or.inl hkind)
  · next hkind => exact hend (Or.inr hkind)
  · next hinline hblock =>
    refine Except.Meets.bind (hbuilder.add hinline hblock htake) fun builder' hbuilder' => ?_
    exact ⟨outer, hbuilder', h.openNodes, h.target⟩

/-- **An event** is taken, or the document is refused. -/
theorem Suits.add (h : l.Suits slots) {mark : Mark}
    (htake : Slot.take slots mark.kind = some slots') :
    (l.add mark).Meets (Suits slots') Problem.IsOfReading := by
  unfold Loader.add
  unfold Suits at h
  split
  · next builder hnote =>
    rw [hnote] at h
    obtain ⟨outer, hbuilder, hholds⟩ := h
    exact addToNote_suits hbuilder hholds htake
  · next hnote =>
    rw [hnote] at h
    exact h.addEvent hnote htake

end Loader

/-! ## Scans -/

namespace Scan

/-- A scan fails in the layers that read documents. -/
theorem read_ofReading (o : Options) (text : Bytes) {f : Failure}
    (h : (read o text).failure = some f) : f.cause.IsOfReading :=
  (run_sound o sound_start).2.2 f h

/-- So it fails for no broken promise. -/
theorem read_ordinary (o : Options) (text : Bytes) {f : Failure}
    (h : (read o text).failure = some f) : f.cause.IsOrdinary :=
  ErrorCode.ne_internal_of_isOfReading (read_ofReading o text h)

/-- What a reader fails with is the failure of the scan. -/
theorem failure_of_answer_eq_error {o : Options} {text : Bytes} {asked : Nat} {f : Failure}
    (h : (Reader.start o text).answer asked = .error f) : (read o text).failure = some f := by
  have hretells := Reader.start_retells o text
  rcases Nat.lt_trichotomy asked (read o text).events.length with hlt | rfl | hgt
  · rw [hretells.events asked hlt] at h
    cases h
  · cases hfailure : (read o text).failure with
    | none =>
      rw [hretells.ended hfailure] at h
      cases h
    | some f' =>
      rw [hretells.failure f' hfailure] at h
      cases h
      rfl
  · rw [hretells.nothing asked hgt] at h
    cases h

theorem marks_ordinary (o : Options) (source : Source) :
    (marks o source).FailsOnly Problem.IsOrdinary := by
  have hfold := @foldMarks_meets _ o source (fun marks mark => .ok (mark :: marks)) [] (fun _ _ => True)
    Problem.IsOrdinary trivial (fun _ _ _ _ _ _ _ => trivial) fun _ => read_ordinary o source.content
  exact hfold.bind fun _ _ => trivial

/-- A scan that does not fail has reported the end of its document. -/
theorem length_ordinary (source : Source) : (length source).FailsOnly Problem.IsOrdinary := by
  obtain ⟨opened, events, -, hread⟩ := read_history { lengthOnly := true } source.content
  unfold length
  dsimp only
  split
  · next failure _ hfailure => exact read_ordinary _ source.content hfailure
  · trivial
  · next hnone hfind =>
    rcases hread with ⟨-, -, n, hevents⟩ | ⟨hfailure, -⟩
    · rw [hevents, List.find?_eq_none] at hfind
      exact (hfind ⟨.endTop, n, n⟩ (by simp) (by simp)).elim
    · exact (hfailure hnone).elim

end Scan

/-! ## Documents -/

/-- **A schema is refused in the layers that read documents.** -/
theorem Schema.load_ofReading (source : Source) (owner : String) :
    (load source owner).FailsOnly Problem.IsOfReading := by
  have hstart : Loader.Suits [] { unnamed := { source, owner } } :=
    show Loader.Holds _ _ from ⟨.nil, trivial⟩
  have hfold := Scan.foldMarks_meets {} source hstart
    (fun slots slots' l event _ h htake => @Loader.Suits.add l slots slots' h ⟨source, event⟩ htake)
    fun _ => Scan.read_ofReading {} source.content
  refine hfold.bind fun l _ => ?_
  split
  · trivial
  · rfl

theorem Schema.load_ordinary (source : Source) (owner : String) :
    (load source owner).FailsOnly Problem.IsOrdinary := Outcome.ordinary (load_ofReading source owner)

theorem EnumReader.add_ofReading (r : EnumReader) (mark : Mark) :
    (r.add mark).FailsOnly Problem.IsOfReading := by
  unfold EnumReader.add
  split
  · unfold EnumReader.addToNote
    split
    · rfl
    all_goals trivial
  · unfold EnumReader.addEvent
    split
    all_goals trivial

/-- So is an enum rule. -/
theorem Enumeration.load_ofReading (source : Source) :
    (load source).FailsOnly Problem.IsOfReading := by
  have hfold := @Scan.foldMarks_meets _ {} source EnumReader.add {} (fun _ _ => True) Problem.IsOfReading
    trivial (fun _ _ r event _ _ _ => r.add_ofReading ⟨source, event⟩)
    fun _ => Scan.read_ofReading {} source.content
  refine hfold.bind fun r _ => Except.FailsOnly.foldlM fun e item _ => ?_
  exact Verdict.on_ofReading (e.append_ofReading item.1.bytes item.2) item.1

theorem Enumeration.load_ordinary (source : Source) :
    (load source).FailsOnly Problem.IsOrdinary := Outcome.ordinary (load_ofReading source)

/-- A value is refused in the layer that reads bytes. -/
theorem Value.parse_ordinary (source : Source) : (parse source).FailsOnly Problem.IsOrdinary := by
  refine (parse_failsOnly source).imp (fun _ => id) fun p hp hcode => ?_
  rw [hcode] at hp
  cases hp

/-- **No promise of the library is broken**, whatever the text: neither by the scan, with any options and
read at once or event by event, nor by anything that is built from its events. -/
theorem never_internal (o : Scan.Options) (source : Source) (owner : String) :
    (∀ f, (Scan.read o source.content).failure = some f → f.cause.code ≠ .internal) ∧
    (∀ asked f, (Scan.Reader.start o source.content).answer asked = .error f →
      f.cause.code ≠ .internal) ∧
    (Scan.marks o source).FailsOnly (fun p => p.code ≠ .internal) ∧
    (Scan.length source).FailsOnly (fun p => p.code ≠ .internal) ∧
    (Value.parse source).FailsOnly (fun p => p.code ≠ .internal) ∧
    (Schema.load source owner).FailsOnly (fun p => p.code ≠ .internal) ∧
    (Enumeration.load source).FailsOnly (fun p => p.code ≠ .internal) := by
  refine ⟨fun f => Scan.read_ordinary o source.content, fun asked f hanswer => ?_,
    Scan.marks_ordinary o source, Scan.length_ordinary source, Value.parse_ordinary source,
    Schema.load_ordinary source owner, Enumeration.load_ordinary source⟩
  exact Scan.read_ordinary o source.content (Scan.failure_of_answer_eq_error hanswer)

end ExampleSchema
