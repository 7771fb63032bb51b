import ExampleSchema.Proofs.Faults
import ExampleSchema.Proofs.Scan.Value

/-!
# A document has a root

The loader takes the value at the top of a document for the root of the tree, and keeps it.  A scan that comes
to the end has seen such a value, so loading never finds a document without a root: an empty document has
already been refused by the scan.

* `Loader.keepsRoot_add`: an event leaves the root.
* `Loader.hasRoot_add_of_closing`: the end of the value at the top gives the root.
* `Loader.isSome_root?_of_foldMarks`: once a document has been read, there is a root.
-/

namespace ExampleSchema

open Scan (Slot BeginsWithValue)

namespace Loader

variable {l m : Loader} {slots : List Slot}

/-- There is a root. -/
def HasRoot (l : Loader) : Prop := l.root?.isSome = true

/-! ## The root stays -/

/-- If there is a root, there is one after a step that does not fail. -/
abbrev KeepsRoot (l : Loader) (o : Outcome Loader) : Prop :=
  o.Meets (fun m => l.HasRoot → m.HasRoot) fun _ => True

/-- What comes last decides whether the root stays. -/
theorem keepsRoot_bind {α : Type} {o : Outcome α} {f : α → Outcome Loader} (h : ∀ a, l.KeepsRoot (f a)) :
    l.KeepsRoot (o >>= f) := by
  cases o with
  | error p => trivial
  | ok a => exact h a

theorem keepsRoot_place (l : Loader) (node : Node) : l.KeepsRoot (l.place node) := by
  unfold place
  split
  · exact fun _ => rfl
  · exact keepsRoot_bind fun _ => id

theorem keepsRoot_leave (l : Loader) (mark : Mark) : l.KeepsRoot (l.leave mark) := by
  unfold leave
  split
  · exact keepsRoot_place { l with openNodes := _ } _
  · trivial

theorem keepsRoot_takeKey (l : Loader) (key : PropertyKey) : l.KeepsRoot (.ok (l.takeKey key)) := by
  unfold takeKey
  split <;> exact id

theorem keepsRoot_describe (l : Loader) (note : Note) (rules : List Rule) : l.KeepsRoot (l.describe note rules) := by
  unfold describe
  dsimp only
  split
  · exact id
  · exact keepsRoot_bind fun _ _ => rfl
  · exact keepsRoot_bind fun _ => keepsRoot_bind fun _ => id
  · split
    · exact keepsRoot_bind fun _ => id
    · trivial
  · trivial

theorem keepsRoot_applyNote (l : Loader) (note : Note) : l.KeepsRoot (l.applyNote note) := by
  unfold applyNote
  split
  · exact id
  · exact keepsRoot_describe l note []
  · split
    · trivial
    · exact keepsRoot_bind fun _ => keepsRoot_describe { l with unnamed := _ } note _

/-- **An event leaves the root.** -/
theorem keepsRoot_add (l : Loader) (mark : Mark) : l.KeepsRoot (l.add mark) := by
  unfold add
  split
  · unfold addToNote
    split
    · exact keepsRoot_applyNote { l with note? := none } _
    · exact keepsRoot_applyNote { l with note? := none } _
    · exact keepsRoot_bind fun _ => id
  · unfold addEvent
    split
    · exact id
    · exact id
    · exact keepsRoot_leave l mark
    · exact keepsRoot_leave l mark
    · exact keepsRoot_takeKey l _
    · unfold takeName
      split
      · exact keepsRoot_bind fun _ => keepsRoot_takeKey l _
      · exact id
    · exact keepsRoot_place l _
    · exact keepsRoot_bind fun _ => keepsRoot_place l _
    · exact id
    · exact id
    · exact id
    · exact id

/-! ## The root comes -/

/-- A value that is placed while nothing is open is the root. -/
theorem hasRoot_of_place {node : Node} (hopen : l.openNodes = []) (h : l.place node = .ok m) : m.HasRoot := by
  rw [place, hopen] at h
  obtain rfl := Except.ok.inj h
  rfl

/-- Where no note is being filled, none is being read. -/
theorem Suits.of_note_not_mem (h : l.Suits slots) (hnote : Slot.note ∉ slots) : l.note? = none ∧ l.Holds slots := by
  unfold Suits at h
  split at h
  · next hnone => exact ⟨hnone, h⟩
  · obtain ⟨outer, ⟨inner, rfl, -⟩, -⟩ := h
    exact (hnote (by simp)).elim

/-- **The end of the value at the top gives the root.** -/
theorem hasRoot_add_of_closing (h : l.Suits slots) {c : Construct} {start : Nat}
    (hslots : Slot.IsOf slots [(c, start)]) (hvalue : c.isValue = true) {mark : Mark}
    (hkind : mark.kind = .closing c) (hadd : l.add mark = .ok m) : m.HasRoot := by
  have hleave : ∀ slot, slots = [slot] → slot ≠ .note → l.leave mark = .ok m → m.HasRoot := by
    intro slot hslot hnote hleave
    subst hslot
    obtain ⟨-, hholds⟩ := h.of_note_not_mem (by simpa using hnote.symm)
    obtain ⟨openNodes, root?, target, note?, unnamed⟩ := l
    obtain ⟨top, rest, -, hrest, rfl⟩ := List.forall₂_cons_left_iff.1 hholds.openNodes
    obtain rfl := List.forall₂_nil_left_iff.1 hrest
    have hplace : place ⟨[], root?, target, note?, unnamed⟩ (top.close mark) = .ok m := hleave
    exact hasRoot_of_place rfl hplace
  have hempty : slots = [] → l.openNodes = [] := by
    rintro rfl
    exact List.forall₂_nil_left_iff.1 (h.of_note_not_mem nofun).2.openNodes
  have hnote : Slot.note ∉ slots := by
    intro hmem
    have hmem := List.mem_map_of_mem (f := Slot.nameless) hmem
    rw [hslots] at hmem
    cases c with
    | literal | object | array | mixedValue => simp [Slot.ofConstruct?, Slot.nameless] at hmem
    | _ => cases hvalue
  rw [add, (h.of_note_not_mem hnote).1, addEvent, hkind] at hadd
  cases c with
  | literal => exact hasRoot_of_place (hempty (List.map_eq_nil_iff.1 hslots)) hadd
  | mixedValue =>
    obtain ⟨node, -, hadd⟩ := Except.bind_eq_ok_iff.1 hadd
    exact hasRoot_of_place (hempty (List.map_eq_nil_iff.1 hslots)) hadd
  | object | array =>
    obtain ⟨slot, hslot, -⟩ := List.map_eq_singleton_iff.1 hslots
    exact hleave slot hslot (fun h => hnote (by simp [hslot, h])) hadd
  | _ => cases hvalue

/-! ## Reading a document -/

/-- The root is there, or what is open at the bottom is a value, or nothing has been opened and the events to
come begin with a value. -/
def ComesToRoot (l : Loader) (opened : List (Construct × Nat)) (events : List Event) : Prop :=
  l.HasRoot ∨ (∃ inner c start, opened = inner ++ [(c, start)] ∧ c.isValue = true) ∨
    opened = [] ∧ BeginsWithValue events

/-- One event on the way to the root. -/
theorem ComesToRoot.add {opened opened' : List (Construct × Nat)} {source : Source} {e : Event}
    {rest : List Event} (h : l.ComesToRoot opened (e :: rest)) (hsuits : l.Suits slots)
    (hslots : Slot.IsOf slots opened) (htrack : e.track opened = some opened')
    (hadd : l.add ⟨source, e⟩ = .ok m) : m.ComesToRoot opened' rest := by
  rcases h with hroot | ⟨inner, c, start, rfl, hvalue⟩ | ⟨rfl, hbegins⟩
  · exact Or.inl ((keepsRoot_add l _).of_ok hadd hroot)
  · obtain ⟨kind, first, last⟩ := e
    cases kind with
    | opening c' =>
      obtain rfl := Option.some.inj htrack
      exact Or.inr (Or.inl ⟨(c', first) :: inner, c, start, rfl, hvalue⟩)
    | newLine | endTop =>
      obtain rfl := Option.some.inj htrack
      exact Or.inr (Or.inl ⟨inner, c, start, rfl, hvalue⟩)
    | closing c' =>
      cases inner with
      | nil =>
        dsimp only [Event.track, List.nil_append] at htrack
        split at htrack
        · next hfits =>
          obtain ⟨rfl, -⟩ := hfits
          exact Or.inl (hasRoot_add_of_closing hsuits hslots hvalue rfl hadd)
        · cases htrack
      | cons top inner =>
        obtain ⟨construct, begun⟩ := top
        dsimp only [Event.track, List.cons_append] at htrack
        split at htrack
        · obtain rfl := Option.some.inj htrack
          exact Or.inr (Or.inl ⟨inner, c, start, rfl, hvalue⟩)
        · cases htrack
  · obtain ⟨kind, first, last⟩ := e
    cases hbegins with
    | blank hkind hrest =>
      obtain rfl : kind = .newLine := hkind
      obtain rfl := Option.some.inj htrack
      exact Or.inr (Or.inr ⟨rfl, hrest⟩)
    | @value _ _ c hkind hvalue =>
      obtain rfl : kind = .opening c := hkind
      obtain rfl := Option.some.inj htrack
      exact Or.inr (Or.inl ⟨[], c, first, rfl, hvalue⟩)

/-- All events on the way to the root. -/
theorem ComesToRoot.foldlM {opened : List (Construct × Nat)} {source : Source} {events : List Event}
    {slots' : List Slot} (h : l.ComesToRoot opened events) (hsuits : l.Suits slots)
    (hslots : Slot.IsOf slots opened) (htrack : Event.trackAll opened events = some [])
    (htake : events.foldlM (fun slots e => Slot.take slots e.kind) slots = some slots')
    (hm : events.foldlM (fun (l : Loader) event => l.add ⟨source, event⟩) l = .ok m) : m.HasRoot := by
  induction events generalizing l slots opened with
  | nil =>
    obtain rfl := Option.some.inj htrack
    obtain rfl := Except.ok.inj hm
    rcases h with hroot | ⟨inner, c, start, hopened, -⟩ | ⟨-, hbegins⟩
    · exact hroot
    · simp at hopened
    · cases hbegins
  | cons e rest ih =>
    rw [List.foldlM_cons] at htake hm
    obtain ⟨opened', hopened', htrack⟩ := Option.bind_eq_some_iff.1 htrack
    obtain ⟨slots₁, hslots₁, htake⟩ := Option.bind_eq_some_iff.1 htake
    obtain ⟨l', hl', hm⟩ := Except.bind_eq_ok_iff.1 hm
    have hsuits' : l'.Suits slots₁ := (@Suits.add l slots slots₁ hsuits ⟨source, e⟩ hslots₁).of_ok hl'
    exact ih (h.add hsuits hslots hopened' hl') hsuits' (Slot.isOf_take hslots hslots₁ hopened') htrack htake hm

/-- **Once a document has been read, there is a root.** -/
theorem isSome_root?_of_foldMarks {source : Source} {owner : String}
    (h : Scan.foldMarks {} source add { unnamed := { source, owner } } = .ok l) : l.HasRoot := by
  obtain ⟨events, hread, hl⟩ := Scan.foldMarks_eq_ok_iff.1 h
  have hfailure : (Scan.read {} source.content).failure = none := by rw [hread]
  obtain ⟨slots, htake⟩ := Scan.exists_takeAll_read {} source.content
  have hbegins := Scan.beginsWithValue_read hfailure
  have hbalanced := Scan.areBalanced_read hfailure
  rw [hread] at htake hbegins hbalanced
  have hstart : Suits [] { unnamed := { source, owner } } := show Holds _ _ from ⟨.nil, trivial⟩
  exact ComesToRoot.foldlM (Or.inr (Or.inr ⟨rfl, hbegins⟩)) hstart rfl hbalanced htake hl

end Loader
end ExampleSchema
