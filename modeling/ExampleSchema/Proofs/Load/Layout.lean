import ExampleSchema.Proofs.Declarations

/-!
# How deep a document nests

Objects and arrays nest no deeper than a scan lets them, in the document and in its notes alike.  The
loader and the builder of a note keep what is open on a stack, which is never higher than the events so far
have opened more containers than they have closed.  So what is put into an open container has the room that
the containers around it leave.

* `PropertyKey.IsRead`, `Node.IsLaidOut`: a tree of so many levels whose properties have distinct names, which
  are read from their marks.
* `RuleValue.NestsWithin`: a rule value of so many levels.
* `FitsRoom`: each of the open containers fits the room that those around it leave.
* `Loader.Fits`: what holds of the loader at any moment, and `Loader.Fits.add`, one event.
* `Schema.isLaidOut_of_load_eq_ok`: how deep what a document loads as nests, and how deep its notes do.
-/

namespace ExampleSchema

open Scan (maxDepth opens closes)

/-! ## Trees -/

/-- The name of a property is read from its mark, unless the property is a shortcut.  Then it is the name of a
type.  The property comes from no other object. -/
structure PropertyKey.IsRead (key : PropertyKey) : Prop where
  name : key.isShortcut = false → Literal.string key.mark.bytes = .ok key.name
  shortcut : key.isShortcut = true → isUserTypeName key.name = true
  own : key.isInherited = false

namespace Node

/-- The properties of an object have distinct names, which are read from their marks. -/
def HasReadKeys : Node → Prop
  | object _ properties =>
    (properties.map fun p => p.1.name).Nodup ∧ ∀ p ∈ properties, p.1.IsRead
  | _ => True

/-- The node is neither an object nor an array. -/
def IsLeaf : Node → Prop
  | object _ _ | array _ _ => False
  | _ => True

/-- A tree has at most so many levels of objects and arrays, and the properties of its objects have distinct
names, which are read from their marks. -/
def IsLaidOut : Nat → Node → Prop
  | 0, node => node.IsLeaf
  | levels + 1, node => node.HasReadKeys ∧ ∀ child ∈ node.children, child.IsLaidOut levels

variable {levels : Nat} {node changed : Node}

theorem IsLeaf.isLaidOut (h : node.IsLeaf) (levels : Nat) : node.IsLaidOut levels := by
  cases levels with
  | zero => exact h
  | succ levels =>
    cases node with
    | object | array => exact h.elim
    | literal | mixed | reference => exact ⟨trivial, nofun⟩

theorem isLaidOut_withHeader {header : Header} :
    (node.withHeader header).IsLaidOut levels ↔ node.IsLaidOut levels := by
  cases levels <;> cases node <;> exact Iff.rfl

/-- Rules do not change the layout. -/
theorem IsLaidOut.apply (h : node.IsLaidOut levels) {added : List Rule}
    (happly : node.apply added = .ok changed) : changed.IsLaidOut levels := by
  obtain ⟨header, -, hbecomes⟩ := exists_becomes_of_apply_eq_ok happly
  cases hbecomes with
  | same => exact isLaidOut_withHeader.2 h
  | opened | referring => exact IsLeaf.isLaidOut (show IsLeaf (mixed _ _) from trivial) levels

/-- Notes do not change the layout. -/
theorem IsLaidOut.annotate (h : node.IsLaidOut levels) {note : Mark} {comment? : Option String}
    {added : List Rule} (hchanged : node.annotate note comment? added = .ok changed) :
    changed.IsLaidOut levels := by
  obtain ⟨header, -, happly⟩ := Except.bind_eq_ok_iff.1 hchanged
  exact (isLaidOut_withHeader.2 h).apply happly

end Node

/-! ## Rule values -/

/-- The values directly inside a rule value. -/
def RuleValue.parts : RuleValue → List RuleValue
  | array _ items => items
  | object _ rules => rules.map fun e => e.2.2
  | literal _ | shortcut _ => []

/-- The parts of a rule value nest at most so deep. -/
def RuleValue.NestsWithin : Nat → RuleValue → Prop
  | 0, value => value.parts = []
  | levels + 1, value => ∀ part ∈ value.parts, part.NestsWithin levels

theorem RuleValue.nestsWithin_of_parts_eq_nil {value : RuleValue} (h : value.parts = []) (levels : Nat) :
    value.NestsWithin levels := by
  cases levels with
  | zero => exact h
  | succ levels =>
    rw [NestsWithin, h]
    exact nofun

theorem RuleValue.NestsWithin.succ {levels : Nat} {value : RuleValue} (h : value.NestsWithin levels) :
    value.NestsWithin (levels + 1) := by
  induction levels generalizing value with
  | zero => exact nestsWithin_of_parts_eq_nil h 1
  | succ levels ih => exact fun part hpart => ih (h part hpart)

/-! ## Stacks -/

section

variable {β : Type} {fits : Nat → β → Prop} {outer : List β} {top : β}

/-- Each of the things on a stack fits the room that those around it leave. -/
def FitsRoom (fits : Nat → β → Prop) : List β → Prop
  | [] => True
  | top :: outer => (∃ room, outer.length + room + 1 = maxDepth ∧ fits room top) ∧ FitsRoom fits outer

/-- What fits any room may be put on a stack that is not too high. -/
theorem FitsRoom.push (h : FitsRoom fits outer) (hlength : outer.length < maxDepth)
    (htop : ∀ room, fits room top) : FitsRoom fits (top :: outer) :=
  ⟨⟨maxDepth - outer.length - 1, by omega, htop _⟩, h⟩

/-- The top of a stack may be changed as it fits. -/
theorem FitsRoom.change (h : FitsRoom fits (top :: outer)) {top' : β}
    (hchange : ∀ room, outer.length + room + 1 = maxDepth → fits room top → fits room top') :
    FitsRoom fits (top' :: outer) := by
  obtain ⟨⟨room, hroom, htop⟩, houter⟩ := h
  exact ⟨⟨room, hroom, hchange room hroom htop⟩, houter⟩

end

/-- Where events go on, so do the containers that they open. -/
theorem Scan.opens_append (events more : List Event) : opens (events ++ more) = opens events + opens more :=
  List.countP_append

/-- Where events go on, so do the containers that they close. -/
theorem Scan.closes_append (events more : List Event) :
    closes (events ++ more) = closes events + closes more := List.countP_append

/-- An event that ends no object and no array closes no container. -/
theorem Scan.closes_singleton_eq_zero {e : Event} {kind : EventKind} (hkind : e.kind = kind)
    (hobject : kind ≠ .closing .object) (harray : kind ≠ .closing .array) : closes [e] = 0 := by
  subst hkind
  rw [closes, List.countP_eq_zero]
  intro e' he'
  obtain rfl := List.mem_singleton.1 he'
  split
  · next c hc => cases c <;> simp_all [Construct.isContainer]
  · exact Bool.false_ne_true

/-- No event both opens and closes a container. -/
theorem Scan.opens_eq_zero_or_closes_eq_zero (e : Event) : opens [e] = 0 ∨ closes [e] = 0 := by
  by_cases hobject : e.kind = .closing .object
  · simp [opens, hobject]
  by_cases harray : e.kind = .closing .array
  · simp [opens, harray]
  exact Or.inr (closes_singleton_eq_zero rfl hobject harray)

section

variable {e : Event} {before after : Nat}

/-- What an event opens is one more that is open. -/
theorem Scan.add_closes_le_of_opening {c : Construct} (hkind : e.kind = .opening c)
    (hc : c.isContainer = true) (hafter : after = before + 1) :
    opens [e] = 1 ∧ after + closes [e] ≤ before + opens [e] := by
  have hopens : opens [e] = 1 := by simp [opens, hkind, hc]
  have hcloses := (opens_eq_zero_or_closes_eq_zero e).resolve_left (by omega)
  exact ⟨hopens, by omega⟩

/-- An event closes at most one of those that are open. -/
theorem Scan.add_closes_le_of_closing (hafter : after + 1 = before) :
    after + closes [e] ≤ before + opens [e] := by
  have hcloses : closes [e] ≤ 1 := List.countP_le_length
  omega

/-- An event that ends no object and no array leaves open what is open. -/
theorem Scan.add_closes_le_of_eq {kind : EventKind} (hkind : e.kind = kind)
    (hobject : kind ≠ .closing .object) (harray : kind ≠ .closing .array) (hafter : after = before) :
    after + closes [e] ≤ before + opens [e] := by
  rw [closes_singleton_eq_zero hkind hobject harray]
  omega

end

/-! ## The notes -/

namespace Note

/-- The values of a note nest no deeper than a scan lets them. -/
def Fits (note : Note) : Prop :=
  ∀ rules, note.rules? = some rules → ∀ e ∈ rules, e.2.2.NestsWithin maxDepth

/-- The values in an open list or object nest at most so deep. -/
def Frame.NestsWithin (levels : Nat) : Frame → Prop
  | .object rules _ => ∀ e ∈ rules, e.2.2.NestsWithin levels
  | .array items => ∀ item ∈ items, item.NestsWithin levels

namespace Builder

/-- What is open fits its room, and so do the rules once they are complete. -/
structure Fits (b : Builder) : Prop where
  frames : FitsRoom Frame.NestsWithin b.frames
  note : b.note.Fits

variable {b b' : Builder} {mark : Mark}

/-- A note begins without rules. -/
theorem fits_start (mark : Mark) : Fits { mark } :=
  ⟨trivial, fun rules hrules => by cases hrules⟩

/-- A value is put where it has room. -/
theorem Fits.place (h : b.Fits) {value : RuleValue}
    (hvalue : ∀ room, b.frames.length + room = maxDepth → value.NestsWithin room)
    (hplace : b.place value = .ok b') : b'.Fits ∧ b'.frames.length = b.frames.length := by
  obtain ⟨hframes, hnote⟩ := h
  obtain ⟨start, frames, rules?, text?⟩ := b
  dsimp only at hvalue hframes
  rw [Builder.place.eq_def] at hplace
  dsimp only at hplace
  split at hplace
  · next mark rules =>
    obtain rfl := Except.ok.inj hplace
    refine ⟨⟨hframes, fun rules' hrules' e he => ?_⟩, rfl⟩
    obtain rfl := Option.some.inj hrules'
    have hparts : (RuleValue.object mark rules).NestsWithin maxDepth := hvalue _ (Nat.zero_add _)
    exact (hparts e.2.2 (List.mem_map_of_mem he)).succ
  · cases hplace
  · next items rest =>
    obtain rfl := Except.ok.inj hplace
    refine ⟨⟨hframes.change fun room hroom hitems => ?_, hnote⟩, rfl⟩
    refine List.forall_mem_cons.2 ⟨hvalue room ?_, hitems⟩
    rw [List.length_cons]
    omega
  · next rules name mark rest =>
    split at hplace
    · cases hplace
    · obtain rfl := Except.ok.inj hplace
      refine ⟨⟨hframes.change fun room hroom hrules e he => ?_, hnote⟩, rfl⟩
      rcases List.mem_append.1 he with he | he
      · exact hrules e he
      · rw [List.mem_singleton.1 he]
        refine hvalue room ?_
        rw [List.length_cons]
        omega
  · cases hplace

/-- A value without parts is put where there is room. -/
theorem Fits.placeLeaf (h : b.Fits) {value : RuleValue} (hvalue : value.parts = [])
    (hplace : b.place value = .ok b') : b'.Fits ∧ b'.frames.length = b.frames.length :=
  h.place (fun _ _ => RuleValue.nestsWithin_of_parts_eq_nil hvalue _) hplace

/-- A list or an object is put, complete, where it was opened. -/
theorem Fits.leave (h : b.Fits) (hleave : b.leave mark = .ok b') :
    b'.Fits ∧ b'.frames.length + 1 = b.frames.length := by
  have hframes := h.frames
  have hwhole : ∀ {top : Frame} {rest : List Frame} {whole : RuleValue}, b.frames = top :: rest →
      (∀ levels, top.NestsWithin levels → whole.NestsWithin (levels + 1)) →
      ({ b with frames := rest } : Builder).place whole = .ok b' →
      b'.Fits ∧ b'.frames.length + 1 = b.frames.length := by
    intro top rest whole hopen hwhole hplace
    rw [hopen] at hframes ⊢
    obtain ⟨⟨room, hroom, htop⟩, hrest⟩ := hframes
    have hclosed : Fits { b with frames := rest } := ⟨hrest, h.note⟩
    have hnests : ∀ room', rest.length + room' = maxDepth → whole.NestsWithin room' := by
      intro room' hroom'
      obtain rfl : room' = room + 1 := by omega
      exact hwhole room htop
    obtain ⟨hfits, hlength⟩ := hclosed.place hnests hplace
    exact ⟨hfits, by rw [hlength, List.length_cons]⟩
  rw [Builder.leave] at hleave
  split at hleave
  · next rules name? rest hopen _ =>
    refine hwhole hopen (fun levels hrules part hpart => ?_) hleave
    obtain ⟨e, he, rfl⟩ := List.mem_map.1 hpart
    exact hrules e he
  · next items rest hopen _ =>
    refine hwhole hopen (fun levels hitems part hpart => ?_) hleave
    exact hitems part (List.mem_reverse.1 hpart)
  · cases hleave

/-- The next rule has its name. -/
theorem Fits.takeName (h : b.Fits) (hname : b.takeName mark = .ok b') :
    b'.Fits ∧ b'.frames.length = b.frames.length := by
  obtain ⟨hframes, hnote⟩ := h
  obtain ⟨name, -, hname⟩ := Except.bind_eq_ok_iff.1 hname
  split at hname
  · next rules name? rest hopen =>
    obtain rfl := Except.ok.inj hname
    rw [hopen] at hframes
    exact ⟨⟨hframes.change fun _ _ hrules => hrules, hnote⟩, by rw [hopen]; rfl⟩
  · obtain rfl := Except.ok.inj hname
    exact ⟨⟨hframes, hnote⟩, rfl⟩

/-- The text of a note has nothing to do with its rules. -/
theorem Fits.takeText (h : b.Fits) (mark : Mark) :
    (b.takeText mark).Fits ∧ (b.takeText mark).frames.length = b.frames.length := by
  rw [Builder.takeText]
  split
  · exact ⟨h, rfl⟩
  · exact ⟨⟨h.frames, h.note⟩, rfl⟩

/-- What is opened is empty. -/
theorem Fits.enter (h : b.Fits) (hlength : b.frames.length < maxDepth) {frame : Frame}
    (hframe : ∀ room, frame.NestsWithin room) : (b.enter frame).Fits :=
  ⟨h.frames.push hlength hframe, h.note⟩

/-- **One event of a note** fits, and leaves no more open than it opens and does not close. -/
theorem Fits.add (h : b.Fits) (hdepth : b.frames.length + opens [mark.event] ≤ maxDepth)
    (hadd : b.add mark = .ok b') :
    b'.Fits ∧ b'.frames.length + closes [mark.event] ≤ b.frames.length + opens [mark.event] := by
  rw [Builder.add] at hadd
  split at hadd
  case h_1 hmark | h_2 hmark =>
    obtain rfl := Except.ok.inj hadd
    obtain ⟨hopens, hlength⟩ := Scan.add_closes_le_of_opening (e := mark.event) hmark rfl rfl
    exact ⟨h.enter (by omega) fun _ _ hpart => (List.not_mem_nil hpart).elim, hlength⟩
  case h_3 hmark =>
    obtain ⟨hfits, hlength⟩ := h.takeName hadd
    exact ⟨hfits, Scan.add_closes_le_of_eq hmark (by decide) (by decide) hlength⟩
  case h_4 hmark | h_5 hmark =>
    obtain ⟨hfits, hlength⟩ := h.placeLeaf rfl hadd
    exact ⟨hfits, Scan.add_closes_le_of_eq hmark (by decide) (by decide) hlength⟩
  case h_6 | h_7 =>
    obtain ⟨hfits, hlength⟩ := h.leave hadd
    exact ⟨hfits, Scan.add_closes_le_of_closing hlength⟩
  case h_8 hmark | h_9 hmark =>
    obtain rfl := Except.ok.inj hadd
    obtain ⟨hfits, hlength⟩ := h.takeText mark
    exact ⟨hfits, Scan.add_closes_le_of_eq hmark (by decide) (by decide) hlength⟩
  case h_10 hobject harray _ _ =>
    obtain rfl := Except.ok.inj hadd
    exact ⟨h, Scan.add_closes_le_of_eq rfl hobject harray rfl⟩

end Builder
end Note

/-! ## The document -/

namespace OpenNode

/-- What is read of an object or an array leaves its parts so many levels, and the name of the next property
is read from its mark. -/
structure IsLaidOut (levels : Nat) (n : OpenNode) : Prop where
  node : n.node.IsLaidOut (levels + 1)
  key : ∀ properties key, n.filling = .object properties (some key) → key.IsRead

variable {levels : Nat} {n n' : OpenNode}

/-- A value that has room becomes a part. -/
theorem IsLaidOut.place (h : n.IsLaidOut levels) {value : Node} (hvalue : value.IsLaidOut levels)
    (hplace : n.place value = .ok n') : n'.IsLaidOut levels := by
  obtain ⟨header, filling⟩ := n
  obtain ⟨⟨hkeys, hchildren⟩, hkey⟩ := h
  cases filling with
  | array items =>
    obtain rfl := Except.ok.inj hplace
    refine ⟨⟨trivial, fun child hchild => ?_⟩, fun _ _ h => by cases h⟩
    rcases List.mem_cons.1 (List.mem_reverse.1 hchild) with rfl | hchild
    · exact hvalue
    · exact hchildren child (List.mem_reverse.2 hchild)
  | object properties key? =>
    cases key? with
    | none => cases hplace
    | some key =>
      rw [OpenNode.place] at hplace
      dsimp only at hplace
      split at hplace
      · cases hplace
      · next hnew =>
        obtain rfl := Except.ok.inj hplace
        obtain ⟨hnodup, hread⟩ := hkeys
        refine ⟨⟨⟨?_, fun p hp => ?_⟩, fun child hchild => ?_⟩, fun _ _ h => by cases h⟩
        · rw [List.reverse_cons, List.map_append, List.map_singleton, ← List.concat_eq_append]
          refine List.Nodup.concat (fun hname => hnew ?_) hnodup
          obtain ⟨p, hp, heq⟩ := List.mem_map.1 hname
          exact List.any_eq_true.2 ⟨p, List.mem_reverse.1 hp, beq_iff_eq.2 heq⟩
        · rcases List.mem_cons.1 (List.mem_reverse.1 hp) with rfl | hp
          · exact hkey properties key rfl
          · exact hread p (List.mem_reverse.2 hp)
        · obtain ⟨p, hp, rfl⟩ := List.mem_map.1 hchild
          rcases List.mem_cons.1 (List.mem_reverse.1 hp) with rfl | hp
          · exact hvalue
          · exact hchildren p.2 (List.mem_map_of_mem (List.mem_reverse.2 hp))

/-- The next property has its name. -/
theorem IsLaidOut.takeKey (h : n.IsLaidOut levels) {key : PropertyKey} (hkey : key.IsRead) :
    (n.takeKey key).IsLaidOut levels := by
  refine ⟨by rw [node_takeKey]; exact h.node, fun properties key' hfilling => ?_⟩
  obtain ⟨header, filling⟩ := n
  cases filling with
  | object =>
    obtain ⟨-, hsome⟩ := Filling.object.inj hfilling
    rwa [← Option.some.inj hsome]
  | array => cases hfilling

/-- What keeps a layout may happen to the value completed last. -/
theorem IsLaidOut.changeLast? (h : n.IsLaidOut levels) {change : Node → Outcome Node}
    (hchange : ∀ old new : Node, old.IsLaidOut levels → change old = .ok new → new.IsLaidOut levels)
    (hchanged : n.changeLast? change = some (.ok n')) : n'.IsLaidOut levels := by
  obtain ⟨header, filling⟩ := n
  obtain ⟨⟨hkeys, hchildren⟩, hkey⟩ := h
  rcases filling with ⟨_ | ⟨⟨key, old⟩, rest⟩, key?⟩ | ⟨_ | ⟨old, rest⟩⟩
  · cases hchanged
  · obtain ⟨new, hnew, rfl⟩ := Except.map_eq_ok_iff.1 (Option.some.inj hchanged)
    simp only [OpenNode.node, Node.HasReadKeys, Node.children, List.reverse_cons, List.map_append,
      List.map_singleton, List.mem_append, List.mem_singleton] at hkeys hchildren
    refine ⟨⟨?_, ?_⟩, fun properties key' hfilling => ?_⟩
    · simp only [OpenNode.node, Node.HasReadKeys, List.reverse_cons, List.map_append,
        List.map_singleton, List.mem_append, List.mem_singleton]
      refine ⟨hkeys.1, ?_⟩
      rintro p (hp | rfl)
      · exact hkeys.2 p (Or.inl hp)
      · exact hkeys.2 (key, old) (Or.inr rfl)
    · simp only [OpenNode.node, Node.children, List.reverse_cons, List.map_append,
        List.map_singleton, List.mem_append, List.mem_singleton]
      rintro child (hchild | rfl)
      · exact hchildren child (Or.inl hchild)
      · exact hchange old _ (hchildren old (Or.inr rfl)) hnew
    · obtain ⟨-, rfl⟩ := Filling.object.inj hfilling
      exact hkey _ _ rfl
  · cases hchanged
  · obtain ⟨new, hnew, rfl⟩ := Except.map_eq_ok_iff.1 (Option.some.inj hchanged)
    simp only [OpenNode.node, Node.children, List.reverse_cons, List.mem_append,
      List.mem_singleton] at hchildren
    refine ⟨⟨trivial, ?_⟩, fun _ _ h => by cases h⟩
    simp only [OpenNode.node, Node.children, List.reverse_cons, List.mem_append, List.mem_singleton]
    rintro child (hchild | rfl)
    · exact hchildren child (Or.inl hchild)
    · exact hchange old _ (hchildren old (Or.inr rfl)) hnew

end OpenNode

namespace Loader

/-- How many containers are open, in the document and in the note that is being read. -/
def depth (l : Loader) : Nat :=
  l.openNodes.length + l.note?.elim 0 fun builder => builder.frames.length

/-- The tree and what is open have the room that they need. -/
structure IsLaidOut (l : Loader) : Prop where
  root : ∀ root, l.root? = some root → root.IsLaidOut maxDepth
  openNodes : FitsRoom OpenNode.IsLaidOut l.openNodes

variable {l m : Loader} {mark : Mark}

/-- A value is put where it has room. -/
theorem IsLaidOut.place (h : l.IsLaidOut) {value : Node}
    (hvalue : ∀ room, l.openNodes.length + room = maxDepth → value.IsLaidOut room)
    (hplace : l.place value = .ok m) : m.IsLaidOut ∧ m.openNodes.length = l.openNodes.length := by
  rw [Loader.place] at hplace
  split at hplace
  · next hopen =>
    obtain rfl := Except.ok.inj hplace
    refine ⟨⟨fun root hroot => ?_, h.openNodes⟩, rfl⟩
    rw [← Option.some.inj hroot]
    exact hvalue maxDepth (by rw [hopen]; exact Nat.zero_add _)
  · next top rest hopen =>
    obtain ⟨placed, hplaced, hplace⟩ := Except.bind_eq_ok_iff.1 hplace
    obtain rfl := Except.ok.inj hplace
    have hopens := h.openNodes
    rw [hopen] at hopens hvalue ⊢
    refine ⟨⟨h.root, hopens.change fun room hroom htop => htop.place (hvalue room ?_) hplaced⟩, rfl⟩
    rw [List.length_cons]
    omega

theorem IsLaidOut.placeLeaf (h : l.IsLaidOut) {value : Node} (hvalue : value.IsLeaf)
    (hplace : l.place value = .ok m) : m.IsLaidOut ∧ m.openNodes.length = l.openNodes.length :=
  h.place (fun room _ => hvalue.isLaidOut room) hplace

/-- An object or an array is put, complete, where it was opened. -/
theorem IsLaidOut.leave (h : l.IsLaidOut) (hleave : l.leave mark = .ok m) :
    m.IsLaidOut ∧ m.openNodes.length + 1 = l.openNodes.length := by
  rw [Loader.leave] at hleave
  split at hleave
  · next top rest hopen =>
    have hopens := h.openNodes
    rw [hopen] at hopens ⊢
    obtain ⟨⟨room, hroom, htop⟩, hrest⟩ := hopens
    have hclosed : IsLaidOut { l with openNodes := rest } := ⟨h.root, hrest⟩
    have hwhole : ∀ room', rest.length + room' = maxDepth → (top.close mark).IsLaidOut room' := by
      intro room' hroom'
      obtain rfl : room' = room + 1 := by omega
      rw [OpenNode.close_eq]
      exact Node.isLaidOut_withHeader.2 htop.node
    obtain ⟨hlaid, hlength⟩ := hclosed.place hwhole hleave
    exact ⟨hlaid, by rw [hlength, List.length_cons]⟩
  · cases hleave

/-- The next property has its name. -/
theorem IsLaidOut.takeKey (h : l.IsLaidOut) {key : PropertyKey} (hkey : key.IsRead) :
    (l.takeKey key).IsLaidOut ∧ (l.takeKey key).openNodes.length = l.openNodes.length := by
  rw [Loader.takeKey]
  split
  · next top rest hopen =>
    have hopens := h.openNodes
    rw [hopen] at hopens ⊢
    exact ⟨⟨h.root, hopens.change fun _ _ htop => htop.takeKey hkey⟩, rfl⟩
  · exact ⟨h, rfl⟩

/-- What is opened has no parts. -/
theorem IsLaidOut.enter (h : l.IsLaidOut) (hlength : l.openNodes.length < maxDepth) {type : JsonType}
    {filling : Filling} (hfilling : filling = .object [] none ∨ filling = .array []) :
    (l.enter mark type filling).IsLaidOut := by
  refine ⟨h.root, h.openNodes.push hlength fun room => ?_⟩
  rcases hfilling with rfl | rfl
  · exact ⟨⟨⟨List.nodup_nil, nofun⟩, nofun⟩, nofun⟩
  · exact ⟨⟨trivial, nofun⟩, nofun⟩

/-- A note does not change the layout. -/
theorem IsLaidOut.describe (h : l.IsLaidOut) {note : Note} {added : List Rule}
    (hdescribe : l.describe note added = .ok m) :
    m.IsLaidOut ∧ m.openNodes.length = l.openNodes.length := by
  rw [Loader.describe] at hdescribe
  dsimp only at hdescribe
  split at hdescribe
  · obtain rfl := Except.ok.inj hdescribe
    exact ⟨h, rfl⟩
  · next root _ hroot =>
    obtain ⟨changed, hchanged, hdescribe⟩ := Except.bind_eq_ok_iff.1 hdescribe
    obtain rfl := Except.ok.inj hdescribe
    refine ⟨⟨fun root' hroot' => ?_, h.openNodes⟩, rfl⟩
    rw [← Option.some.inj hroot']
    exact (h.root root hroot).annotate hchanged
  · next top rest _ hopen =>
    obtain ⟨noted, -, hdescribe⟩ := Except.bind_eq_ok_iff.1 hdescribe
    obtain ⟨header, -, hdescribe⟩ := Except.bind_eq_ok_iff.1 hdescribe
    obtain rfl := Except.ok.inj hdescribe
    have hopens := h.openNodes
    rw [hopen] at hopens ⊢
    refine ⟨⟨h.root, hopens.change fun room _ htop => ⟨?_, htop.key⟩⟩, rfl⟩
    have hnode : (OpenNode.mk header top.filling).node = top.node.withHeader header := by
      obtain ⟨_, filling⟩ := top
      cases filling <;> rfl
    rw [hnode]
    exact Node.isLaidOut_withHeader.2 htop.node
  · next top rest _ hopen =>
    split at hdescribe
    · next changed hchanged =>
      obtain ⟨last, hlast, hdescribe⟩ := Except.bind_eq_ok_iff.1 hdescribe
      obtain rfl := Except.ok.inj hdescribe
      rw [hlast] at hchanged
      have hopens := h.openNodes
      rw [hopen] at hopens ⊢
      refine ⟨⟨h.root, hopens.change fun room _ htop => ?_⟩, rfl⟩
      exact htop.changeLast? (fun _ _ hold => hold.annotate) hchanged
    · cases hdescribe
  · cases hdescribe

/-- A complete note does not change the layout. -/
theorem IsLaidOut.applyNote (h : l.IsLaidOut) {note : Note} (happly : l.applyNote note = .ok m) :
    m.IsLaidOut ∧ m.openNodes.length = l.openNodes.length := by
  rw [Loader.applyNote] at happly
  split at happly
  · obtain rfl := Except.ok.inj happly
    exact ⟨h, rfl⟩
  · exact h.describe happly
  · split at happly
    · cases happly
    · obtain ⟨⟨built, unnamed⟩, -, happly⟩ := Except.bind_eq_ok_iff.1 happly
      have hsame : IsLaidOut { l with unnamed } := ⟨h.root, h.openNodes⟩
      exact hsame.describe happly

/-- An event outside notes fits, and leaves no more open than it opens and does not close. -/
theorem IsLaidOut.addEvent (h : l.IsLaidOut)
    (hdepth : l.openNodes.length + opens [mark.event] ≤ maxDepth)
    (hshortcut : mark.kind = .closing .keyShortcut → isUserTypeName mark.text = true) (hm : l.addEvent mark = .ok m) :
    m.IsLaidOut ∧
      m.openNodes.length + closes [mark.event] ≤ l.openNodes.length + opens [mark.event] := by
  rw [Loader.addEvent] at hm
  split at hm
  case h_1 hmark =>
    obtain rfl := Except.ok.inj hm
    obtain ⟨hopens, hlength⟩ := Scan.add_closes_le_of_opening (e := mark.event) hmark rfl rfl
    exact ⟨h.enter (by omega) (Or.inl rfl), hlength⟩
  case h_2 hmark =>
    obtain rfl := Except.ok.inj hm
    obtain ⟨hopens, hlength⟩ := Scan.add_closes_le_of_opening (e := mark.event) hmark rfl rfl
    exact ⟨h.enter (by omega) (Or.inr rfl), hlength⟩
  case h_3 | h_4 =>
    obtain ⟨hlaid, hlength⟩ := h.leave hm
    exact ⟨hlaid, Scan.add_closes_le_of_closing hlength⟩
  case h_5 hmark =>
    obtain rfl := Except.ok.inj hm
    obtain ⟨hlaid, hlength⟩ := h.takeKey (show PropertyKey.IsRead ⟨mark.text, mark, true, false⟩ from
      ⟨by rintro ⟨⟩, fun _ => hshortcut hmark, rfl⟩)
    exact ⟨hlaid, Scan.add_closes_le_of_eq hmark (by decide) (by decide) hlength⟩
  case h_6 hmark =>
    rw [takeName] at hm
    split at hm
    · obtain ⟨name, hname, hm⟩ := Except.bind_eq_ok_iff.1 hm
      obtain rfl := Except.ok.inj hm
      obtain ⟨hlaid, hlength⟩ := h.takeKey (show PropertyKey.IsRead ⟨name, mark, false, false⟩ from
        ⟨fun _ => Except.mapError_eq_ok_iff.1 hname, by rintro ⟨⟩, rfl⟩)
      exact ⟨hlaid, Scan.add_closes_le_of_eq hmark (by decide) (by decide) hlength⟩
    · obtain rfl := Except.ok.inj hm
      exact ⟨h, Scan.add_closes_le_of_eq hmark (by decide) (by decide) rfl⟩
  case h_7 hmark =>
    obtain ⟨hlaid, hlength⟩ := h.placeLeaf (show (sampleNode mark).IsLeaf from trivial) hm
    exact ⟨hlaid, Scan.add_closes_le_of_eq hmark (by decide) (by decide) hlength⟩
  case h_8 hmark =>
    obtain ⟨node, hnode, hm⟩ := Except.bind_eq_ok_iff.1 hm
    have hleaf : node.IsLeaf := by
      obtain ⟨names, -, hnode⟩ := Except.bind_eq_ok_iff.1 hnode
      obtain ⟨header, -, hnode⟩ := Except.bind_eq_ok_iff.1 hnode
      obtain rfl := Except.ok.inj hnode
      exact trivial
    obtain ⟨hlaid, hlength⟩ := h.placeLeaf hleaf hm
    exact ⟨hlaid, Scan.add_closes_le_of_eq hmark (by decide) (by decide) hlength⟩
  case h_9 hmark | h_10 hmark | h_11 hmark =>
    obtain rfl := Except.ok.inj hm
    exact ⟨⟨h.root, h.openNodes⟩, Scan.add_closes_le_of_eq hmark (by decide) (by decide) rfl⟩
  case h_12 hobject harray _ _ _ _ _ _ _ =>
    obtain rfl := Except.ok.inj hm
    exact ⟨h, Scan.add_closes_le_of_eq rfl hobject harray rfl⟩

/-- What holds of the loader at any moment, beside the collector of its notes: the tree, what is open, and
the notes have the room that they need. -/
structure Fits (l : Loader) (c : Note.Collector) : Prop where
  laidOut : l.IsLaidOut
  builder : ∀ b, c.builder? = some b → b.Fits
  notes : ∀ note ∈ c.notes, note.Fits

variable {c d : Note.Collector}

theorem fits_start (unnamed : Unnamed) : Fits { unnamed } {} :=
  ⟨⟨fun _ h => (by cases h), trivial⟩, fun _ h => (by cases h), fun _ h => (by cases h)⟩

/-- **One event** fits, and leaves no more open than it opens and does not close. -/
theorem Fits.add (h : l.Fits c) (hsame : l.note? = c.builder?)
    (hdepth : l.depth + opens [mark.event] ≤ maxDepth)
    (hshortcut : mark.kind = .closing .keyShortcut → isUserTypeName mark.text = true) (hm : l.add mark = .ok m)
    (hd : c.add mark = .ok d) (hsame' : m.note? = d.builder?) :
    m.Fits d ∧ m.depth + closes [mark.event] ≤ l.depth + opens [mark.event] := by
  obtain ⟨builder?, notes⟩ := c
  rw [depth, hsame] at hdepth
  rw [depth, depth, hsame, hsame']
  rw [Loader.add, hsame] at hm
  cases builder? with
  | none =>
    obtain ⟨hlaid, hlength⟩ := h.laidOut.addEvent hdepth hshortcut hm
    rw [Note.Collector.add] at hd
    dsimp only at hd
    split at hd
    all_goals obtain rfl := Except.ok.inj hd
    case h_1 | h_2 =>
      refine ⟨⟨hlaid, fun b hb => ?_, h.notes⟩, hlength⟩
      rw [← Option.some.inj hb]
      exact Note.Builder.fits_start mark
    case h_3 => exact ⟨⟨hlaid, h.builder, h.notes⟩, hlength⟩
  | some builder =>
    have hbuilder := h.builder builder rfl
    have hclosed : IsLaidOut { l with note? := none } := ⟨h.laidOut.root, h.laidOut.openNodes⟩
    have hnotes : ∀ note ∈ notes ++ [builder.note], note.Fits := by
      intro note hnote
      rcases List.mem_append.1 hnote with hnote | hnote
      · exact h.notes note hnote
      · rw [List.mem_singleton.1 hnote]
        exact hbuilder.note
    dsimp only at hm
    rw [addToNote] at hm
    dsimp only [Option.elim] at hdepth ⊢
    split at hm
    case h_1 hkind | h_2 hkind =>
      obtain rfl := Except.ok.inj ((Note.Collector.add_of_closing (by simp [hkind])).symm.trans hd)
      obtain ⟨hlaid, hlength⟩ := hclosed.applyNote hm
      refine ⟨⟨hlaid, fun _ h => (by cases h), hnotes⟩, ?_⟩
      rw [hlength, Scan.closes_singleton_eq_zero hkind (by decide) (by decide)]
      dsimp only [Option.elim]
      omega
    case h_3 hinline hblock =>
      obtain ⟨next, hnext, hm⟩ := Except.bind_eq_ok_iff.1 hm
      obtain rfl := Except.ok.inj hm
      obtain rfl := Except.ok.inj ((Note.Collector.add_of_within hinline hblock hnext).symm.trans hd)
      obtain ⟨hfits, hlength⟩ := hbuilder.add (Nat.le_trans (by omega) hdepth) hnext
      refine ⟨⟨⟨h.laidOut.root, h.laidOut.openNodes⟩, fun b hb => ?_, h.notes⟩, ?_⟩
      · rwa [← Option.some.inj hb]
      · dsimp only [Option.elim]
        omega

/-- All events, one after the other. -/
theorem Fits.foldlM {source : Source} {owner : String} {before rest : List Event} (h : l.Fits c)
    (hfollows : Follows source owner l c) (hdepth : l.depth + closes before ≤ opens before)
    (hopens : ∀ earlier, earlier <+: before ++ rest → opens earlier ≤ closes earlier + maxDepth)
    (hliterals : ∀ e ∈ rest, e.kind = .closing .literal →
      IsLiteral (source.content.slice e.start e.stop))
    (hshortcuts : ∀ e ∈ rest, e.kind = .closing .keyShortcut →
      isUserTypeName (source.content.slice e.start e.stop).toText = true)
    (hm : rest.foldlM (fun (l : Loader) event => l.add ⟨source, event⟩) l = .ok m) :
    ∃ d, rest.foldlM (fun (c : Note.Collector) event => c.add ⟨source, event⟩) c = .ok d ∧ m.Fits d := by
  induction rest generalizing l c before with
  | nil =>
    obtain rfl := Except.ok.inj hm
    exact ⟨c, rfl, h⟩
  | cons event rest ih =>
    rw [List.foldlM_cons] at hm
    obtain ⟨l', hl', hm⟩ := Except.bind_eq_ok_iff.1 hm
    rw [List.forall_mem_cons] at hliterals hshortcuts
    obtain ⟨c', hc', hfollows'⟩ := hfollows.add hl' hliterals.1
    have happend : before ++ [event] ++ rest = before ++ event :: rest := by simp
    have hbefore := hopens before (List.prefix_append _ _)
    have hafter := hopens (before ++ [event]) (happend ▸ List.prefix_append _ _)
    rw [Scan.opens_append, Scan.closes_append] at hafter
    have hroom : l.depth + opens [event] ≤ maxDepth := by
      rcases Scan.opens_eq_zero_or_closes_eq_zero event with hnone | hnone <;> omega
    have hshortcut : Mark.kind ⟨source, event⟩ = .closing .keyShortcut →
        isUserTypeName (Mark.text ⟨source, event⟩) = true := hshortcuts.1
    obtain ⟨hfits, hless⟩ := h.add hfollows.note? hroom hshortcut hl' hc' hfollows'.note?
    change l'.depth + closes [event] ≤ l.depth + opens [event] at hless
    obtain ⟨d, hd, hend⟩ := ih hfits hfollows' (by rw [Scan.opens_append, Scan.closes_append]; omega)
      (happend ▸ hopens) hliterals.2 hshortcuts.2 hm
    refine ⟨d, ?_, hend⟩
    rw [List.foldlM_cons, hc', Except.ok_bind, hd]

end Loader

/-- **How deep a document nests**: its tree has no more levels than a scan lets containers nest, and neither
have the values of its notes. -/
theorem Schema.isLaidOut_of_load_eq_ok {source : Source} {owner : String} {schema : Schema}
    {notes : List Note} (h : Schema.load source owner = .ok schema) (hnotes : source.notes = .ok notes) :
    schema.root.IsLaidOut maxDepth ∧ ∀ note ∈ notes, note.Fits := by
  obtain ⟨l, hl, h⟩ := Except.bind_eq_ok_iff.1 h
  obtain ⟨events, hread, hl⟩ := Scan.foldMarks_eq_ok_iff.1 hl
  obtain ⟨c, hc, hnotes⟩ := Except.bind_eq_ok_iff.1 hnotes
  obtain ⟨events', hread', hc⟩ := Scan.foldMarks_eq_ok_iff.1 hc
  obtain rfl : events = events' := congrArg Scan.Reading.events (hread.symm.trans hread')
  obtain rfl := Except.ok.inj hnotes
  have hliterals : ∀ e ∈ events, e.kind = .closing .literal →
      IsLiteral (source.content.slice e.start e.stop) := by
    intro e he
    refine Scan.isLiteral_of_mem_read (o := {}) ?_
    rwa [hread]
  have hshortcuts : ∀ e ∈ events, e.kind = .closing .keyShortcut →
      isUserTypeName (source.content.slice e.start e.stop).toText = true := by
    intro e he hkind
    refine (Scan.isKeyShortcut_of_mem_read (o := {}) ?_ hkind).isUserTypeName
    rwa [hread]
  have hopens : ∀ earlier, earlier <+: [] ++ events → opens earlier ≤ closes earlier + maxDepth := by
    rintro earlier ⟨later, hlater⟩
    refine @Scan.opens_le_of_read source.content {} earlier later ?_
    rw [hread, hlater, List.nil_append]
  obtain ⟨d, hd, hfits⟩ := (Loader.fits_start { source, owner }).foldlM (Loader.follows_start source owner)
    (Nat.zero_le _) hopens hliterals hshortcuts hl
  obtain rfl := Except.ok.inj (hd.symm.trans hc)
  split at h
  · next root hroot =>
    obtain rfl := Except.ok.inj h
    exact ⟨hfits.laidOut.root root hroot, hfits.notes⟩
  · cases h

end ExampleSchema
