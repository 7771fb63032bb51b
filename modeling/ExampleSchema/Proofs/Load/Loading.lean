import ExampleSchema.Proofs.Load.Rules
import ExampleSchema.Proofs.Scan.Content
import ExampleSchema.Schema.Load

/-!
# What a document loads as

The loader takes the events of a document one by one.  Beside it runs a collector that only reads the
notes.  Whatever the loader has put together at any moment comes of samples and shortcuts by the rules of
the notes that are read by then, and the unions among these rules refer to types that the registry has
and keeps.

* `Source.notes`: the notes of a document, read on their own.
* `IsReadFrom`: some rules are those of a note.
* `Loader.Follows`: what holds of the loader at any moment, and `Loader.Follows.add`, one event.
* `Schema.IsLoaded`, `Schema.exists_isLoaded_of_load_eq_ok`: what holds of a loaded schema.
-/

namespace ExampleSchema

/-! ## Notes -/

/-- What is read of the notes of a document. -/
structure Note.Collector where
  /-- The note that is being read. -/
  builder? : Option Note.Builder := none
  notes : List Note := []

/-- Takes an event. -/
def Note.Collector.add (c : Collector) (mark : Mark) : Outcome Collector :=
  match c.builder? with
  | some builder =>
    match mark.kind with
    | .closing .inlineNote | .closing .blockNote =>
      .ok { builder? := none, notes := c.notes ++ [builder.note] }
    | _ => do return { c with builder? := some (← builder.add mark) }
  | none =>
    match mark.kind with
    | .opening .inlineNote | .opening .blockNote => .ok { c with builder? := some { mark } }
    | _ => .ok c

/-- A note that ends has been read. -/
theorem Note.Collector.add_of_closing {builder : Builder} {notes : List Note} {mark : Mark}
    (h : mark.kind = .closing .inlineNote ∨ mark.kind = .closing .blockNote) :
    add { builder? := some builder, notes } mark = .ok { notes := notes ++ [builder.note] } := by
  rw [add]
  rcases h with h | h <;> rw [h]

/-- Inside a note, events go to its builder. -/
theorem Note.Collector.add_of_within {builder next : Builder} {notes : List Note} {mark : Mark}
    (hinline : mark.kind ≠ .closing .inlineNote) (hblock : mark.kind ≠ .closing .blockNote)
    (h : builder.add mark = .ok next) :
    add { builder? := some builder, notes } mark = .ok { builder? := some next, notes } := by
  rw [add]
  dsimp only
  split
  · next hkind => exact (hinline hkind).elim
  · next hkind => exact (hblock hkind).elim
  · rw [h]
    rfl

/-- The notes of a document. -/
def Source.notes (source : Source) : Outcome (List Note) := do
  return (← Scan.foldMarks {} source Note.Collector.add {}).notes

/-- The rules are those of a note, or none. -/
def IsReadFrom (notes : List Note) (stands : String → Node → Nat → Prop) (added : List Rule) : Prop :=
  added = [] ∨ ∃ note ∈ notes, ∃ rules, note.rules? = some rules ∧ ReadsRules stands rules added

theorem IsReadFrom.mono {notes notes' : List Note} {stands stands' : String → Node → Nat → Prop}
    (hnotes : notes ⊆ notes') (hstands : ∀ name node start, stands name node start → stands' name node start)
    (added : List Rule) (h : IsReadFrom notes stands added) : IsReadFrom notes' stands' added := by
  rcases h with rfl | ⟨note, hnote, rules, hrules, hreads⟩
  · exact Or.inl rfl
  · exact Or.inr ⟨note, hnotes hnote, rules, hrules, hreads.mono hstands⟩

theorem IsReadFrom.areRead {notes : List Note} {stands : String → Node → Nat → Prop}
    {added : List Rule} (h : IsReadFrom notes stands added) : AreRead added := by
  rcases h with rfl | ⟨note, -, rules, -, hreads⟩
  · exact ⟨stands, [], .nil⟩
  · exact ⟨stands, rules, hreads⟩

/-! ## Open objects and arrays -/

variable {isRead : List Rule → Prop}

namespace OpenNode

/-- What is read of the object or the array so far. -/
def node (n : OpenNode) : Node :=
  match n.filling with
  | .object properties _ => .object n.header properties.reverse
  | .array items => .array n.header items.reverse

theorem close_eq (n : OpenNode) (mark : Mark) :
    n.close mark = n.node.withHeader { n.header with basis := mark } := by
  rw [close, node]
  cases n.filling <;> rfl

theorem header_node (n : OpenNode) : n.node.header = n.header := by
  rw [node]
  cases n.filling <;> rfl

theorem node_takeKey (n : OpenNode) (key : PropertyKey) : (n.takeKey key).node = n.node := by
  obtain ⟨header, filling⟩ := n
  cases filling <;> rfl

/-- A value that is placed becomes a part. -/
theorem areWritten_place {n placed : OpenNode} {value : Node} (h : n.node.AreWritten isRead)
    (hvalue : value.AreWritten isRead) (hplaced : n.place value = .ok placed) :
    placed.node.AreWritten isRead := by
  obtain ⟨header, filling⟩ := n
  obtain ⟨hnode, hchildren⟩ := Node.areWritten_iff.1 h
  refine Node.areWritten_iff.2 ?_
  cases filling with
  | array items =>
    obtain rfl := Except.ok.inj hplaced
    refine ⟨hnode, fun child hchild => ?_⟩
    rcases List.mem_cons.1 (List.mem_reverse.1 hchild) with rfl | hchild
    · exact hvalue
    · exact hchildren child (List.mem_reverse.2 hchild)
  | object properties key? =>
    cases key? with
    | none => cases hplaced
    | some key =>
      rw [place] at hplaced
      dsimp only at hplaced
      split at hplaced
      · cases hplaced
      · obtain rfl := Except.ok.inj hplaced
        refine ⟨hnode, fun child hchild => ?_⟩
        obtain ⟨p, hp, rfl⟩ := List.mem_map.1 hchild
        rcases List.mem_cons.1 (List.mem_reverse.1 hp) with rfl | hp
        · exact hvalue
        · exact hchildren p.2 (List.mem_map_of_mem (List.mem_reverse.2 hp))

/-- A value that is changed stays a part. -/
theorem areWritten_changeLast? {n changed : OpenNode} {change : Node → Outcome Node}
    (h : n.node.AreWritten isRead)
    (hchange : ∀ old new : Node, old.AreWritten isRead → change old = .ok new → new.AreWritten isRead)
    (hchanged : n.changeLast? change = some (.ok changed)) : changed.node.AreWritten isRead := by
  obtain ⟨header, filling⟩ := n
  obtain ⟨hnode, hchildren⟩ := Node.areWritten_iff.1 h
  refine Node.areWritten_iff.2 ?_
  rcases filling with ⟨_ | ⟨⟨key, old⟩, rest⟩, key?⟩ | ⟨_ | ⟨old, rest⟩⟩
  · cases hchanged
  · obtain ⟨new, hnew, rfl⟩ := Except.map_eq_ok_iff.1 (Option.some.inj hchanged)
    refine ⟨hnode, fun child hchild => ?_⟩
    obtain ⟨p, hp, rfl⟩ := List.mem_map.1 hchild
    rcases List.mem_cons.1 (List.mem_reverse.1 hp) with rfl | hp
    · exact hchange old _ (hchildren old (by simp [node, Node.children])) hnew
    · refine hchildren p.2 (List.mem_map_of_mem (List.mem_reverse.2 ?_))
      exact List.mem_cons_of_mem _ hp
  · cases hchanged
  · obtain ⟨new, hnew, rfl⟩ := Except.map_eq_ok_iff.1 (Option.some.inj hchanged)
    refine ⟨hnode, fun child hchild => ?_⟩
    rcases List.mem_cons.1 (List.mem_reverse.1 hchild) with rfl | hchild
    · exact hchange old _ (hchildren old (by simp [node, Node.children])) hnew
    · refine hchildren child (List.mem_reverse.2 ?_)
      exact List.mem_cons_of_mem _ hchild

end OpenNode

/-! ## The loader -/

namespace Loader

/-- All nodes that are read so far come of reading rules. -/
structure AreWritten (isRead : List Rule → Prop) (l : Loader) : Prop where
  root : ∀ root, l.root? = some root → root.AreWritten isRead
  openNodes : ∀ n ∈ l.openNodes, n.node.AreWritten isRead

/-- Nothing happens to the registry and to the note that is being read. -/
structure IsLeft (l m : Loader) : Prop where
  unnamed : m.unnamed = l.unnamed
  note? : m.note? = l.note?

theorem isLeft_takeKey (l : Loader) (key : PropertyKey) : l.IsLeft (l.takeKey key) := by
  rw [takeKey]
  split <;> exact ⟨rfl, rfl⟩

theorem AreWritten.mono {isRead' : List Rule → Prop} (h : ∀ added, isRead added → isRead' added)
    {l : Loader} (hl : l.AreWritten isRead) : l.AreWritten isRead' :=
  ⟨fun root hroot => (hl.root root hroot).mono h, fun n hn => (hl.openNodes n hn).mono h⟩

section

variable {l m : Loader} (hl : l.AreWritten isRead)
include hl

theorem AreWritten.place {value : Node} (hvalue : value.AreWritten isRead)
    (h : l.place value = .ok m) : m.AreWritten isRead ∧ l.IsLeft m := by
  rw [Loader.place] at h
  split at h
  · obtain rfl := Except.ok.inj h
    refine ⟨⟨fun root hroot => ?_, hl.openNodes⟩, rfl, rfl⟩
    rwa [← Option.some.inj hroot]
  · next top rest hopen =>
    obtain ⟨placed, hplaced, h⟩ := Except.bind_eq_ok_iff.1 h
    obtain rfl := Except.ok.inj h
    have hopens := hl.openNodes
    rw [hopen, List.forall_mem_cons] at hopens
    refine ⟨⟨hl.root, List.forall_mem_cons.2 ⟨?_, hopens.2⟩⟩, rfl, rfl⟩
    exact OpenNode.areWritten_place hopens.1 hvalue hplaced

theorem AreWritten.leave {mark : Mark} (h : l.leave mark = .ok m) :
    m.AreWritten isRead ∧ l.IsLeft m := by
  rw [Loader.leave] at h
  split at h
  · next top rest hopen =>
    have hopens := hl.openNodes
    rw [hopen, List.forall_mem_cons] at hopens
    have hrest : AreWritten isRead { l with openNodes := rest } := ⟨hl.root, hopens.2⟩
    have hclosed : (top.close mark).AreWritten isRead := by
      rw [OpenNode.close_eq]
      refine hopens.1.withHeader ?_ ?_ ?_ <;> rw [OpenNode.header_node]
    obtain ⟨hwritten, hunnamed, hnote⟩ := hrest.place hclosed h
    exact ⟨hwritten, hunnamed, hnote⟩
  · cases h

/-- What is open keeps its parts when the next one gets its name. -/
theorem AreWritten.takeKey (key : PropertyKey) : (l.takeKey key).AreWritten isRead := by
  rw [Loader.takeKey]
  split
  · next top rest hopen =>
    have hopens := hl.openNodes
    rw [hopen, List.forall_mem_cons] at hopens
    refine ⟨hl.root, List.forall_mem_cons.2 ⟨?_, hopens.2⟩⟩
    rw [OpenNode.node_takeKey]
    exact hopens.1
  · exact hl

/-- What is opened is an object or an array without parts. -/
theorem AreWritten.enter {mark : Mark} {type : JsonType} {filling : Filling}
    (h : (OpenNode.mk { jsonType := type, basis := mark } filling).node.IsWritten isRead .value) :
    (l.enter mark type filling).AreWritten isRead :=
  ⟨hl.root, List.forall_mem_cons.2 ⟨h.areWritten, hl.openNodes⟩⟩

/-- A note changes the node that it describes. -/
theorem AreWritten.describe {note : Note} {added : List Rule} (hadded : isRead added)
    (h : l.describe note added = .ok m) : m.AreWritten isRead ∧ l.IsLeft m := by
  rw [Loader.describe] at h
  dsimp only at h
  split at h
  · obtain rfl := Except.ok.inj h
    exact ⟨hl, rfl, rfl⟩
  · next root _ hroot =>
    obtain ⟨changed, hchanged, h⟩ := Except.bind_eq_ok_iff.1 h
    obtain rfl := Except.ok.inj h
    refine ⟨⟨fun root' hroot' => ?_, hl.openNodes⟩, rfl, rfl⟩
    rw [← Option.some.inj hroot']
    exact (hl.root root hroot).annotate hadded hchanged
  · next top rest _ hopen =>
    obtain ⟨noted, hnoted, h⟩ := Except.bind_eq_ok_iff.1 h
    obtain ⟨header, hheader, h⟩ := Except.bind_eq_ok_iff.1 h
    obtain rfl := Except.ok.inj h
    have hopens := hl.openNodes
    rw [hopen, List.forall_mem_cons] at hopens
    refine ⟨⟨hl.root, List.forall_mem_cons.2 ⟨?_, hopens.2⟩⟩, rfl, rfl⟩
    -- What is open has no sample, so a note does to it what it does to a node.
    have hannotate : top.node.annotate note.mark note.text? added =
        .ok (OpenNode.mk header top.filling).node := by
      obtain ⟨header', filling⟩ := top
      cases filling <;>
        simp_all [OpenNode.node, Node.annotate, Node.apply, Node.header, Node.sample?,
          Node.withHeader, pure, Except.pure]
    exact hopens.1.annotate hadded hannotate
  · next top rest _ hopen =>
    split at h
    · next changed hchanged =>
      obtain ⟨last, hlast, h⟩ := Except.bind_eq_ok_iff.1 h
      obtain rfl := Except.ok.inj h
      have hopens := hl.openNodes
      rw [hopen, List.forall_mem_cons] at hopens
      rw [hlast] at hchanged
      refine ⟨⟨hl.root, List.forall_mem_cons.2 ⟨?_, hopens.2⟩⟩, rfl, rfl⟩
      exact OpenNode.areWritten_changeLast? hopens.1
        (fun _ _ hold => hold.annotate hadded) hchanged
    · cases h
  · cases h

end

/-- A shortcut. -/
theorem areWritten_shortcut {mark : Mark} {node : Node} (h : Shortcut.node mark = .ok node) :
    node.AreWritten isRead := (Node.IsWritten.shortcut h).areWritten

/-- An event outside notes.  The registry is left, and at most a note begins. -/
theorem AreWritten.addEvent {l m : Loader} (hl : l.AreWritten isRead) (hnote : l.note? = none)
    {mark : Mark} (hliteral : mark.kind = .closing .literal → IsLiteral mark.bytes)
    (h : l.addEvent mark = .ok m) (notes : List Note) :
    m.AreWritten isRead ∧ m.unnamed = l.unnamed ∧
      Note.Collector.add { notes } mark = .ok { builder? := m.note?, notes } := by
  have hleft : l.IsLeft m → (∀ c, mark.kind = .opening c → c ≠ .inlineNote ∧ c ≠ .blockNote) →
      m.unnamed = l.unnamed ∧
        Note.Collector.add { notes } mark = .ok { builder? := m.note?, notes } := by
    rintro ⟨hunnamed, hsame⟩ hkind
    refine ⟨hunnamed, ?_⟩
    rw [Note.Collector.add, hsame, hnote]
    dsimp only
    split
    · next h => exact ((hkind _ h).1 rfl).elim
    · next h => exact ((hkind _ h).2 rfl).elim
    · rfl
  rw [Loader.addEvent] at h
  split at h
  case h_1 hkind =>
    obtain rfl := Except.ok.inj h
    exact ⟨hl.enter (.object mark), hleft ⟨rfl, rfl⟩ (by simp [hkind])⟩
  case h_2 hkind =>
    obtain rfl := Except.ok.inj h
    exact ⟨hl.enter (.array mark), hleft ⟨rfl, rfl⟩ (by simp [hkind])⟩
  case h_3 hkind | h_4 hkind =>
    obtain ⟨hwritten, hsame⟩ := hl.leave h
    exact ⟨hwritten, hleft hsame (by simp [hkind])⟩
  case h_5 hkind =>
    obtain rfl := Except.ok.inj h
    exact ⟨hl.takeKey _, hleft (isLeft_takeKey l _) (by simp [hkind])⟩
  case h_6 hkind =>
    rw [takeName] at h
    split at h
    · obtain ⟨name, -, h⟩ := Except.bind_eq_ok_iff.1 h
      obtain rfl := Except.ok.inj h
      exact ⟨hl.takeKey _, hleft (isLeft_takeKey l _) (by simp [hkind])⟩
    · obtain rfl := Except.ok.inj h
      exact ⟨hl, hleft ⟨rfl, rfl⟩ (by simp [hkind])⟩
  case h_7 hkind =>
    have hsample : (sampleNode mark).AreWritten isRead :=
      (Node.IsWritten.sample (hliteral hkind)).areWritten
    obtain ⟨hwritten, hsame⟩ := hl.place hsample h
    exact ⟨hwritten, hleft hsame (by simp [hkind])⟩
  case h_8 hkind =>
    obtain ⟨node, hnode, h⟩ := Except.bind_eq_ok_iff.1 h
    obtain ⟨hwritten, hsame⟩ := hl.place (areWritten_shortcut hnode) h
    exact ⟨hwritten, hleft hsame (by simp [hkind])⟩
  case h_9 hkind | h_10 hkind =>
    obtain rfl := Except.ok.inj h
    refine ⟨⟨hl.root, hl.openNodes⟩, rfl, ?_⟩
    rw [Note.Collector.add, hkind]
  case h_11 hkind =>
    obtain rfl := Except.ok.inj h
    exact ⟨⟨hl.root, hl.openNodes⟩, hleft ⟨rfl, rfl⟩ (by simp [hkind])⟩
  case h_12 =>
    obtain rfl := Except.ok.inj h
    refine ⟨hl, hleft ⟨rfl, rfl⟩ fun c hkind => ?_⟩
    constructor
    all_goals
      rintro rfl
      simp_all

/-! ## Loading -/

/-- What holds of the loader of a document at any moment, beside the collector of its notes. -/
structure Follows (source : Source) (owner : String) (l : Loader) (c : Note.Collector) : Prop where
  note? : l.note? = c.builder?
  source : l.unnamed.source = source
  owner : l.unnamed.owner = owner
  inOrder : l.unnamed.InOrder
  areWritten : l.AreWritten (IsReadFrom c.notes l.unnamed.Has)
  areRead : ∀ note ∈ c.notes, ∀ rules, note.rules? = some rules →
    ∃ added, ReadsRules l.unnamed.Has rules added

variable {source : Source} {owner : String} {l m : Loader} {c : Note.Collector}

theorem follows_start (source : Source) (owner : String) :
    Follows source owner { unnamed := { source, owner } } {} where
  note? := rfl
  source := rfl
  owner := rfl
  inOrder := ⟨by simp [Catalog.keys], by simp, by simp⟩
  areWritten := ⟨by simp, by simp⟩
  areRead := by simp

/-- A note joins those that are read, where the registry goes on and has the rules of the note. -/
theorem Follows.join {note : Note} (h : Follows source owner l c)
    (hext : l.unnamed.Extends m.unnamed) (hinOrder : m.unnamed.InOrder) (hnote : m.note? = none)
    (hwritten : m.AreWritten (IsReadFrom (c.notes ++ [note]) m.unnamed.Has))
    (hreads : ∀ rules, note.rules? = some rules → ∃ added, ReadsRules m.unnamed.Has rules added) :
    Follows source owner m { builder? := none, notes := c.notes ++ [note] } where
  note? := hnote
  source := hext.source.trans h.source
  owner := hext.owner.trans h.owner
  inOrder := hinOrder
  areWritten := hwritten
  areRead := by
    intro read hread rules hrules
    rcases List.mem_append.1 hread with hread | hread
    · obtain ⟨added, hadded⟩ := h.areRead read hread rules hrules
      exact ⟨added, hadded.mono fun _ _ _ => hext.has⟩
    · rw [List.mem_singleton.1 hread] at hrules
      exact hreads rules hrules

/-- A complete note joins those that are read. -/
theorem Follows.applyNote {note : Note} (h : Follows source owner l c) (hnote : l.note? = none)
    (hm : l.applyNote note = .ok m) :
    Follows source owner m { builder? := none, notes := c.notes ++ [note] } := by
  have hlarger : ∀ {u : Unnamed}, l.unnamed.Extends u →
      l.AreWritten (IsReadFrom (c.notes ++ [note]) u.Has) := fun hext =>
    h.areWritten.mono (IsReadFrom.mono (List.subset_append_left _ _) fun _ _ _ => hext.has)
  rw [Loader.applyNote] at hm
  split at hm
  · next hrules _ =>
    obtain rfl := Except.ok.inj hm
    refine h.join (.refl _) h.inOrder hnote (hlarger (.refl _)) ?_
    rw [hrules]
    exact nofun
  · next hrules _ =>
    obtain ⟨hwritten, hunnamed, hsame⟩ := (hlarger (.refl _)).describe (Or.inl rfl) hm
    rw [← hunnamed] at hwritten
    refine h.join (hunnamed ▸ .refl _) (hunnamed ▸ h.inOrder) (hsame.trans hnote) hwritten ?_
    rw [hrules]
    exact nofun
  · next rules hrules =>
    split at hm
    · cases hm
    · obtain ⟨⟨built, unnamed⟩, hbuilt, hm⟩ := Except.bind_eq_ok_iff.1 hm
      obtain ⟨hext, hinOrder, hreads⟩ := RuleValue.constraintsOf_reads h.inOrder hbuilt
      have hwritten : AreWritten (IsReadFrom (c.notes ++ [note]) unnamed.Has) { l with unnamed } :=
        ⟨(hlarger hext).root, (hlarger hext).openNodes⟩
      have hnew : IsReadFrom (c.notes ++ [note]) unnamed.Has built :=
        Or.inr ⟨note, by simp, rules, hrules, hreads⟩
      obtain ⟨hwritten, hunnamed, hsame⟩ := hwritten.describe hnew hm
      change m.unnamed = unnamed at hunnamed
      rw [← hunnamed] at hext hinOrder hreads hwritten
      refine h.join hext hinOrder (hsame.trans hnote) hwritten fun rules' hrules' => ?_
      obtain rfl := Option.some.inj (hrules.symm.trans hrules')
      exact ⟨built, hreads⟩

/-- **One event.**  The collector takes whatever the loader takes, and the two still go together. -/
theorem Follows.add (h : Follows source owner l c) {mark : Mark} (hm : l.add mark = .ok m)
    (hliteral : mark.kind = .closing .literal → IsLiteral mark.bytes) :
    ∃ d, c.add mark = .ok d ∧ Follows source owner m d := by
  obtain ⟨builder?, notes⟩ := c
  obtain rfl : l.note? = builder? := h.note?
  rw [Loader.add] at hm
  split at hm
  · next builder hbuilder =>
    rw [hbuilder]
    have hwithout : Follows source owner { l with note? := none } { notes } :=
      ⟨rfl, h.source, h.owner, h.inOrder, ⟨h.areWritten.root, h.areWritten.openNodes⟩, h.areRead⟩
    rw [addToNote] at hm
    split at hm
    case h_1 hkind =>
      exact ⟨_, Note.Collector.add_of_closing (Or.inl hkind), hwithout.applyNote rfl hm⟩
    case h_2 hkind =>
      exact ⟨_, Note.Collector.add_of_closing (Or.inr hkind), hwithout.applyNote rfl hm⟩
    case h_3 hinline hblock =>
      obtain ⟨next, hnext, hm⟩ := Except.bind_eq_ok_iff.1 hm
      obtain rfl := Except.ok.inj hm
      exact ⟨{ builder? := some next, notes }, Note.Collector.add_of_within hinline hblock hnext,
        ⟨rfl, h.source, h.owner, h.inOrder, ⟨h.areWritten.root, h.areWritten.openNodes⟩, h.areRead⟩⟩
  · next hnone =>
    obtain ⟨hwritten, hunnamed, hcollect⟩ := h.areWritten.addEvent hnone hliteral hm notes
    rw [hnone]
    refine ⟨_, hcollect, rfl, ?_, ?_, ?_, ?_, ?_⟩
    · rw [hunnamed, h.source]
    · rw [hunnamed, h.owner]
    · rw [hunnamed]
      exact h.inOrder
    · rw [hunnamed]
      exact hwritten
    · rw [hunnamed]
      exact h.areRead

/-- All events, one after the other. -/
theorem Follows.foldlM {events : List Event} (h : Follows source owner l c)
    (hliterals : ∀ e ∈ events, e.kind = .closing .literal →
      IsLiteral (source.content.slice e.start e.stop))
    (hm : events.foldlM (fun (l : Loader) event => l.add ⟨source, event⟩) l = .ok m) :
    ∃ d, events.foldlM (fun (c : Note.Collector) event => c.add ⟨source, event⟩) c = .ok d ∧
      Follows source owner m d := by
  induction events generalizing l c with
  | nil =>
    obtain rfl := Except.ok.inj hm
    exact ⟨c, rfl, h⟩
  | cons event rest ih =>
    rw [List.foldlM_cons] at hm
    obtain ⟨l', hl', hm⟩ := Except.bind_eq_ok_iff.1 hm
    rw [List.forall_mem_cons] at hliterals
    obtain ⟨c', hc', hfollows⟩ := h.add hl' hliterals.1
    obtain ⟨d, hd, hend⟩ := ih hfollows hliterals.2 hm
    refine ⟨d, ?_, hend⟩
    rw [List.foldlM_cons, hc', Except.ok_bind, hd]

end Loader

/-- The unnamed types of a schema that a document loads as. -/
def Schema.unnamed (schema : Schema) (source : Source) (owner : String) : Unnamed :=
  { source, owner, types := schema.types }

/-- A schema comes of the notes of its document. -/
structure Schema.IsLoaded (schema : Schema) (source : Source) (owner : String) (notes : List Note) :
    Prop where
  notes_eq : source.notes = .ok notes
  /-- Its types are called after the owner, in order. -/
  inOrder : (schema.unnamed source owner).InOrder
  /-- Its nodes come of the rules of the notes. -/
  areWritten : schema.root.AreWritten (IsReadFrom notes (schema.unnamed source owner).Has)
  /-- The rules of each note are read. -/
  areRead : ∀ note ∈ notes, ∀ rules, note.rules? = some rules →
    ∃ added, ReadsRules (schema.unnamed source owner).Has rules added

/-- **What a document loads as** comes of its notes. -/
theorem Schema.exists_isLoaded_of_load_eq_ok {source : Source} {owner : String} {schema : Schema}
    (h : Schema.load source owner = .ok schema) : ∃ notes, schema.IsLoaded source owner notes := by
  obtain ⟨l, hl, h⟩ := Except.bind_eq_ok_iff.1 h
  obtain ⟨events, hread, hl⟩ := Scan.foldMarks_eq_ok_iff.1 hl
  have hliterals : ∀ e ∈ events, e.kind = .closing .literal →
      IsLiteral (source.content.slice e.start e.stop) := by
    intro e he
    refine Scan.isLiteral_of_mem_read (o := {}) ?_
    rwa [hread]
  obtain ⟨c, hc, hfollows⟩ := (Loader.follows_start source owner).foldlM hliterals hl
  split at h
  · next root hroot =>
    obtain rfl := Except.ok.inj h
    have hunnamed : Schema.unnamed { root, types := l.unnamed.types } source owner = l.unnamed := by
      rw [Schema.unnamed, ← hfollows.source, ← hfollows.owner]
    refine ⟨c.notes, ?_, ?_, ?_, ?_⟩
    · rw [Source.notes, Scan.foldMarks_eq_ok_iff.2 ⟨events, hread, hc⟩]
      rfl
    · rw [hunnamed]
      exact hfollows.inOrder
    · rw [hunnamed]
      exact hfollows.areWritten.root root hroot
    · rw [hunnamed]
      exact hfollows.areRead
  · cases h

end ExampleSchema
