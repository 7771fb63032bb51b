import ExampleSchema.Proofs.Load.Annotated
import ExampleSchema.Proofs.Load.Written

/-!
# What one event does to the nodes of a loader

Whatever an event does to a loader is one of a few things: a container is opened, a value ends, a line ends, or an
event of a note is read.  Every other event leaves the nodes and the target of the next note as they are.

* `Loader.Rests`: nothing happens to the nodes and to the target of the next note.
* `Loader.Takes`, `Loader.takes_of_add`: what an event can do.
* `Loader.applyNote_cases`: what the end of a note can do.
-/

namespace ExampleSchema

/-- A value without parts. -/
def Construct.isLeaf : Construct → Bool
  | .literal | .mixedValue => true
  | _ => false

/-- Whether an event marks the value that the next note describes: it opens an object or an array, or a value ends. -/
def EventKind.marksValue : EventKind → Bool
  | .opening c => c.isContainer
  | .closing c => c.isValue
  | _ => false

/-- The rules of a note, where some unnamed types are registered already. -/
def Note.added (note : Note) (unnamed : Unnamed) : Outcome (List Rule) :=
  match note.rules? with
  | none => .ok []
  | some rules => Prod.fst <$> RuleValue.constraintsOf unnamed rules

namespace Loader

variable {l m : Loader} {source : Source} {e : Event}

/-- Nothing happens to the nodes and to the target of the next note. -/
structure Rests (l m : Loader) : Prop where
  bares : m.bares = l.bares
  root? : m.root? = l.root?
  openers : m.openNodes.map OpenNode.opener = l.openNodes.map OpenNode.opener
  target : m.target = l.target
  target? : m.target? = l.target?

theorem Rests.refl (l : Loader) : l.Rests l := ⟨rfl, rfl, rfl, rfl, rfl⟩

theorem rests_takeKey (l : Loader) (key : PropertyKey) : l.Rests (l.takeKey key) := by
  rw [takeKey]
  split
  · next top rest hopen =>
    have hopener : (top.takeKey key).opener = top.opener := by
      rw [OpenNode.opener_eq, OpenNode.node_takeKey, OpenNode.opener_eq]
    refine ⟨?_, rfl, by simp [hopen, hopener], rfl, ?_⟩
    · simp [bares, hopen, OpenNode.node_takeKey]
    · rw [target?, target?, hopen]
      have hnode := OpenNode.node_takeKey top key
      cases l.target with
      | nothing | root => cases l.root? <;> rfl
      | top => exact congrArg some hnode
      | lastChild => exact congrArg (fun node : Node => node.children.getLast?) hnode
  · exact .refl l

/-- What an event can do. -/
inductive Takes (source : Source) (l : Loader) (e : Event) (m : Loader) : Prop where
  /-- An object or an array is opened. -/
  | opens {c : Construct} {plain : Node} : l.note? = none → e.kind = .opening c → c.isContainer = true →
      Node.IsUnannotated ⟨source, e⟩ plain → m.bares = plain :: l.bares → m.root? = l.root? →
      m.openNodes.map OpenNode.opener = (e.kind, e.start) :: l.openNodes.map OpenNode.opener → m.note? = none →
      m.target? = some plain → Takes source l e m
  /-- A value without parts ends. -/
  | ends {c : Construct} {plain : Node} : l.note? = none → e.kind = .closing c → c.isLeaf = true →
      Node.IsUnannotated ⟨source, e⟩ plain → l.place plain = .ok m → Takes source l e m
  /-- An object or an array ends. -/
  | leaves {c : Construct} : l.note? = none → e.kind = .closing c → c.isContainer = true →
      l.leave ⟨source, e⟩ = .ok m → Takes source l e m
  | endsLine : l.note? = none → e.kind = .newLine → m = { l with target := .nothing } → Takes source l e m
  | beginsNote : l.note? = none → e.kind.opensNote = true → m = { l with note? := some { mark := ⟨source, e⟩ } } →
      Takes source l e m
  | readsNote {builder next : Note.Builder} : l.note? = some builder → e.kind.closesNote = false →
      builder.add ⟨source, e⟩ = .ok next → m = { l with note? := some next } → Takes source l e m
  | endsNote {builder : Note.Builder} : l.note? = some builder → e.kind.closesNote = true →
      applyNote { l with note? := none } builder.note = .ok m → Takes source l e m
  | rests : l.note? = none → e.kind ≠ .newLine → e.kind.marksValue = false → e.kind.opensNote = false → l.Rests m →
      m.note? = none → Takes source l e m

/-- **One event.** -/
theorem takes_of_add (h : l.add ⟨source, e⟩ = .ok m) : l.Takes source e m := by
  rw [add] at h
  split at h
  · next builder hbuilder =>
    rw [addToNote] at h
    split at h
    · next hkind => exact .endsNote hbuilder (by rw [show e.kind = _ from hkind]; rfl) h
    · next hkind => exact .endsNote hbuilder (by rw [show e.kind = _ from hkind]; rfl) h
    · next hinline hblock =>
      obtain ⟨next, hnext, h⟩ := Except.bind_eq_ok_iff.1 h
      have hcloses : ¬ e.kind.closesNote = true := fun hcloses =>
        (EventKind.closesNote_iff.1 hcloses).elim hinline hblock
      exact .readsNote hbuilder (Bool.eq_false_iff.2 hcloses) hnext (Except.ok.inj h).symm
  · next hnote =>
    have hrests {m : Loader} (hkeeps : m.note? = l.note?) (hrests : l.Rests m)
        (hkind : e.kind ≠ .newLine ∧ e.kind.marksValue = false ∧ e.kind.opensNote = false) : l.Takes source e m :=
      .rests hnote hkind.1 hkind.2.1 hkind.2.2 hrests (hkeeps.trans hnote)
    have htakeKey (key : PropertyKey) : (l.takeKey key).note? = l.note? := (isLeft_takeKey l key).note?
    rw [addEvent] at h
    split at h
    case h_1 hkind =>
      obtain rfl := Except.ok.inj h
      exact .opens hnote hkind rfl (.object (Or.inl hkind)) rfl rfl rfl hnote rfl
    case h_2 hkind =>
      obtain rfl := Except.ok.inj h
      exact .opens hnote hkind rfl (.array (Or.inl hkind)) rfl rfl rfl hnote rfl
    case h_3 hkind | h_4 hkind => exact .leaves hnote hkind rfl h
    case h_5 hkind =>
      obtain rfl := Except.ok.inj h
      exact hrests (htakeKey _) (rests_takeKey l _) (by simp [show e.kind = _ from hkind]; decide)
    case h_6 hkind =>
      have hquiet : e.kind ≠ .newLine ∧ e.kind.marksValue = false ∧ e.kind.opensNote = false := by
        rw [show e.kind = _ from hkind]
        decide
      rw [takeName] at h
      split at h
      · obtain ⟨name, -, h⟩ := Except.bind_eq_ok_iff.1 h
        obtain rfl := Except.ok.inj h
        exact hrests (htakeKey _) (rests_takeKey l _) hquiet
      · obtain rfl := Except.ok.inj h
        exact hrests rfl (.refl l) hquiet
    case h_7 hkind => exact .ends hnote hkind rfl (.sample hkind) h
    case h_8 hkind =>
      obtain ⟨node, hnode, h⟩ := Except.bind_eq_ok_iff.1 h
      exact .ends hnote hkind rfl (.shortcut hkind hnode) h
    case h_9 hkind | h_10 hkind =>
      exact .beginsNote hnote (by rw [show e.kind = _ from hkind]; rfl) (Except.ok.inj h).symm
    case h_11 hkind => exact .endsLine hnote hkind (Except.ok.inj h).symm
    case h_12 =>
      obtain rfl := Except.ok.inj h
      refine hrests rfl (.refl l) ?_
      generalize hkind : e.kind = kind
      have hmark : Mark.kind ⟨source, e⟩ = kind := hkind
      cases kind with
      | opening c => cases c <;> simp_all [EventKind.marksValue, EventKind.opensNote, Construct.isContainer]
      | closing c => cases c <;> simp_all [EventKind.marksValue, EventKind.opensNote, Construct.isValue]
      | newLine => simp_all
      | endTop => exact ⟨by decide, rfl, rfl⟩

/-- **The end of a note.**  It has to say something about a value that is there; a text alone may stand anywhere. -/
theorem applyNote_cases {note : Note} (hlost : l.target? = none → l.target = .nothing) (h : l.applyNote note = .ok m) :
    (m = l ∧ ((note.rules? = none ∧ note.text? = none) ∨ l.target? = none ∧ note.rules? = none)) ∨
    ¬ (note.rules? = none ∧ note.text? = none) ∧ ∃ node added changed, l.target? = some node ∧
      note.added l.unnamed = .ok added ∧ node.annotate note.mark note.text? added = .ok changed ∧
      l.Changes node changed m := by
  have hdescribe (l' : Loader) (hsame : l' = { l with unnamed := l'.unnamed }) {added : List Rule}
      (hadded : note.added l.unnamed = .ok added) {node : Node} (htarget : l.target? = some node)
      (h : l'.describe note added = .ok m) : ∃ node added changed, l.target? = some node ∧
        note.added l.unnamed = .ok added ∧ node.annotate note.mark note.text? added = .ok changed ∧
        l.Changes node changed m := by
    rw [hsame] at h
    obtain ⟨put, hput, hchanges⟩ := exists_describe_eq (l := { l with unnamed := l'.unnamed }) htarget note added
    rw [hput] at h
    obtain ⟨changed, hchanged, rfl⟩ := Except.map_eq_ok_iff.1 h
    have hspec := hchanges changed hchanged
    exact ⟨node, added, changed, htarget, hadded, hchanged,
      ⟨hspec.bares, hspec.target?, hspec.note?, hspec.openers, hspec.root?⟩⟩
  rw [applyNote] at h
  split at h
  · next hrules htext => exact Or.inl ⟨(Except.ok.inj h).symm, Or.inl ⟨hrules, htext⟩⟩
  · next hrules htext =>
    have hspeaks : ¬ (note.rules? = none ∧ note.text? = none) := fun hempty => by simp [hempty.2] at htext
    cases htarget : l.target? with
    | none =>
      rw [describe, hlost htarget] at h
      exact Or.inl ⟨(Except.ok.inj h).symm, Or.inr ⟨rfl, hrules⟩⟩
    | some node =>
      rw [htarget] at hdescribe
      exact Or.inr ⟨hspeaks, hdescribe l rfl (by rw [Note.added, hrules]) rfl h⟩
  · next rules hrules =>
    have hspeaks : ¬ (note.rules? = none ∧ note.text? = none) := fun hempty => by simp [hempty.1] at hrules
    split at h
    · cases h
    · next htarget =>
      obtain ⟨⟨built, unnamed⟩, hbuilt, h⟩ := Except.bind_eq_ok_iff.1 h
      cases hnode : l.target? with
      | none => exact (htarget (hlost hnode)).elim
      | some node =>
        rw [hnode] at hdescribe
        exact Or.inr ⟨hspeaks,
          hdescribe { l with unnamed } rfl (by rw [Note.added, hrules]; dsimp only; rw [hbuilt]; rfl) rfl h⟩

end Loader
end ExampleSchema
