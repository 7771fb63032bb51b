import ExampleSchema.Proofs.Load.Loading
import ExampleSchema.Proofs.Load.Parts
import ExampleSchema.Proofs.Order.Notes

/-!
# Documents in another order

Two documents whose notes have the same rules in another order, and which are the same otherwise, load as schemas
that differ in their order.

* `Source.Rearranges`: documents whose notes are in another order.
* `Loader.Rearranges`: what is read of them so far.
* `Source.Rearranges.agree_load`: what they load as.
-/

namespace ExampleSchema

open Except

/-! ## Documents -/

/-- Events whose bytes are looked at.  All others are where they are only. -/
def EventKind.isRead : EventKind → Bool
  | .closing .literal | .closing .objectKey | .closing .keyShortcut | .closing .mixedValue => true
  | _ => false

/-- Two parts of documents differ at most in the order of rules. -/
inductive Source.Part.Rearranges : Source.Part → Source.Part → Prop
  | event {mark mark' : Mark} (hkind : mark.kind = mark'.kind)
      (hbytes : mark.kind.isRead = true → mark.bytes = mark'.bytes) : Rearranges (.event mark) (.event mark')
  | note {note note' : Note} (htext : note.text? = note'.text?)
      (hrules : AreRearrangedEntries? note.rules? note'.rules?) : Rearranges (.note note) (.note note')

/-- **Two documents differ at most in the order of the rules of their notes**, or neither is a document. -/
structure Source.Rearranges (source source' : Source) : Prop where
  parts : Agree (List.Forall₂ Part.Rearranges) source.parts source'.parts

/-- Documents are in their own order. -/
theorem Source.Rearranges.refl (source : Source) : source.Rearranges source := by
  refine ⟨(agree_refl source.parts).mono fun parts _ hsame => ?_⟩
  subst hsame
  refine List.forall₂_same.2 fun part _ => ?_
  cases part with
  | event mark => exact .event rfl fun _ => rfl
  | note note =>
    refine .note rfl ?_
    cases note.rules? with
    | none => exact .none
    | some rules =>
      exact .some (.of_forall₂ (List.forall₂_same.2 fun e _ => ⟨rfl, RuleValue.Rearranges.refl e.2.2⟩))

/-! ## Open objects and arrays -/

/-- What is read of two objects or two arrays differs at most in its order. -/
inductive Filling.Rearranges : Filling → Filling → Prop
  | object {properties properties' : Properties} {key? key?' : Option PropertyKey}
      (hdistinct : properties.AreDistinct)
      (hproperties : List.Forall₂ (PropertiesMatch Node.Rearranges) properties properties')
      (hkey : Option.Rel PropertyKey.Matches key? key?') :
    Rearranges (.object properties key?) (.object properties' key?')
  | array {items items' : List Node} (hitems : List.Forall₂ Node.Rearranges items items') :
    Rearranges (.array items) (.array items')

/-- Two objects or arrays that are open differ at most in their order. -/
structure OpenNode.Rearranges (n n' : OpenNode) : Prop where
  header : n.header.Rearranges n'.header
  filling : n.filling.Rearranges n'.filling

namespace OpenNode.Rearranges

variable {n n' : OpenNode}

theorem close (h : n.Rearranges n') (mark mark' : Mark) : (n.close mark).Rearranges (n'.close mark') := by
  obtain ⟨header, filling⟩ := n
  obtain ⟨header', filling'⟩ := n'
  obtain ⟨hheader, hfilling⟩ := h
  have hbasis : Header.Rearranges { header with basis := mark } { header' with basis := mark' } :=
    ⟨hheader.jsonType, hheader.declared, hheader.rules, hheader.comment, hheader.isAnnotated⟩
  cases hfilling with
  | object hdistinct hproperties =>
    refine .of_properties hbasis ?_ (.of_forall₂ (List.rel_reverse hproperties))
    rw [Properties.AreDistinct, List.map_reverse, List.nodup_reverse]
    exact hdistinct
  | array hitems => exact .of_items hbasis (.of_forall₂ (List.rel_reverse hitems))

theorem takeKey (h : n.Rearranges n') {key key' : PropertyKey} (hkey : key.Matches key') :
    (n.takeKey key).Rearranges (n'.takeKey key') := by
  obtain ⟨header, filling⟩ := n
  obtain ⟨header', filling'⟩ := n'
  obtain ⟨hheader, hfilling⟩ := h
  cases hfilling with
  | object hdistinct hproperties => exact ⟨hheader, .object hdistinct hproperties (.some hkey)⟩
  | array hitems => exact ⟨hheader, .array hitems⟩

theorem awaitsKey_eq (h : n.Rearranges n') : n.awaitsKey = n'.awaitsKey := by
  obtain ⟨header, filling⟩ := n
  obtain ⟨header', filling'⟩ := n'
  cases h.filling with
  | object _ _ hkey => cases hkey <;> rfl
  | array => rfl

/-- Taking a value. -/
theorem agree_place (h : n.Rearranges n') {node node' : Node} (hnode : node.Rearranges node') :
    Agree OpenNode.Rearranges (n.place node) (n'.place node') := by
  obtain ⟨header, filling⟩ := n
  obtain ⟨header', filling'⟩ := n'
  obtain ⟨hheader, hfilling⟩ := h
  cases hfilling with
  | array hitems => exact ⟨hheader, .array (.cons hnode hitems)⟩
  | @object properties properties' _ _ hdistinct hproperties hkey =>
    cases hkey with
    | none => trivial
    | @some key key' hkey =>
      have hnames : (properties.any fun p => p.1.name == key.name) =
          properties'.any fun p => p.1.name == key'.name := by
        rw [Bool.eq_iff_iff, List.any_eq_true, List.any_eq_true]
        refine (AreMatched.of_forall₂ hproperties).exists_iff fun p p' hp => ?_
        rw [hp.1.name, hkey.name]
      rw [place, place]
      dsimp only
      rw [hnames]
      split
      · trivial
      · next hnew =>
        refine ⟨hheader, .object ?_ (.cons ⟨hkey, hnode⟩ hproperties) .none⟩
        rw [Properties.AreDistinct, List.map_cons, List.nodup_cons]
        refine ⟨fun hname => hnew ?_, hdistinct⟩
        rw [← hnames, List.any_eq_true]
        obtain ⟨p, hp, hsame⟩ := List.mem_map.1 hname
        exact ⟨p, hp, beq_iff_eq.2 hsame⟩

/-- Changing the value completed last. -/
theorem changeLast?_rel (h : n.Rearranges n') {change change' : Node → Outcome Node}
    (hchange : ∀ a b : Node, a.Rearranges b → Agree Node.Rearranges (change a) (change' b)) :
    Option.Rel (Agree OpenNode.Rearranges) (n.changeLast? change) (n'.changeLast? change') := by
  obtain ⟨header, filling⟩ := n
  obtain ⟨header', filling'⟩ := n'
  obtain ⟨hheader, hfilling⟩ := h
  cases hfilling with
  | array hitems =>
    cases hitems with
    | nil => exact .none
    | cons hitem hrest => exact .some ((hchange _ _ hitem).map fun _ _ hnew => ⟨hheader, .array (.cons hnew hrest)⟩)
  | object hdistinct hproperties hkey =>
    cases hproperties with
    | nil => exact .none
    | cons hp hrest =>
      refine .some ((hchange _ _ hp.2).map fun _ _ hnew => ⟨hheader, .object ?_ (.cons ⟨hp.1, hnew⟩ hrest) hkey⟩)
      exact hdistinct

/-- Nodes below are matched. -/
theorem forall₂_children (h : n.Rearranges n') :
    List.Forall₂ Node.Rearranges n.node.children n'.node.children := by
  obtain ⟨header, filling⟩ := n
  obtain ⟨header', filling'⟩ := n'
  cases h.filling with
  | array hitems => exact List.rel_reverse hitems
  | object _ hproperties =>
    exact List.rel_map (fun _ _ hp => hp.2) (List.rel_reverse hproperties)

end OpenNode.Rearranges

/-- What is changed is one of the nodes below. -/
theorem OpenNode.exists_of_changeLast?_eq_some {n changed : OpenNode} {change : Node → Outcome Node}
    (h : n.changeLast? change = some (.ok changed)) :
    ∃ child ∈ n.node.children, ∃ new, change child = .ok new := by
  obtain ⟨header, filling⟩ := n
  rcases filling with ⟨_ | ⟨⟨key, old⟩, rest⟩, key?⟩ | ⟨_ | ⟨old, rest⟩⟩
  · cases h
  · obtain ⟨new, hnew, -⟩ := Except.map_eq_ok_iff.1 (Option.some.inj h)
    exact ⟨old, by simp [node, Node.children], new, hnew⟩
  · cases h
  · obtain ⟨new, hnew, -⟩ := Except.map_eq_ok_iff.1 (Option.some.inj h)
    exact ⟨old, by simp [node, Node.children], new, hnew⟩

/-! ## Notes that describe something -/

/-- The rules of what has been read so far are of different kinds. -/
structure Loader.IsDistinct (l : Loader) : Prop where
  root : ∀ root, l.root? = some root → root.rules.kinds.Nodup
  top : ∀ n ∈ l.openNodes, n.header.rules.kinds.Nodup
  lastChild : ∀ n ∈ l.openNodes, ∀ child ∈ n.node.children, child.rules.kinds.Nodup

/-- So are those by which a note describes something. -/
theorem Loader.IsDistinct.nodup_of_describe {l : Loader} (h : l.IsDistinct) {note : Note} {added : List Rule}
    {described : Loader} (htarget : l.target ≠ .nothing) (hdescribed : l.describe note added = .ok described) :
    (Rules.kinds added).Nodup := by
  rw [describe] at hdescribed
  dsimp only at hdescribed
  split at hdescribed
  · next hnothing => exact (htarget hnothing).elim
  · next root _ hroot =>
    obtain ⟨changed, hchanged, -⟩ := Except.bind_eq_ok_iff.1 hdescribed
    exact Node.nodup_of_annotate_eq_ok (h.root root hroot) hchanged
  · next top rest _ hopen =>
    obtain ⟨noted, hnoted, hheader⟩ := Except.bind_eq_ok_iff.1 hdescribed
    obtain ⟨header, hheader, -⟩ := Except.bind_eq_ok_iff.1 hheader
    refine Header.nodup_of_apply_eq_ok ?_ hheader
    rw [Header.rules_of_annotate_eq_ok hnoted]
    exact h.top top (hopen ▸ List.mem_cons_self)
  · next top rest _ hopen =>
    split at hdescribed
    · next hchanged =>
      obtain ⟨last, rfl, -⟩ := Except.bind_eq_ok_iff.1 hdescribed
      obtain ⟨child, hchild, changed, hannotate⟩ := OpenNode.exists_of_changeLast?_eq_some hchanged
      exact Node.nodup_of_annotate_eq_ok (h.lastChild top (hopen ▸ List.mem_cons_self) child hchild) hannotate
    · cases hdescribed
  · cases hdescribed

/-! ## The loader -/

/-- What is read of two documents so far differs at most in its order. -/
structure Loader.Rearranges (l l' : Loader) : Prop where
  openNodes : List.Forall₂ OpenNode.Rearranges l.openNodes l'.openNodes
  root? : Option.Rel Node.Rearranges l.root? l'.root?
  target : l.target = l'.target
  unnamed : l.unnamed.Rearranges l'.unnamed

namespace Loader.Rearranges

variable {l l' : Loader} (h : l.Rearranges l')
include h

theorem isDistinct : l.IsDistinct where
  root root hroot := by
    have hrelated := hroot ▸ h.root?
    generalize l'.root? = root?' at hrelated
    cases hrelated with
    | some hrelated => exact hrelated.header.rules.distinct
  top n hn := by
    obtain ⟨n', -, hrelated⟩ := (AreMatched.of_forall₂ h.openNodes).1 n hn
    exact hrelated.header.rules.distinct
  lastChild n hn child hchild := by
    obtain ⟨n', -, hrelated⟩ := (AreMatched.of_forall₂ h.openNodes).1 n hn
    obtain ⟨child', -, hrelated⟩ := (AreMatched.of_forall₂ hrelated.forall₂_children).1 child hchild
    exact hrelated.header.rules.distinct

theorem isDistinct' : l'.IsDistinct where
  root root hroot := by
    have hrelated := hroot ▸ h.root?
    generalize l.root? = root? at hrelated
    cases hrelated with
    | some hrelated => exact hrelated.header.rules.distinct'
  top n hn := by
    obtain ⟨n', -, hrelated⟩ := (AreMatched.of_forall₂ h.openNodes).2 n hn
    exact hrelated.header.rules.distinct'
  lastChild n hn child hchild := by
    obtain ⟨n', -, hrelated⟩ := (AreMatched.of_forall₂ h.openNodes).2 n hn
    obtain ⟨child', -, hrelated⟩ := (AreMatched.of_forall₂ hrelated.forall₂_children).2 child hchild
    exact hrelated.header.rules.distinct'

theorem agree_place {node node' : Node} (hnode : node.Rearranges node') :
    Agree Loader.Rearranges (l.place node) (l'.place node') := by
  obtain ⟨hopen, hroot, htarget, hunnamed⟩ := h
  rw [place, place]
  generalize l.openNodes = openNodes at hopen
  generalize l'.openNodes = openNodes' at hopen
  cases hopen with
  | nil => exact ⟨.nil, .some hnode, rfl, hunnamed⟩
  | cons htop hrest =>
    exact (htop.agree_place hnode).bind fun _ _ hplaced => ⟨.cons hplaced hrest, hroot, rfl, hunnamed⟩

omit h in
/-- The node of a shortcut. -/
theorem agree_shortcutNode {mark mark' : Mark} (hbytes : mark.bytes = mark'.bytes) :
    Agree Node.Rearranges (Shortcut.node mark) (Shortcut.node mark') := by
  refine (RuleValue.agree_shortcutNames hbytes).bind fun names _ hnames => ?_
  subst hnames
  have hrules : Rules.AreRearranged (Shortcut.rules mark names) (Shortcut.rules mark' names) := by
    rw [Shortcut.rules.eq_def, Shortcut.rules.eq_def]
    split
    · exact .of_forall₂ (.cons (.same _) .nil)
    · exact .of_forall₂ (.cons (.same _) (.cons (.same _) .nil))
  exact ((Header.Rearranges.fresh .mixed mark mark').agree_addRules hrules).bind
    fun _ _ hchanged => .reference hchanged.1 (.refl _)

omit h in
/-- A value without parts. -/
theorem sampleNode_rearranges {mark mark' : Mark} (hbytes : mark.bytes = mark'.bytes) :
    (sampleNode mark).Rearranges (sampleNode mark') := by
  rw [sampleNode, sampleNode, hbytes]
  exact .literal (Header.Rearranges.fresh _ mark mark') (congrArg some hbytes)

theorem enter (mark mark' : Mark) (type : JsonType) {filling : Filling} (hfilling : filling.Rearranges filling) :
    (l.enter mark type filling).Rearranges (l'.enter mark' type filling) :=
  ⟨.cons ⟨Header.Rearranges.fresh type mark mark', hfilling⟩ h.openNodes, h.root?, rfl, h.unnamed⟩

theorem agree_leave (mark mark' : Mark) : Agree Loader.Rearranges (l.leave mark) (l'.leave mark') := by
  have hopen := h.openNodes
  rw [leave, leave]
  cases hleft : l.openNodes <;> cases hright : l'.openNodes <;> rw [hleft, hright] at hopen <;> cases hopen
  · trivial
  · next htop hrest =>
    have hinner : Loader.Rearranges { l with openNodes := _ } { l' with openNodes := _ } :=
      ⟨hrest, h.root?, h.target, h.unnamed⟩
    exact hinner.agree_place (htop.close mark mark')

theorem takeKey {key key' : PropertyKey} (hkey : key.Matches key') :
    (l.takeKey key).Rearranges (l'.takeKey key') := by
  have hopen := h.openNodes
  rw [Loader.takeKey, Loader.takeKey]
  cases hleft : l.openNodes <;> cases hright : l'.openNodes <;> rw [hleft, hright] at hopen <;> cases hopen
  · exact h
  · next htop hrest => exact ⟨.cons (htop.takeKey hkey) hrest, h.root?, h.target, h.unnamed⟩

theorem agree_takeName {mark mark' : Mark} (hbytes : mark.bytes = mark'.bytes) :
    Agree Loader.Rearranges (l.takeName mark) (l'.takeName mark') := by
  have hawaits : l.openNodes.head?.any OpenNode.awaitsKey = l'.openNodes.head?.any OpenNode.awaitsKey := by
    have hopen := h.openNodes
    cases hleft : l.openNodes <;> cases hright : l'.openNodes <;> rw [hleft, hright] at hopen <;> cases hopen
    next htop hrest => exact htop.awaitsKey_eq
  rw [takeName, takeName, hawaits, hbytes]
  split
  · refine (agree_refl (Literal.string mark'.bytes)).mapError.bind fun name _ hname => ?_
    subst hname
    exact h.takeKey ⟨rfl, rfl, rfl⟩
  · exact h

/-! ### Notes -/

/-- Describing something by rules in another order. -/
theorem agree_describe {note note' : Note} (htext : note.text? = note'.text?) {added added' : List Rule}
    (hadded : Rules.AreRearranged added added') :
    Agree Loader.Rearranges (l.describe note added) (l'.describe note' added') := by
  have hannotate : ∀ a b : Node, a.Rearranges b →
      Agree Node.Rearranges (a.annotate note.mark note.text? added) (b.annotate note'.mark note'.text? added') :=
    fun a b hab => htext ▸ hab.agree_annotate note.mark note'.mark note.text? hadded
  have hnode := h
  obtain ⟨hopen, hroot, htarget, hunnamed⟩ := h
  rw [describe, describe, ← htarget]
  cases htop : l.target with
  | nothing => exact hnode
  | root =>
    cases hleft : l.root? <;> cases hright : l'.root? <;> rw [hleft, hright] at hroot <;> cases hroot
    · trivial
    · next hrelated =>
      exact (hannotate _ _ hrelated).bind fun _ _ hnew => ⟨hopen, .some hnew, rfl, hunnamed⟩
  | top =>
    cases hleft : l.openNodes <;> cases hright : l'.openNodes <;> rw [hleft, hright] at hopen <;> cases hopen
    · trivial
    · next hfirst hrest =>
      rw [← htext]
      refine (hfirst.header.agree_annotate note.mark note'.mark note.text?).bind fun _ _ hheader => ?_
      exact (hheader.agree_apply rfl hadded).bind fun _ _ hheader =>
        ⟨.cons ⟨hheader.1, hfirst.filling⟩ hrest, hroot, rfl, hunnamed⟩
  | lastChild =>
    cases hleft : l.openNodes <;> cases hright : l'.openNodes <;> rw [hleft, hright] at hopen <;> cases hopen
    · trivial
    · next hfirst hrest =>
      have hlast := hfirst.changeLast?_rel hannotate
      dsimp only
      revert hlast
      generalize OpenNode.changeLast? _ _ = changed
      generalize OpenNode.changeLast? _ _ = changed'
      intro hlast
      cases hlast with
      | none => trivial
      | some hchanged => exact hchanged.bind fun _ _ hnew => ⟨.cons hnew hrest, hroot, rfl, hunnamed⟩

/-- **Applying a note** whose rules are in another order. -/
theorem agree_applyNote {note note' : Note} (htext : note.text? = note'.text?)
    (hrules : AreRearrangedEntries? note.rules? note'.rules?) :
    Agree Loader.Rearranges (l.applyNote note) (l'.applyNote note') := by
  rw [applyNote, applyNote]
  cases hleft : note.rules? <;> cases hright : note'.rules? <;> rw [hleft, hright] at hrules <;> cases hrules
  · have hdescribe := h.agree_describe htext (.of_forall₂ .nil : Rules.AreRearranged [] [])
    rw [← htext]
    cases note.text? with
    | none => exact h
    | some text => exact hdescribe
  · next hrules =>
    dsimp only
    by_cases htarget : l.target = .nothing
    · rw [if_pos htarget, if_pos (h.target ▸ htarget)]
      trivial
    have htarget' : l'.target ≠ .nothing := h.target ▸ htarget
    rw [if_neg htarget, if_neg htarget']
    refine RuleValue.agree_constraintsOf_bind (hrules.mono fun _ _ he => ⟨he.1, he.2.readAlike⟩) h.unnamed ?_ ?_ ?_
    · intro x described hdescribed
      have hdistinct : Loader.IsDistinct { l with unnamed := x.2 } :=
        ⟨h.isDistinct.root, h.isDistinct.top, h.isDistinct.lastChild⟩
      exact hdistinct.nodup_of_describe htarget hdescribed
    · intro y described hdescribed
      have hdistinct : Loader.IsDistinct { l' with unnamed := y.2 } :=
        ⟨h.isDistinct'.root, h.isDistinct'.top, h.isDistinct'.lastChild⟩
      exact hdistinct.nodup_of_describe htarget' hdescribed
    · intro x y hadded hregistry
      have hl : Loader.Rearranges { l with unnamed := x.2 } { l' with unnamed := y.2 } :=
        ⟨h.openNodes, h.root?, h.target, hregistry⟩
      exact hl.agree_describe htext hadded.rearranged

/-! ### Events -/

/-- **An event outside of notes.** -/
theorem agree_addEvent {mark mark' : Mark} (hkind : mark.kind = mark'.kind)
    (hbytes : mark.kind.isRead = true → mark.bytes = mark'.bytes) :
    Agree Loader.Rearranges (l.addEvent mark) (l'.addEvent mark') := by
  rw [addEvent, addEvent, ← hkind]
  split
  · exact h.enter mark mark' _ (.object List.nodup_nil .nil .none)
  · exact h.enter mark mark' _ (.array .nil)
  · exact h.agree_leave mark mark'
  · exact h.agree_leave mark mark'
  · next hkind =>
    have htext : mark.text = mark'.text := congrArg Bytes.toText (hbytes (by rw [hkind]; rfl))
    exact h.takeKey ⟨htext, rfl, rfl⟩
  · next hkind => exact h.agree_takeName (hbytes (by rw [hkind]; rfl))
  · next hkind => exact h.agree_place (sampleNode_rearranges (hbytes (by rw [hkind]; rfl)))
  · next hkind =>
    exact (agree_shortcutNode (hbytes (by rw [hkind]; rfl))).bind fun _ _ hnode => h.agree_place hnode
  · exact ⟨h.openNodes, h.root?, h.target, h.unnamed⟩
  · exact ⟨h.openNodes, h.root?, h.target, h.unnamed⟩
  · exact ⟨h.openNodes, h.root?, rfl, h.unnamed⟩
  · exact h

/-- **One part of a document.** -/
theorem agree_addPart {part part' : Source.Part} (hpart : part.Rearranges part') :
    Agree Loader.Rearranges (l.addPart part) (l'.addPart part') := by
  cases hpart with
  | event hkind hbytes => exact h.agree_addEvent hkind hbytes
  | note htext hrules => exact h.agree_applyNote htext hrules

/-- **What has been read in the end.** -/
theorem agree_schema : Agree Schema.Rearranges l.schema l'.schema := by
  rw [schema, schema]
  cases hleft : l.root? <;> cases hright : l'.root? <;> have hroot := h.root? <;> rw [hleft, hright] at hroot <;>
    cases hroot
  · trivial
  · next hroot => exact ⟨hroot, h.unnamed.types⟩

end Loader.Rearranges

/-! ## Whole documents -/

/-- **Documents in another order load as schemas in another order.** -/
theorem Source.Rearranges.agree_load {source source' : Source} (h : source.Rearranges source') (owner : String) :
    Agree Schema.Rearranges (Schema.load source owner) (Schema.load source' owner) := by
  have hstart : Loader.Rearranges { unnamed := { source, owner } } { unnamed := { source := source', owner } } :=
    ⟨.nil, .none, rfl, rfl, .nil⟩
  have hparts : Agree Schema.Rearranges (source.loadParts owner) (source'.loadParts owner) := by
    refine h.parts.bind fun parts parts' hparts => ?_
    refine (Agree.foldlM hparts hstart fun _ _ _ _ hl hpart => hl.agree_addPart hpart).bind fun l l' hl => ?_
    exact hl.agree_schema
  refine (Schema.agree_loadParts source owner).trans ?_ fun _ _ _ hsame hrelated => hsame ▸ hrelated
  exact hparts.trans (Schema.agree_loadParts source' owner).swap fun _ _ _ hrelated hsame => hsame ▸ hrelated

end ExampleSchema
