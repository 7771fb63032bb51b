import ExampleSchema.Proofs.Load.Root
import ExampleSchema.Proofs.Location.Compile

/-!
# Where problems with documents point

What is read of a document is written there, so a problem with it points into the document: at the byte at which
the scan stops, or at the mark of something that has been read.  Only the mark at the end of the document is
never blamed.

* `Location.IsIn`: a place in one of some documents, its end included.
* `Scan.foldMarks_pointsTo`: a fold over the events of a document, given how each event is taken.
* `Loader.LiesIn`, `Loader.add_meets`: all that the loader holds is written at some places, and one event keeps it
  so.
* `Schema.load_meets`, `Enumeration.load_pointsTo`: schemas and enum rules.
-/

namespace ExampleSchema

/-- The place is in one of some documents, or right behind its last byte. -/
def Location.IsIn (documents : List Source) (l : Location) : Prop :=
  l.source ∈ documents ∧ l.offset ≤ l.source.content.length

theorem Location.IsIn.of_mem {documents : List Source} {source : Source} (h : source ∈ documents) (l : Location)
    (hl : l.IsIn [source]) : l.IsIn documents := by
  obtain ⟨hsource, hoffset⟩ := hl
  exact ⟨List.mem_singleton.1 hsource ▸ h, hoffset⟩

/-- **A fold over the events of a document** points into the document where it fails, if each step does that takes
a mark of the document.  The mark at its end does not count. -/
theorem Scan.foldMarks_pointsTo {σ : Type} (o : Options) (source : Source) {step : σ → Mark → Outcome σ}
    {start : σ} {good : σ → Prop} (hstart : good start)
    (hend : ∀ state (mark : Mark), mark.kind = .endTop → step state mark = .ok state)
    (hstep : ∀ state, good state → ∀ mark : Mark, mark.LiesIn (Location.IsIn [source]) →
      (step state mark).Meets good (Problem.PointsTo (Location.IsIn [source]))) :
    (foldMarks o source step start).Meets good (Problem.PointsTo (Location.IsIn [source])) := by
  have hsource : source ∈ [source] := List.mem_singleton_self source
  refine (@foldMarks_meets _ o source step start (fun _ => good) _ hstart ?_ fun f hf => ?_).imp ?_ fun _ => id
  · intro _ _ state event hevent hgood _
    by_cases hkind : event.kind = .endTop
    · rw [hend state ⟨source, event⟩ hkind]
      exact hgood
    · exact hstep state hgood ⟨source, event⟩ ⟨hsource, start_le_of_mem_read hevent hkind⟩
  · exact ⟨_, rfl, hsource, offset_le_of_read hf⟩
  · exact fun _ ⟨_, hgood⟩ => hgood

variable {places : Location → Prop} {mark : Mark}

/-! ## Notes -/

namespace Note

/-- What a list or an object of rule values has so far is written at some places. -/
def Frame.LiesIn (places : Location → Prop) : Frame → Prop
  | .object rules name? => (∀ rule ∈ rules, rule.2.1.LiesIn places ∧ rule.2.2.LiesIn places) ∧
      ∀ name, name? = some name → name.2.LiesIn places
  | .array items => ∀ item ∈ items, item.LiesIn places

/-- A note is written at some places, and so are its rules. -/
structure LiesIn (places : Location → Prop) (note : Note) : Prop where
  mark : note.mark.LiesIn places
  rules : ∀ rules, note.rules? = some rules → ∀ rule ∈ rules, rule.2.1.LiesIn places ∧ rule.2.2.LiesIn places

namespace Builder

/-- What is read of a note is written at some places. -/
structure LiesIn (places : Location → Prop) (b : Builder) : Prop where
  note : b.note.LiesIn places
  frames : ∀ frame ∈ b.frames, frame.LiesIn places

variable {b : Builder}

theorem liesIn_start (hmark : mark.LiesIn places) : LiesIn places { mark } := by
  refine ⟨⟨hmark, fun rules hrules => ?_⟩, fun frame hframe => ?_⟩
  · cases hrules
  · exact (List.not_mem_nil hframe).elim

theorem place_meets (h : b.LiesIn places) {value : RuleValue} (hvalue : value.LiesIn places) :
    (b.place value).Meets (LiesIn places) (Problem.PointsTo places) := by
  obtain ⟨start, frames, rules?, text?⟩ := b
  obtain ⟨hnote, hframes⟩ := h
  cases frames with
  | nil =>
    cases hvalue with
    | object hmark hkeys hvalues =>
      refine ⟨⟨hnote.mark, fun rules hrules => ?_⟩, hframes⟩
      obtain rfl := Option.some.inj hrules
      exact fun rule hrule => ⟨hkeys rule hrule, hvalues rule hrule⟩
    | literal hmark | shortcut hmark | array hmark => exact Cause.on_pointsTo _ hmark
  | cons frame rest =>
    obtain ⟨hframe, hrest⟩ := List.forall_mem_cons.1 hframes
    rcases frame with ⟨rules, _ | ⟨name, key⟩⟩ | items
    · exact Cause.on_pointsTo _ hvalue.mark
    · obtain ⟨hrules, hname⟩ := hframe
      have hkey : key.LiesIn places := hname _ rfl
      refine .ite (Cause.on_pointsTo _ hkey) ⟨hnote, List.forall_mem_cons.2 ⟨⟨fun rule hrule => ?_, nofun⟩, hrest⟩⟩
      rcases List.mem_append.1 hrule with hrule | hrule
      · exact hrules rule hrule
      · rw [List.mem_singleton.1 hrule]
        exact ⟨hkey, hvalue⟩
    · exact ⟨hnote, List.forall_mem_cons.2 ⟨List.forall_mem_cons.2 ⟨hvalue, hframe⟩, hrest⟩⟩

theorem takeName_meets (h : b.LiesIn places) (hmark : mark.LiesIn places) :
    (b.takeName mark).Meets (LiesIn places) (Problem.PointsTo places) := by
  have hname : (nameOf mark).FailsOnly (Problem.PointsTo places) := by
    unfold nameOf
    split
    · split
      · trivial
      · exact Cause.on_pointsTo _ hmark
    · trivial
  refine hname.bind fun name _ => ?_
  split
  · next rules name? rest hopen =>
    have hframes := h.frames
    rw [hopen, List.forall_mem_cons] at hframes
    refine ⟨h.note, List.forall_mem_cons.2 ⟨⟨hframes.1.1, fun named hnamed => ?_⟩, hframes.2⟩⟩
    obtain rfl := Option.some.inj hnamed
    exact hmark
  · exact h

theorem leave_meets (h : b.LiesIn places) (hmark : mark.LiesIn places) :
    (b.leave mark).Meets (LiesIn places) (Problem.PointsTo places) := by
  unfold leave
  split
  · next rules name? rest hopen _ =>
    have hframes := h.frames
    rw [hopen, List.forall_mem_cons] at hframes
    have hrest : LiesIn places { b with frames := rest } := ⟨h.note, hframes.2⟩
    refine place_meets hrest (.object hmark ?_ ?_)
    · exact fun rule hrule => (hframes.1.1 rule hrule).1
    · exact fun rule hrule => (hframes.1.1 rule hrule).2
  · next items rest hopen _ =>
    have hframes := h.frames
    rw [hopen, List.forall_mem_cons] at hframes
    have hrest : LiesIn places { b with frames := rest } := ⟨h.note, hframes.2⟩
    exact place_meets hrest (.array hmark fun item hitem => hframes.1 item (List.mem_reverse.1 hitem))
  · exact Cause.on_pointsTo _ hmark

/-- **An event of a note** is taken, or it or what it completes is to blame. -/
theorem add_meets (h : b.LiesIn places) (hmark : mark.LiesIn places) :
    (b.add mark).Meets (LiesIn places) (Problem.PointsTo places) := by
  unfold add
  split
  · exact ⟨h.note, List.forall_mem_cons.2 ⟨⟨List.forall_mem_nil _, nofun⟩, h.frames⟩⟩
  · exact ⟨h.note, List.forall_mem_cons.2 ⟨List.forall_mem_nil _, h.frames⟩⟩
  · exact takeName_meets h hmark
  · exact place_meets h (.literal hmark)
  · exact place_meets h (.shortcut hmark)
  · exact leave_meets h hmark
  · exact leave_meets h hmark
  iterate 2
    unfold takeText
    dsimp only
    split
    · exact h
    · exact ⟨⟨h.note.mark, h.note.rules⟩, h.frames⟩
  · exact h

theorem add_endTop (b : Builder) (hkind : mark.kind = .endTop) : b.add mark = .ok b := by rw [add, hkind]

end Builder
end Note

/-! ## Open objects and arrays -/

/-- What an object or an array has so far is written at some places. -/
def Filling.LiesIn (places : Location → Prop) : Filling → Prop
  | .object properties key? =>
    Properties.LiesIn places properties ∧ ∀ key, key? = some key → key.mark.LiesIn places
  | .array items => ∀ item ∈ items, item.LiesIn places

namespace OpenNode

/-- What is read of an object or an array is written at some places. -/
structure LiesIn (places : Location → Prop) (n : OpenNode) : Prop where
  header : n.header.LiesIn places
  filling : n.filling.LiesIn places

variable {n : OpenNode}

theorem LiesIn.close (h : n.LiesIn places) (hmark : mark.LiesIn places) : (n.close mark).LiesIn places := by
  obtain ⟨header, filling⟩ := n
  obtain ⟨hheader, hfilling⟩ := h
  have hclosed : Header.LiesIn places { header with basis := mark } := ⟨hmark, hheader.rules, hheader.formats⟩
  cases filling with
  | object properties key? =>
    exact Node.liesIn_object_iff.2 ⟨hclosed, fun p hp => hfilling.1 p (List.mem_reverse.1 hp)⟩
  | array items => exact Node.liesIn_array_iff.2 ⟨hclosed, fun item hitem => hfilling item (List.mem_reverse.1 hitem)⟩

theorem LiesIn.takeKey (h : n.LiesIn places) {key : PropertyKey} (hkey : key.mark.LiesIn places) :
    (n.takeKey key).LiesIn places := by
  obtain ⟨header, filling⟩ := n
  cases filling with
  | object properties key? =>
    refine ⟨h.header, h.filling.1, fun key' hkey' => ?_⟩
    obtain rfl := Option.some.inj hkey'
    exact hkey
  | array items => exact h

theorem place_meets (h : n.LiesIn places) {node : Node} (hnode : node.LiesIn places) :
    (n.place node).Meets (LiesIn places) (Problem.PointsTo places) := by
  obtain ⟨header, filling⟩ := n
  obtain ⟨hheader, hfilling⟩ := h
  rcases filling with ⟨properties, _ | key⟩ | items
  · exact Cause.on_pointsTo _ hnode.isMarkedIn.header.basis
  · have hkey : key.mark.LiesIn places := hfilling.2 key rfl
    exact .ite (Cause.on_pointsTo _ hkey)
      ⟨hheader, List.forall_mem_cons.2 ⟨⟨hkey, hnode⟩, hfilling.1⟩, nofun⟩
  · exact ⟨hheader, List.forall_mem_cons.2 ⟨hnode, hfilling⟩⟩

/-- The value completed last is changed, if there is one. -/
theorem changeLast?_meets (h : n.LiesIn places) {change : Node → Outcome Node}
    (hchange : ∀ node : Node, node.LiesIn places →
      (change node).Meets (Node.LiesIn places) (Problem.PointsTo places)) {o : Outcome OpenNode}
    (ho : n.changeLast? change = some o) : o.Meets (LiesIn places) (Problem.PointsTo places) := by
  obtain ⟨header, filling⟩ := n
  obtain ⟨hheader, hfilling⟩ := h
  rcases filling with ⟨_ | ⟨⟨key, node⟩, rest⟩, key?⟩ | ⟨_ | ⟨node, rest⟩⟩
  · cases ho
  · obtain rfl := Option.some.inj ho
    obtain ⟨⟨hkey, hnode⟩, hrest⟩ := List.forall_mem_cons.1 hfilling.1
    exact (hchange node hnode).bind fun node' hnode' =>
      ⟨hheader, List.forall_mem_cons.2 ⟨⟨hkey, hnode'⟩, hrest⟩, hfilling.2⟩
  · cases ho
  · obtain rfl := Option.some.inj ho
    obtain ⟨hnode, hrest⟩ := List.forall_mem_cons.1 hfilling
    exact (hchange node hnode).bind fun node' hnode' => ⟨hheader, List.forall_mem_cons.2 ⟨hnode', hrest⟩⟩

end OpenNode

/-! ## The loader -/

namespace Loader

/-- What is read of a schema is written at some places. -/
structure LiesIn (places : Location → Prop) (l : Loader) : Prop where
  openNodes : ∀ n ∈ l.openNodes, n.LiesIn places
  root : ∀ root, l.root? = some root → root.LiesIn places
  note : ∀ builder, l.note? = some builder → builder.LiesIn places
  types : l.unnamed.types.LiesIn places

variable {l : Loader}

theorem liesIn_start (source : Source) (owner : String) : LiesIn places { unnamed := { source, owner } } := by
  refine ⟨fun n hn => ?_, fun root hroot => ?_, fun builder hbuilder => ?_, fun e he => ?_⟩
  · exact (List.not_mem_nil hn).elim
  · cases hroot
  · cases hbuilder
  · exact (List.not_mem_nil he).elim

/-- The innermost object or array that is open, and what it may be changed to. -/
theorem LiesIn.top (h : l.LiesIn places) {top : OpenNode} {rest : List OpenNode} (hopen : l.openNodes = top :: rest) :
    top.LiesIn places ∧ LiesIn places { l with openNodes := rest } ∧ ∀ top' : OpenNode, top'.LiesIn places →
      LiesIn places { l with openNodes := top' :: rest } := by
  have hopens := h.openNodes
  rw [hopen, List.forall_mem_cons] at hopens
  exact ⟨hopens.1, ⟨hopens.2, h.root, h.note, h.types⟩,
    fun top' htop' => ⟨List.forall_mem_cons.2 ⟨htop', hopens.2⟩, h.root, h.note, h.types⟩⟩

theorem LiesIn.withTarget (h : l.LiesIn places) (target : NoteTarget) : LiesIn places { l with target } :=
  ⟨h.openNodes, h.root, h.note, h.types⟩

theorem place_meets (h : l.LiesIn places) {node : Node} (hnode : node.LiesIn places) :
    (l.place node).Meets (LiesIn places) (Problem.PointsTo places) := by
  unfold place
  split
  · refine ⟨h.openNodes, fun root hroot => ?_, h.note, h.types⟩
    obtain rfl := Option.some.inj hroot
    exact hnode
  · next top rest hopen =>
    obtain ⟨htop, -, hchange⟩ := h.top hopen
    exact (OpenNode.place_meets htop hnode).bind fun top' htop' => (hchange top' htop').withTarget .lastChild

theorem LiesIn.enter (h : l.LiesIn places) (hmark : mark.LiesIn places) (type : JsonType) {filling : Filling}
    (hfilling : filling.LiesIn places) : (l.enter mark type filling).LiesIn places :=
  ⟨List.forall_mem_cons.2 ⟨⟨Header.liesIn_of_nil hmark rfl, hfilling⟩, h.openNodes⟩, h.root, h.note, h.types⟩

theorem leave_meets (h : l.LiesIn places) (hmark : mark.LiesIn places) :
    (l.leave mark).Meets (LiesIn places) (Problem.PointsTo places) := by
  unfold leave
  split
  · next top rest hopen =>
    obtain ⟨htop, hrest, -⟩ := h.top hopen
    exact place_meets hrest (htop.close hmark)
  · exact Cause.on_pointsTo _ hmark

theorem LiesIn.takeKey (h : l.LiesIn places) {key : PropertyKey} (hkey : key.mark.LiesIn places) :
    (l.takeKey key).LiesIn places := by
  unfold Loader.takeKey
  split
  · next top rest hopen =>
    obtain ⟨htop, -, hchange⟩ := h.top hopen
    exact hchange _ (htop.takeKey hkey)
  · exact h

/-- A note changes what it describes, or it or one of its rules is to blame. -/
theorem describe_meets (h : l.LiesIn places) {note : Note} (hnote : note.mark.LiesIn places) {added : List Rule}
    (hadded : ∀ r ∈ added, r.IsWrittenIn places) :
    (l.describe note added).Meets (LiesIn places) (Problem.PointsTo places) := by
  have hannotate : ∀ node : Node, node.LiesIn places → (node.annotate note.mark note.text? added).Meets
      (Node.LiesIn places) (Problem.PointsTo places) := fun node hnode => Node.annotate_meets hnode hnote _ hadded
  unfold describe
  dsimp only
  split
  · exact h
  · next root _ hroot =>
    refine (hannotate root (h.root root hroot)).bind fun root' hroot' => ?_
    refine ⟨h.openNodes, fun root hroot => ?_, h.note, h.types⟩
    obtain rfl := Option.some.inj hroot
    exact hroot'
  · next top rest _ hopen =>
    obtain ⟨htop, -, hchange⟩ := h.top hopen
    refine (Header.annotate_meets htop.header hnote note.text?).bind fun noted hnoted => ?_
    refine (Header.apply_meets hnoted hadded fun _ hm => by cases hm).bind fun header hheader => ?_
    exact hchange _ ⟨hheader, htop.filling⟩
  · next top rest _ hopen =>
    obtain ⟨htop, -, hchange⟩ := h.top hopen
    split
    · next changed hchanged =>
      exact (OpenNode.changeLast?_meets htop hannotate hchanged).bind fun top' htop' => hchange top' htop'
    · exact Cause.on_pointsTo _ hnote
  · exact Cause.on_pointsTo _ hnote

theorem applyNote_meets (h : l.LiesIn places) {note : Note} (hnote : note.LiesIn places) :
    (l.applyNote note).Meets (LiesIn places) (Problem.PointsTo places) := by
  have hnone : ∀ r ∈ ([] : List Rule), r.IsWrittenIn places := fun _ hr => (List.not_mem_nil hr).elim
  unfold applyNote
  split
  · exact h
  · exact describe_meets h hnote.mark hnone
  · next rules hrules =>
    split
    · exact Cause.on_pointsTo _ hnote.mark
    · refine (RuleValue.constraintsOf_meets l.unnamed h.types rules (hnote.rules rules hrules)).bind ?_
      rintro ⟨built, unnamed⟩ ⟨hbuilt, htypes⟩
      have hregistered : LiesIn places { l with unnamed } := ⟨h.openNodes, h.root, h.note, htypes⟩
      exact describe_meets hregistered hnote.mark hbuilt

/-- **An event** is taken, or it or what it completes is to blame. -/
theorem add_meets (h : l.LiesIn places) (hmark : mark.LiesIn places) :
    (l.add mark).Meets (LiesIn places) (Problem.PointsTo places) := by
  have hwithNote : ∀ note? : Option Note.Builder, (∀ builder, note? = some builder → builder.LiesIn places) →
      LiesIn places { l with note? } := fun _ hnote => ⟨h.openNodes, h.root, hnote, h.types⟩
  unfold add
  split
  · next builder hbuilder =>
    have hbuilder := h.note builder hbuilder
    unfold addToNote
    split
    iterate 2 exact applyNote_meets (hwithNote none nofun) hbuilder.note
    · refine (Note.Builder.add_meets hbuilder hmark).bind fun next hnext => hwithNote (some next) ?_
      rintro builder ⟨⟩
      exact hnext
  · have hbegins : LiesIn places { l with note? := some { mark } } := by
      refine hwithNote _ ?_
      rintro builder ⟨⟩
      exact Note.Builder.liesIn_start hmark
    unfold addEvent
    split
    · exact h.enter hmark _ ⟨List.forall_mem_nil _, nofun⟩
    · exact h.enter hmark _ (List.forall_mem_nil _)
    · exact leave_meets h hmark
    · exact leave_meets h hmark
    · exact h.takeKey hmark
    · unfold takeName
      split
      · exact (Verdict.on_pointsTo _ hmark).bind fun name _ => h.takeKey hmark
      · exact h
    · refine place_meets h (Node.liesIn_iff.2 ⟨⟨Header.liesIn_of_nil hmark rfl, fun m hm => ?_, List.forall_mem_nil _⟩, List.forall_mem_nil _⟩)
      obtain rfl := Option.some.inj hm
      exact hmark
    · exact (Shortcut.node_meets hmark).bind fun node hnode => place_meets h hnode
    · exact hbegins
    · exact hbegins
    · exact h.withTarget .nothing
    · exact h

theorem add_endTop (l : Loader) (hkind : mark.kind = .endTop) : l.add mark = .ok l := by
  obtain ⟨openNodes, root?, target, note?, unnamed⟩ := l
  cases note? with
  | none => rw [add, addEvent, hkind]
  | some builder =>
    rw [add]
    dsimp only
    rw [addToNote, builder.add_endTop hkind, hkind]
    rfl

end Loader

/-! ## Documents -/

/-- **A schema** is written in its document, and a problem with it is in that document. -/
theorem Schema.load_meets (source : Source) (owner : String) : (load source owner).Meets
    (Schema.LiesIn (Location.IsIn [source])) (Problem.PointsTo (Location.IsIn [source])) := by
  have hfold := Scan.foldMarks_pointsTo {} source (Loader.liesIn_start source owner)
    (fun l mark => l.add_endTop) fun l hl mark hmark => Loader.add_meets hl hmark
  unfold load
  cases hloader : Scan.foldMarks {} source Loader.add { unnamed := { source, owner } } with
  | error p => exact hfold.of_error hloader
  | ok l =>
    have hl := hfold.of_ok hloader
    obtain ⟨root, hroot⟩ := Option.isSome_iff_exists.1 (Loader.isSome_root?_of_foldMarks hloader)
    rw [Except.ok_bind, hroot]
    exact ⟨hl.root root hroot, hl.types⟩

/-- The items that are read of an enum rule are written at some places. -/
def EnumReader.LiesIn (places : Location → Prop) (r : EnumReader) : Prop :=
  ∀ item ∈ r.items, item.1.LiesIn places

theorem EnumReader.add_meets {r : EnumReader} (h : r.LiesIn places) (hmark : mark.LiesIn places) :
    (r.add mark).Meets (LiesIn places) (Problem.PointsTo places) := by
  unfold EnumReader.add
  split
  · unfold addToNote
    split
    · exact Cause.on_pointsTo _ hmark
    iterate 2
      unfold takeText
      dsimp only
      split
      · next item comment? rest hitems =>
        rw [LiesIn, hitems, List.forall_mem_cons] at h
        split
        · exact List.forall_mem_cons.2 h
        · rw [Except.meets_ok, LiesIn, hitems]
          exact List.forall_mem_cons.2 h
      · exact h
    · exact h
    · exact h
    · exact h
  · unfold addEvent
    split
    · exact h
    · exact h
    · exact List.forall_mem_cons.2 ⟨hmark, h⟩
    iterate 7 exact h
    exact Cause.on_pointsTo _ hmark

theorem EnumReader.add_endTop (r : EnumReader) (hkind : mark.kind = .endTop) : r.add mark = .ok r := by
  unfold add
  split
  · rw [addToNote, hkind]
  · rw [addEvent, hkind]

/-- **A problem with an enum rule** is in its document. -/
theorem Enumeration.load_pointsTo (source : Source) :
    (load source).FailsOnly (Problem.PointsTo (Location.IsIn [source])) := by
  have hstart : EnumReader.LiesIn (Location.IsIn [source]) {} := fun _ hitem => (List.not_mem_nil hitem).elim
  have hfold := Scan.foldMarks_pointsTo {} source hstart (fun r mark => r.add_endTop)
    fun r hr mark hmark => EnumReader.add_meets hr hmark
  refine hfold.bind fun r hr => Except.FailsOnly.foldlM fun e item hitem => ?_
  exact Verdict.on_pointsTo _ (hr item (List.mem_reverse.1 hitem))

end ExampleSchema
