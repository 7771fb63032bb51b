import ExampleSchema.Proofs.Load.Places

/-!
# Where notes are placed

A note is about the value that was marked last before it on its line: the value that ended last, or the object or the
array that was opened last.  Every node of a loaded schema is what its value is on its own or, where
a note with rules or a text is about that value, what this note makes of it.  No more than one such note is about one
value.

* `Loader.after`: the loader after some events.
* `WrittenNote.Describes`: a note is about a value.
* `Node.IsRecorded`: a node is what its value and its note make of it.
* `Loader.Tracks`: what holds of the loader after some events, and `Loader.Tracks.add`: one event more.
-/

namespace ExampleSchema

open Scan (IsInNote NoteKind)
open Event (track trackAll valueStart? valueStarts AreOrdered)

/-- What has been read after some events of a document. -/
def Loader.after (source : Source) (owner : String) (events : List Event) : Outcome Loader :=
  events.foldlM (fun (l : Loader) e => l.add ⟨source, e⟩) { unnamed := { source, owner } }

theorem Loader.after_append_singleton {source : Source} {owner : String} {past : List Event} {l : Loader}
    (h : Loader.after source owner past = .ok l) (e : Event) :
    Loader.after source owner (past ++ [e]) = l.add ⟨source, e⟩ := by
  rw [after] at h ⊢
  rw [Except.foldlM_append_singleton, h]
  rfl

namespace WrittenNote

variable {source : Source} {past : List Event} {e : Event} {n : WrittenNote source} {start : Nat}

/-- The note is about the value that begins at `start`. -/
def Describes (n : WrittenNote source) (start : Nat) : Prop := IsMarkedLast EventKind.marksValue n.past start

/-- The rules of the note. -/
def added (n : WrittenNote source) (owner : String) : Outcome (List Rule) := do
  n.note.added (← Loader.after source owner n.before).unnamed

theorem added_eq {owner : String} {l : Loader} (h : Loader.after source owner n.before = .ok l) :
    n.added owner = n.note.added l.unnamed := by
  rw [added, h]
  rfl

/-- The value that a note is about has been marked. -/
theorem Describes.exists_mark (h : n.Describes start) (hpast : n.through <+: past) : ∃ before x after,
    past = before ++ x :: after ∧ x.kind.marksValue = true ∧ ¬ IsWithinNote before ∧ x.start = start := by
  obtain ⟨before, x, after, heq, hx, hout, hstart⟩ := IsMarkedLast.exists_mark h
  obtain ⟨rest, rfl⟩ := hpast
  refine ⟨before, x, after ++ n.opening :: n.inside ++ [n.closing] ++ rest, ?_, hx, hout, hstart⟩
  simp [through, WrittenNote.before, heq]

end WrittenNote

namespace Node

variable {source : Source} {owner : String} {past : List Event} {e : Event} {node : Node}

/-- What the value and the note about it make of a node, after some events. -/
inductive IsRecorded (source : Source) (owner : String) (events : List Event) (node : Node) : Prop where
  /-- No note with rules or a text is about the value. -/
  | plain : IsUnannotated node.basis node →
      (∀ n : WrittenNote source, n.through <+: events → n.Describes node.start → n.IsEmpty) →
      IsRecorded source owner events node
  /-- One note with rules or a text is about the value. -/
  | described (n : WrittenNote source) {plain : Node} {added : List Rule} : n.through <+: events →
      ¬ n.IsEmpty → n.Describes node.start → n.added owner = .ok added → IsUnannotated node.basis plain →
      plain.annotate n.note.mark n.note.text? added = .ok node →
      (∀ m : WrittenNote source, m.through <+: events → m.Describes node.start → m.IsEmpty ∨ m = n) →
      IsRecorded source owner events node

/-- The next event ends no note about the value. -/
theorem IsRecorded.append_singleton (h : node.IsRecorded source owner past)
    (hnew : ∀ n : WrittenNote source, n.through = past ++ [e] → n.Describes node.start → n.IsEmpty) :
    node.IsRecorded source owner (past ++ [e]) := by
  have hcases {n : WrittenNote source} (hn : n.through <+: past ++ [e]) (hdescribes : n.Describes node.start) :
      n.IsEmpty ∨ n.through <+: past :=
    (WrittenNote.through_prefix_append_singleton_iff.1 hn).imp (fun heq => hnew n heq hdescribes) id
  cases h with
  | plain hplain hnone =>
    exact .plain hplain fun n hn hdescribes => (hcases hn hdescribes).elim id fun hn => hnone n hn hdescribes
  | described n hn hspeaks hdescribes hadded hplain hnode hunique =>
    refine .described n (hn.trans (List.prefix_append _ _)) hspeaks hdescribes hadded hplain hnode fun m hm hother => ?_
    exact (hcases hm hother).elim Or.inl fun hm => hunique m hm hother

/-- The value ends. -/
theorem IsRecorded.moved (h : node.IsRecorded source owner past) {c : Construct} {mark : Mark}
    (hopens : node.basis.kind = .opening c) (hcloses : mark.kind = .closing c) (hstart : mark.start = node.start) :
    (node.moved mark).IsRecorded source owner past := by
  have hsame : (node.moved mark).start = node.start := by rw [start, basis_moved, hstart]
  cases h with
  | plain hplain hnone =>
    refine .plain ?_ (by rwa [hsame])
    rw [basis_moved]
    exact hplain.moved hopens hcloses
  | @described n plain added hn hspeaks hdescribes hadded hplain hnode hunique =>
    refine .described n hn hspeaks (by rwa [hsame]) hadded ?_ (annotate_moved hnode mark) (by rwa [hsame])
    rw [basis_moved]
    exact hplain.moved hopens hcloses

/-- A node that a note describes. -/
theorem IsRecorded.isAnnotated (h : node.IsRecorded source owner past) {n : WrittenNote source}
    (hn : n.through <+: past) (hspeaks : ¬ n.IsEmpty) (hdescribes : n.Describes node.start) :
    node.header.isAnnotated = true := by
  cases h with
  | plain _ hnone => exact (hspeaks (hnone n hn hdescribes)).elim
  | described _ _ _ _ _ _ hnode => exact (header_of_annotate_eq_ok hnode).2.1

end Node

namespace Loader

variable {source : Source} {owner : String} {past : List Event} {e : Event} {l m : Loader}

/-- The node that the next note describes is one of the nodes. -/
theorem bare_mem_of_target? {node : Node} (h : l.target? = some node) : node.bare ∈ l.bares := by
  rw [target?] at h
  rw [bares]
  split at h
  · next root _ hroot =>
    obtain rfl := Option.some.inj h
    simp [hroot, Node.bares_eq root]
  · next top rest _ hopen =>
    obtain rfl := Option.some.inj h
    simp [hopen, Node.bares_eq top.node]
  · next top rest _ hopen =>
    have hmem := List.mem_of_getLast? h
    rw [hopen, List.flatMap_cons, Node.bares_eq top.node]
    refine List.mem_append_left _ (List.mem_append_left _ (List.mem_cons_of_mem _ ?_))
    exact List.mem_flatMap.2 ⟨node, hmem, by simp [Node.bares_eq node]⟩
  · cases h

/-- **What holds of the loader after some events.** -/
structure Tracks (source : Source) (owner : String) (past : List Event) (l : Loader) : Prop where
  run : Loader.after source owner past = .ok l
  stands : ∃ opened, trackAll [] past = some opened ∧ l.Stands past opened
  reading : ∀ builder, l.note? = some builder → IsReading source past builder
  outside : l.note? = none → ¬ IsWithinNote past
  /-- Nothing in a note is marked. -/
  line : ∀ marks : EventKind → Bool, (∀ kind, kind.opensNote = true → marks kind = false) →
    ∀ n : WrittenNote source, n.before = past → ∀ start, IsMarkedLast marks n.past start ↔ IsMarkedLast marks past start
  target : ∀ start, IsMarkedLast EventKind.marksValue past start ↔ l.target?.map Node.start = some start
  lost : l.target? = none → l.target = .nothing
  recorded : ∀ node ∈ l.bares, node.IsRecorded source owner past

theorem tracks_nil (source : Source) (owner : String) : Tracks source owner [] { unnamed := { source, owner } } where
  run := rfl
  stands := ⟨[], rfl, stands_nil _⟩
  reading := nofun
  outside _ := not_isWithinNote_nil
  line marks hmarks n h := by simp [WrittenNote.before] at h
  target start := ⟨fun h => (not_isMarkedLast_nil h).elim, nofun⟩
  lost _ := rfl
  recorded := nofun

/-- No line ends in a note. -/
theorem Tracks.ne_newLine (h : l.Tracks source owner past) (hfollows : Event.Follows past e)
    (hwithin : IsWithinNote past) : e.kind ≠ .newLine := by
  intro hline
  obtain ⟨opened, htrack, hstands⟩ := h.stands
  cases hnote : l.note? with
  | none => exact h.outside hnote hwithin
  | some builder =>
    obtain ⟨inside, note, outside, rfl, hisNote, -⟩ := (nests_iff_of_some hnote).1 hstands.nests
    exact hfollows.outside (Or.inl hline) _ htrack ⟨note.1, by simp, hisNote⟩

/-- The beginning of a note is no mark of a value. -/
theorem marksValue_of_opensNote (kind : EventKind) (h : kind.opensNote = true) : kind.marksValue = false := by
  cases kind with
  | opening c => cases c <;> first | rfl | cases h
  | closing | newLine | endTop => cases h

section

variable {marks : EventKind → Bool}

/-- An event of a note leaves what is marked. -/
theorem Tracks.isMarkedLast_of_within (h : l.Tracks source owner past) (hfollows : Event.Follows past e)
    (hwithin : IsWithinNote past) (start : Nat) :
    IsMarkedLast marks (past ++ [e]) start ↔ IsMarkedLast marks past start :=
  isMarkedLast_of_other (h.ne_newLine hfollows hwithin) fun _ => hwithin

/-- The beginning of a note leaves what is marked. -/
theorem isMarkedLast_of_opensNote (hmarks : ∀ kind, kind.opensNote = true → marks kind = false)
    (hopens : e.kind.opensNote = true) (start : Nat) :
    IsMarkedLast marks (past ++ [e]) start ↔ IsMarkedLast marks past start := by
  refine isMarkedLast_of_other (fun hline => ?_) fun hmark => ?_
  · rw [hline] at hopens
    cases hopens
  · exact (Bool.false_ne_true ((hmarks _ hopens).symm.trans hmark)).elim

theorem Tracks.line_append_singleton (h : l.Tracks source owner past) (hfollows : Event.Follows past e)
    (hmarks : ∀ kind, kind.opensNote = true → marks kind = false) (n : WrittenNote source)
    (hbefore : n.before = past ++ [e]) (start : Nat) :
    IsMarkedLast marks n.past start ↔ IsMarkedLast marks (past ++ [e]) start := by
  rcases Event.append_singleton_eq_append_cons hbefore.symm with ⟨hpast, hopening, -⟩ | ⟨more, hinside, hpast⟩
  · rw [isMarkedLast_of_opensNote hmarks (hopening ▸ n.opens), hpast]
  · have hreads := n.reads
    rw [Note.Builder.ofEvents, hinside, List.foldlM_append] at hreads
    obtain ⟨builder, hbuilder, -⟩ := Except.bind_eq_ok_iff.1 hreads
    have hstays : ∀ x ∈ more, x.kind.closesNote = false := fun x hx =>
      n.stays x (hinside ▸ List.mem_append_left _ hx)
    let earlier : WrittenNote source :=
      ⟨n.past, n.opening, more, n.closing, builder, n.isOutside, n.opens, hstays, n.closes, hbuilder⟩
    rw [h.isMarkedLast_of_within hfollows ⟨n.past, n.opening, more, hpast, n.opens, hstays⟩]
    exact h.line marks hmarks earlier hpast.symm start

end

/-! ### One event -/

/-- An event outside of notes, where no note begins. -/
theorem Tracks.append_singleton_of_outside (h : l.Tracks source owner past) (hadd : l.add ⟨source, e⟩ = .ok m)
    (hfollows : Event.Follows past e) {opened' : List (Construct × Nat)}
    (htrack : trackAll [] (past ++ [e]) = some opened') (hstands : m.Stands (past ++ [e]) opened')
    (hnote : l.note? = none) (hopens : e.kind.opensNote = false)
    (hnote' : m.note? = none)
    (htarget : ∀ start, IsMarkedLast EventKind.marksValue (past ++ [e]) start ↔
      m.target?.map Node.start = some start)
    (hlost : m.target? = none → m.target = .nothing)
    (hrecorded : ∀ node ∈ m.bares, node.IsRecorded source owner (past ++ [e])) :
    m.Tracks source owner (past ++ [e]) where
  run := (after_append_singleton h.run e).trans hadd
  stands := ⟨opened', htrack, hstands⟩
  reading builder hbuilder := by simp [hnote'] at hbuilder
  outside _ := by
    rw [isWithinNote_append_singleton, hopens]
    rintro (hopens | ⟨hwithin, -⟩)
    · cases hopens
    · exact h.outside hnote hwithin
  line _ hmarks := h.line_append_singleton hfollows hmarks
  target := htarget
  lost := hlost
  recorded := hrecorded

/-- No note is about a value that no node has. -/
theorem Tracks.not_describes (h : l.Tracks source owner past) {start : Nat} (hnew : start ∉ l.bares.map Node.start)
    {n : WrittenNote source} (hn : n.through <+: past) : ¬ n.Describes start := by
  intro hdescribes
  obtain ⟨opened, -, hstands⟩ := h.stands
  obtain ⟨before, x, after, heq, hx, hout, rfl⟩ := hdescribes.exists_mark hn
  exact hnew (hstands.marked before x after heq hx hout)

/-- The node of a value that has just begun or ended is what the value is on its own. -/
theorem Tracks.recorded_new (h : l.Tracks source owner past) (hnote : l.note? = none) {node : Node}
    (hplain : Node.IsUnannotated node.basis node) (hnew : node.start ∉ l.bares.map Node.start) :
    node.IsRecorded source owner (past ++ [e]) := by
  refine .plain hplain fun n hn hdescribes => ?_
  rcases WrittenNote.through_prefix_append_singleton_iff.1 hn with heq | hn
  · exact (h.outside hnote (WrittenNote.closes_of_through_eq heq).2).elim
  · exact (h.not_describes hnew hn hdescribes).elim

/-- An object or an array is opened, or a value ends: it is the next one that a note describes. -/
theorem Tracks.target_of_marks (h : l.Tracks source owner past) (hnote : l.note? = none)
    (hmarks : e.kind.marksValue = true) {node : Node} (htarget : m.target? = some node)
    (hstart : node.start = e.start) :
    (∀ start, IsMarkedLast EventKind.marksValue (past ++ [e]) start ↔ m.target?.map Node.start = some start) ∧
      (m.target? = none → m.target = .nothing) := by
  refine ⟨fun start => ?_, fun hnone => by simp [htarget] at hnone⟩
  rw [isMarkedLast_of_marks hmarks (h.outside hnote), htarget, Option.map_some, hstart, Option.some.injEq]

/-- Where no note ends, the nodes that were there remain. -/
theorem Tracks.recorded_old (h : l.Tracks source owner past)
    (hends : ¬ (e.kind.closesNote = true ∧ IsWithinNote past)) :
    ∀ node ∈ l.bares, node.IsRecorded source owner (past ++ [e]) := fun node hnode =>
  (h.recorded node hnode).append_singleton fun _ heq => (hends (WrittenNote.closes_of_through_eq heq)).elim

section

variable {opened opened' : List (Construct × Nat)} {c : Construct} {plain : Node} {builder : Note.Builder}
  (h : l.Tracks source owner past) (hadd : l.add ⟨source, e⟩ = .ok m) (hfollows : Event.Follows past e)
  (hpast : trackAll [] past = some opened) (hstands : l.Stands past opened) (hstep : track opened e = some opened')
include h hadd hfollows hpast hstands hstep

/-- An object or an array is opened. -/
theorem Tracks.opens (hnote : l.note? = none) (hkind : e.kind = .opening c) (hc : c.isContainer = true)
    (hplain : Node.IsUnannotated ⟨source, e⟩ plain) (hbares : m.bares = plain :: l.bares) (hroot : m.root? = l.root?)
    (hopeners : m.openNodes.map OpenNode.opener = (e.kind, e.start) :: l.openNodes.map OpenNode.opener)
    (hnote' : m.note? = none) (htarget : m.target? = some plain) : m.Tracks source owner (past ++ [e]) := by
  have hstart : plain.start = e.start := by rw [Node.start, hplain.basis_eq]; rfl
  have hnext := hstands.opens hfollows hstep hnote hkind hc hstart hbares hroot hopeners hnote'
  have hopens : e.kind.opensNote = false := by
    rw [hkind, opensNote_opening, (Construct.of_isContainer hc).2.2]
    rfl
  obtain ⟨htargets, hlost⟩ := h.target_of_marks hnote (by rw [hkind]; exact hc) htarget hstart
  refine h.append_singleton_of_outside hadd hfollows ((Event.trackAll_append_singleton hpast e).trans hstep) hnext
    hnote hopens hnote' htargets hlost fun node hnode => ?_
  rw [hbares] at hnode
  rcases List.mem_cons.1 hnode with rfl | hnode
  · refine h.recorded_new hnote (hplain.basis_eq.symm ▸ hplain) fun hmem => ?_
    have hnodup := (List.nodup_append.1 hnext.begun.nodup).2.1
    rw [hbares, List.map_cons] at hnodup
    exact (List.nodup_cons.1 hnodup).1 hmem
  · exact h.recorded_old (fun hends => h.outside hnote hends.2) node hnode

/-- A value without parts ends. -/
theorem Tracks.ends (hordered : AreOrdered past) (hnote : l.note? = none) (hkind : e.kind = .closing c)
    (hc : c.isLeaf = true) (hplain : Node.IsUnannotated ⟨source, e⟩ plain) (hplace : l.place plain = .ok m) :
    m.Tracks source owner (past ++ [e]) := by
  obtain ⟨hvalue, -, hnoNote⟩ := Construct.of_isLeaf hc
  have hstart : plain.start = e.start := by rw [Node.start, hplain.basis_eq]; rfl
  have hbares : plain.bares = [plain] := by
    rw [Node.bares_eq, hplain.bare_eq, ← hplain.bare_eq, Node.children_bare]
    rfl
  obtain ⟨hnext, hgains⟩ := hstands.ends hordered hpast hfollows hstep hnote hkind hc hbares hstart hplace
  obtain ⟨htargets, hlost⟩ := h.target_of_marks hnote (by rw [hkind]; exact hvalue) hgains.target? hstart
  refine h.append_singleton_of_outside hadd hfollows ((Event.trackAll_append_singleton hpast e).trans hstep) hnext
    hnote (by rw [hkind]; rfl) (hgains.note?.trans hnote) htargets hlost fun node hnode => ?_
  have hperm : m.bares.Perm (plain :: l.bares) := by simpa [hbares] using hgains.bares
  rcases List.mem_cons.1 (hperm.subset hnode) with rfl | hnode
  · refine h.recorded_new hnote (hplain.basis_eq.symm ▸ hplain) fun hmem => ?_
    have hnodup := (List.nodup_append.1 hnext.begun.nodup).2.1
    rw [(hperm.map Node.start).nodup_iff, List.map_cons] at hnodup
    exact (List.nodup_cons.1 hnodup).1 hmem
  · exact h.recorded_old (fun hends => h.outside hnote hends.2) node hnode

/-- An object or an array ends. -/
theorem Tracks.leaves (hordered : AreOrdered past) (hnote : l.note? = none) (hkind : e.kind = .closing c)
    (hc : c.isContainer = true) (hleave : l.leave ⟨source, e⟩ = .ok m) : m.Tracks source owner (past ++ [e]) := by
  obtain ⟨hvalue, -, hnoNote⟩ := Construct.of_isContainer hc
  obtain ⟨hnext, top, rest, hopen, htopKind, htop, hgains⟩ :=
    hstands.leaves hordered hpast hfollows hstep hnote hkind hc hleave
  have hstart : (top.node.moved ⟨source, e⟩).start = e.start := by rw [Node.start, Node.basis_moved]; rfl
  obtain ⟨htargets, hlost⟩ := h.target_of_marks hnote (by rw [hkind]; exact hvalue) hgains.target? hstart
  refine h.append_singleton_of_outside hadd hfollows ((Event.trackAll_append_singleton hpast e).trans hstep) hnext
    hnote (by rw [hkind]; rfl) (hgains.note?.trans hnote) htargets hlost fun node hnode => ?_
  have hbares : l.bares = top.node.bares ++ Loader.bares { l with openNodes := rest } := by
    simp [bares, hopen, List.append_assoc]
  have hrecorded := h.recorded_old (e := e) fun hends => h.outside hnote hends.2
  rw [hbares] at hrecorded
  rcases List.mem_append.1 (hgains.bares.subset hnode) with hnode | hnode
  · rw [Node.bares_eq, Node.children_moved, Node.bare_moved] at hnode
    rw [Node.bares_eq top.node] at hrecorded
    rcases List.mem_cons.1 hnode with rfl | hnode
    · refine (hrecorded top.node.bare (by simp)).moved (c := c) ?_ hkind ?_
      · rw [Node.basis_bare, htopKind]
      · rw [Node.start_bare, htop]
        rfl
    · exact hrecorded node (List.mem_append_left _ (List.mem_cons_of_mem _ hnode))
  · exact hrecorded node (List.mem_append_right _ hnode)

/-- The end of a note changes nothing but what the nodes are. -/
theorem Tracks.append_singleton_of_closes (hnote : l.note? = some builder) (hcloses : e.kind.closesNote = true)
    (hnote' : m.note? = none) (hopeners : m.openNodes.map OpenNode.opener = l.openNodes.map OpenNode.opener)
    (hbares : m.bares.map Node.start = l.bares.map Node.start)
    (hroot : m.root?.map Node.start = l.root?.map Node.start)
    (htarget : m.target?.map Node.start = l.target?.map Node.start) (hlost : m.target? = none → m.target = .nothing)
    (hrecorded : ∀ node ∈ m.bares, node.IsRecorded source owner (past ++ [e])) :
    m.Tracks source owner (past ++ [e]) := by
  have hwithin : IsWithinNote past := (h.reading _ hnote).isWithinNote
  refine ⟨(after_append_singleton h.run e).trans hadd, ⟨opened', (Event.trackAll_append_singleton hpast e).trans hstep,
    hstands.endsNote hfollows hstep hnote hwithin hcloses hnote' hopeners hbares hroot⟩,
    fun builder hbuilder => by simp [hnote'] at hbuilder, fun _ => ?_,
    fun _ hmarks => h.line_append_singleton hfollows hmarks,
    fun start => ?_, hlost, hrecorded⟩
  · rw [isWithinNote_append_singleton]
    rintro (hopens | ⟨-, hstays⟩)
    · exact Bool.false_ne_true ((EventKind.closesNote_of_opensNote hopens).symm.trans hcloses)
    · exact Bool.false_ne_true (hstays.symm.trans hcloses)
  · rw [h.isMarkedLast_of_within hfollows hwithin, htarget]
    exact h.target start

/-- A note ends, and is recorded on the value that it is about. -/
theorem Tracks.endsNote (hnote : l.note? = some builder) (hcloses : e.kind.closesNote = true)
    (happly : applyNote { l with note? := none } builder.note = .ok m) : m.Tracks source owner (past ++ [e]) := by
  obtain ⟨n, hbefore, hclosing, rfl⟩ := WrittenNote.exists_of_isReading (h.reading _ hnote) hcloses
  have hthrough : n.through = past ++ [e] := by rw [WrittenNote.through, hbefore, hclosing]
  have honly {n' : WrittenNote source} (heq : n'.through = past ++ [e]) : n' = n :=
    WrittenNote.eq_of_through_eq (heq.trans hthrough.symm)
  have hdescribes (start : Nat) : n.Describes start ↔ l.target?.map Node.start = some start :=
    (h.line _ marksValue_of_opensNote n hbefore start).trans (h.target start)
  have hnext := h.append_singleton_of_closes hadd hfollows hpast hstands hstep hnote hcloses
  have hlost : Loader.target? { l with note? := none } = none → l.target = .nothing := h.lost
  rcases applyNote_cases hlost happly with
    ⟨rfl, hempty⟩ | ⟨hspeaks, node, added, changed, htarget, hadded, hchanged, hchanges⟩
  · refine hnext rfl rfl rfl rfl rfl h.lost fun node hnode => ?_
    refine (h.recorded node hnode).append_singleton fun n' heq hother => ?_
    obtain rfl := honly heq
    rcases hempty with hempty | ⟨hnone, -⟩
    · exact hempty
    · rw [hdescribes, show l.target? = none from hnone] at hother
      cases hother
  · replace htarget : l.target? = some node := htarget
    obtain ⟨hfree, -, -, hbasis⟩ := Node.header_of_annotate_eq_ok hchanged
    obtain ⟨hbare, -⟩ := Node.annotate_bare hchanged
    obtain ⟨front, back, hold, hnew⟩ := hchanges.bares
    replace hold : l.bares = front ++ node.bare :: back := hold
    have hstart : changed.start = node.start := by rw [Node.start, hbasis, Node.start]
    have hstarts : m.bares.map Node.start = l.bares.map Node.start := by simp [hold, hnew, hstart]
    have hnodup : (front.map Node.start ++ node.start :: back.map Node.start).Nodup := by
      simpa [hold] using (List.nodup_append.1 hstands.begun.nodup).2.1
    have hlost : m.target? = none → m.target = .nothing := fun hnone => by simp [hchanges.target?] at hnone
    refine hnext hchanges.note? hchanges.openers hstarts hchanges.root? (by simp [hchanges.target?, htarget, hstart])
      hlost fun other hother => ?_
    -- The others begin elsewhere, and the note is not about them.
    have hkeeps (hmem : other ∈ l.bares) (hne : other.start ≠ node.start) :
        other.IsRecorded source owner (past ++ [e]) := by
      refine (h.recorded other hmem).append_singleton fun n' heq habout => ?_
      obtain rfl := honly heq
      rw [hdescribes, htarget] at habout
      exact (hne (Option.some.inj habout).symm).elim
    rw [hnew] at hother
    rcases List.mem_append.1 hother with hother | hother
    · refine hkeeps (hold ▸ List.mem_append_left _ hother) fun heq => ?_
      exact (List.nodup_append.1 hnodup).2.2 _ (List.mem_map_of_mem hother) _ List.mem_cons_self heq
    rcases List.mem_cons.1 hother with rfl | hother
    · have hdescribed : n.Describes changed.bare.start := by
        rw [Node.start_bare, hdescribes, htarget, hstart, Option.map_some]
      have hmem : node.bare ∈ l.bares := by simp [hold]
      cases h.recorded node.bare hmem with
      | plain hplain hnone =>
        refine .described n (by rw [hthrough]) hspeaks hdescribed ?_ ?_ hbare fun n' hn' habout => ?_
        · rw [WrittenNote.added_eq (hbefore ▸ h.run)]
          exact hadded
        · rwa [Node.basis_bare, hbasis, ← Node.basis_bare]
        · refine (WrittenNote.through_prefix_append_singleton_iff.1 hn').elim (fun heq => Or.inr (honly heq))
            fun hn' => Or.inl (hnone n' hn' ?_)
          rwa [Node.start_bare, ← hstart, ← Node.start_bare]
      | described _ _ _ _ _ _ hnode =>
        have htwice := (Node.header_of_annotate_eq_ok hnode).2.1
        rw [Node.header_bare, hfree] at htwice
        cases htwice
    · refine hkeeps (hold ▸ List.mem_append_right _ (List.mem_cons_of_mem _ hother)) fun heq => ?_
      exact (List.nodup_cons.1 (List.nodup_append.1 hnodup).2.1).1 (heq ▸ List.mem_map_of_mem hother)

end

/-- **One event.** -/
theorem Tracks.add (h : l.Tracks source owner past) (hordered : AreOrdered past) (hfollows : Event.Follows past e)
    {opened' : List (Construct × Nat)} (htrack : trackAll [] (past ++ [e]) = some opened')
    (hadd : l.add ⟨source, e⟩ = .ok m) : m.Tracks source owner (past ++ [e]) := by
  obtain ⟨opened, hpast, hstands⟩ := h.stands
  have hstep : track opened e = some opened' := (Event.trackAll_append_singleton hpast e).symm.trans htrack
  cases takes_of_add hadd with
  | opens hnote hkind hc hplain hbares hroot hopeners hnote' htarget =>
    exact h.opens hadd hfollows hpast hstands hstep hnote hkind hc hplain hbares hroot hopeners hnote' htarget
  | ends hnote hkind hc hplain hplace =>
    exact h.ends hadd hfollows hpast hstands hstep hordered hnote hkind hc hplain hplace
  | leaves hnote hkind hc hleave =>
    exact h.leaves hadd hfollows hpast hstands hstep hordered hnote hkind hc hleave
  | endsLine hnote hkind hm =>
    subst hm
    have hnext := hstands.rests hfollows hstep hnote (m := { l with target := .nothing }) (by rw [hkind]; rfl)
      (by rw [hkind]; rfl) hnote rfl rfl rfl
    refine h.append_singleton_of_outside hadd hfollows htrack hnext hnote (by rw [hkind]; rfl) hnote
      (fun start => ⟨fun hmarked => (not_isMarkedLast_newLine hkind rfl hmarked).elim, fun hsome => ?_⟩) (fun _ => rfl)
      (h.recorded_old fun hends => h.outside hnote hends.2)
    simp [target?] at hsome
  | beginsNote hnote hopens hm =>
    subst hm
    exact
      { run := (after_append_singleton h.run e).trans hadd
        stands := ⟨opened', htrack, hstands.beginsNote hfollows hstep hnote hopens _⟩
        reading := fun builder hbuilder => Option.some.inj hbuilder ▸ isReading_of_opensNote (h.outside hnote) hopens
        outside := fun hnone => by cases hnone
        line := fun _ hmarks => h.line_append_singleton hfollows hmarks
        target := fun start => (isMarkedLast_of_opensNote marksValue_of_opensNote hopens start).trans (h.target start)
        lost := h.lost
        recorded := h.recorded_old fun hends => h.outside hnote hends.2 }
  | @readsNote builder next hnote hstays hnext hm =>
    subst hm
    have hreading := h.reading builder hnote
    exact
      { run := (after_append_singleton h.run e).trans hadd
        stands := ⟨opened', htrack,
          hstands.readsNote hpast hfollows hstep hnote hreading.isWithinNote hstays next⟩
        reading := fun builder hbuilder => Option.some.inj hbuilder ▸ hreading.append_singleton hstays hnext
        outside := fun hnone => by cases hnone
        line := fun _ hmarks => h.line_append_singleton hfollows hmarks
        target := fun start => (h.isMarkedLast_of_within hfollows hreading.isWithinNote start).trans (h.target start)
        lost := h.lost
        recorded := h.recorded_old fun hends => Bool.false_ne_true (hstays.symm.trans hends.1) }
  | endsNote hnote hcloses happly => exact h.endsNote hadd hfollows hpast hstands hstep hnote hcloses happly
  | rests hnote hline hmarks hopens hrests hnote' =>
    have hnext := hstands.rests hfollows hstep hnote hmarks hopens hnote' hrests.openers hrests.bares hrests.root?
    have htarget (start : Nat) : IsMarkedLast EventKind.marksValue (past ++ [e]) start ↔
        m.target?.map Node.start = some start := by
      rw [isMarkedLast_of_other hline fun hmark => by simp [hmarks] at hmark, hrests.target?]
      exact h.target start
    refine h.append_singleton_of_outside hadd hfollows htrack hnext hnote hopens hnote' htarget (fun hnone => ?_) ?_
    · rw [hrests.target?] at hnone
      rw [hrests.target, h.lost hnone]
    · rw [hrests.bares]
      exact h.recorded_old fun hends => h.outside hnote hends.2

/-- **Some events** at the start of a document. -/
theorem tracks_of_after {past : List Event} (hpast : past <+: (Scan.read {} source.content).events)
    (hrun : Loader.after source owner past = .ok l) : l.Tracks source owner past := by
  induction past using List.reverseRecOn generalizing l with
  | nil =>
    obtain rfl := Except.ok.inj hrun
    exact tracks_nil source owner
  | append_singleton past e ih =>
    obtain ⟨rest, hevents⟩ := hpast
    rw [after, Except.foldlM_append_singleton] at hrun
    obtain ⟨earlier, hearlier, hadd⟩ := Except.bind_eq_ok_iff.1 hrun
    obtain ⟨opened', htrack⟩ := Scan.exists_trackAll_read hevents.symm
    have hsplit : (Scan.read {} source.content).events = past ++ e :: rest := by simp [← hevents]
    have hordered := Scan.areOrdered_read {} source.content
    have hpast : AreOrdered past := fun front x back heq => hordered front x (back ++ e :: rest) (by simp [hsplit, heq])
    exact (ih ⟨e :: rest, hsplit.symm⟩ hearlier).add hpast (hordered past e rest hsplit) htrack hadd

end Loader
end ExampleSchema
