import ExampleSchema.Proofs.Load.Step
import Mathlib.Data.List.Perm.Basic

/-!
# Where the nodes of a loader begin

The nodes that a loader has read begin at different bytes, and so do the values that are still being read.  Each of
them is a value that the events so far have begun, and each value that an event has marked has its node.  There is
one value at the top of the document.

* `leaves`, `containers`: the values that are open.
* `Loader.Nests`: the open nodes are the containers that are open outside of notes.
* `Loader.Stands`: what holds of a loader after some events; `Loader.Stands.opens`, `Loader.Stands.ends`,
  `Loader.Stands.leaves`, `Loader.Stands.rests`: one event more.
-/

namespace ExampleSchema

open Scan (IsInNote NoteKind)
open Event (track trackAll valueStart? valueStarts Follows AreOrdered)

/-! ## What is open -/

/-- An object or an array is a value with parts, and no note. -/
theorem Construct.of_isContainer {c : Construct} (h : c.isContainer = true) :
    c.isValue = true ∧ c.isLeaf = false ∧ NoteKind.ofConstruct? c = none := by
  cases c <;> first | exact ⟨rfl, rfl, rfl⟩ | cases h

/-- A value without parts is no object, no array and no note. -/
theorem Construct.of_isLeaf {c : Construct} (h : c.isLeaf = true) :
    c.isValue = true ∧ c.isContainer = false ∧ NoteKind.ofConstruct? c = none := by
  cases c <;> first | exact ⟨rfl, rfl, rfl⟩ | cases h

theorem opensNote_opening (c : Construct) : (EventKind.opening c).opensNote = (NoteKind.ofConstruct? c).isSome := by
  cases c <;> rfl

theorem closesNote_closing (c : Construct) : (EventKind.closing c).closesNote = (NoteKind.ofConstruct? c).isSome := by
  cases c <;> rfl

/-- Where the values without parts begin that are open. -/
def leaves (opened : List (Construct × Nat)) : List Nat :=
  opened.filterMap fun o => if o.1.isLeaf then some o.2 else none

/-- What has opened the objects and the arrays that are open, and where. -/
def containers (opened : List (Construct × Nat)) : List (EventKind × Nat) :=
  opened.filterMap fun o => if o.1.isContainer then some (.opening o.1, o.2) else none

section

variable {opened opened' : List (Construct × Nat)} {e : Event} {c : Construct} {start : Nat} {past : List Event}

theorem leaves_cons_of_isLeaf (h : c.isLeaf = true) : leaves ((c, start) :: opened) = start :: leaves opened :=
  List.filterMap_cons_some (if_pos h)

theorem leaves_cons_of_not_isLeaf (h : c.isLeaf = false) : leaves ((c, start) :: opened) = leaves opened :=
  List.filterMap_cons_none (if_neg (by simp [h]))

theorem containers_cons_of_isContainer (h : c.isContainer = true) :
    containers ((c, start) :: opened) = (.opening c, start) :: containers opened :=
  List.filterMap_cons_some (if_pos h)

theorem containers_cons_of_not_isContainer (h : c.isContainer = false) :
    containers ((c, start) :: opened) = containers opened :=
  List.filterMap_cons_none (if_neg (by simp [h]))

/-- What is no note leads into none. -/
theorem not_isInNote_cons (hc : NoteKind.ofConstruct? c = none) (hfree : ¬ IsInNote (opened.map Prod.fst)) :
    ¬ IsInNote (((c, start) :: opened).map Prod.fst) := by
  rintro ⟨x, hx, hnote⟩
  rcases List.mem_cons.1 hx with hx | hx
  · rw [hx, hc] at hnote
    cases hnote
  · exact hfree ⟨x, hx, hnote⟩

theorem track_opening (hkind : e.kind = .opening c) (h : track opened e = some opened') :
    opened' = (c, e.start) :: opened := by
  obtain ⟨kind, start, stop⟩ := e
  obtain rfl := hkind
  exact (Option.some.inj h).symm

theorem track_closing (hkind : e.kind = .closing c) (h : track opened e = some opened') :
    opened = (c, e.start) :: opened' := by
  obtain ⟨kind, start, stop⟩ := e
  obtain rfl := hkind
  cases opened with
  | nil => cases h
  | cons top rest =>
    obtain ⟨construct, first⟩ := top
    change (if construct = c ∧ first = start then some rest else none) = _ at h
    split at h
    · next hfits =>
      obtain rfl := Option.some.inj h
      rw [hfits.1, hfits.2]
    · cases h

/-- An event begins a value without parts, or leaves fewer of them open. -/
theorem leaves_of_track (h : track opened e = some opened') :
    (valueStart? e = some e.start ∧ leaves opened' = e.start :: leaves opened) ∨
      (leaves opened').Sublist (leaves opened) := by
  cases hkind : e.kind with
  | opening c =>
    rw [track_opening hkind h]
    cases hleaf : c.isLeaf with
    | true =>
      refine Or.inl ⟨?_, leaves_cons_of_isLeaf hleaf⟩
      rw [valueStart?, hkind]
      exact if_pos (Construct.of_isLeaf hleaf).1
    | false =>
      rw [leaves_cons_of_not_isLeaf hleaf]
      exact Or.inr (List.Sublist.refl _)
  | closing c =>
    rw [track_closing hkind h]
    exact Or.inr ((List.sublist_cons_self _ _).filterMap _)
  | newLine | endTop =>
    obtain ⟨kind, start, stop⟩ := e
    obtain rfl := hkind
    obtain rfl := Option.some.inj h
    exact Or.inr (List.Sublist.refl _)

theorem not_isInNote_of_sublist {inner outer : List (Construct × Nat)} (h : inner.Sublist outer)
    (hfree : ¬ IsInNote (outer.map Prod.fst)) : ¬ IsInNote (inner.map Prod.fst) := by
  rintro ⟨c, hc, hnote⟩
  exact hfree ⟨c, (h.map Prod.fst).subset hc, hnote⟩

/-- Where neither a container nor a note is open, nothing encloses what comes. -/
theorem encloses_eq_false (hcontainers : containers opened = []) (hfree : ¬ IsInNote (opened.map Prod.fst)) :
    ∀ o ∈ opened, o.1.encloses = false := by
  intro o ho
  have hcontainer : o.1.isContainer = false := by
    have hnone := List.filterMap_eq_nil_iff.1 hcontainers o ho
    by_contra htrue
    rw [if_pos (by simpa using htrue)] at hnone
    cases hnone
  have hnote : ¬ (NoteKind.ofConstruct? o.1).isSome = true := fun hsome =>
    hfree ⟨o.1, List.mem_map_of_mem ho, hsome⟩
  obtain ⟨c, start⟩ := o
  cases c <;> simp_all [Construct.encloses, Construct.isContainer, NoteKind.ofConstruct?]

end

/-! ## Counting -/

/-- Some values, each at a byte of its own, have begun. -/
structure HaveBegun (past : List Event) (starts : List Nat) : Prop where
  nodup : starts.Nodup
  subset : ∀ start ∈ starts, start ∈ valueStarts past

section

variable {past : List Event} {starts starts' : List Nat} {e : Event}

theorem HaveBegun.perm (h : HaveBegun past starts) (hperm : starts'.Perm starts) : HaveBegun past starts' :=
  ⟨hperm.nodup_iff.2 h.nodup, fun start hstart => h.subset start (hperm.subset hstart)⟩

theorem HaveBegun.sublist (h : HaveBegun past starts) (hsub : starts'.Sublist starts) : HaveBegun past starts' :=
  ⟨h.nodup.sublist hsub, fun start hstart => h.subset start (hsub.subset hstart)⟩

theorem HaveBegun.mono (h : HaveBegun past starts) (e : Event) : HaveBegun (past ++ [e]) starts := by
  refine ⟨h.nodup, fun start hstart => ?_⟩
  rw [Event.valueStarts_append_singleton]
  exact List.mem_append_left _ (h.subset start hstart)

/-- A value begins where none has begun. -/
theorem HaveBegun.push (h : HaveBegun past starts) (hfollows : Event.Follows past e) {start : Nat}
    (hvalue : valueStart? e = some start) : HaveBegun (past ++ [e]) (start :: starts) := by
  refine ⟨List.nodup_cons.2 ⟨fun hmem => ?_, h.nodup⟩, fun other hother => ?_⟩
  · exact Nat.lt_irrefl _ (hfollows.later start hvalue start (h.subset start hmem))
  · rw [Event.valueStarts_append_singleton, hvalue]
    rcases List.mem_cons.1 hother with rfl | hother
    · exact List.mem_append_right _ (by simp)
    · exact List.mem_append_left _ (h.subset other hother)

end

/-! ## The loader -/

namespace Loader

/-- The open nodes are the containers that are open outside of notes. -/
def Nests (l : Loader) (opened : List (Construct × Nat)) : Prop :=
  match l.note? with
  | none => ¬ IsInNote (opened.map Prod.fst) ∧ l.openNodes.map OpenNode.opener = containers opened
  | some _ => ∃ inside note outside, opened = inside ++ note :: outside ∧
      (NoteKind.ofConstruct? note.1).isSome = true ∧ ¬ IsInNote (inside.map Prod.fst) ∧
      ¬ IsInNote (outside.map Prod.fst) ∧ l.openNodes.map OpenNode.opener = containers outside

/-- **What holds of a loader after some events** that have led to what is open. -/
structure Stands (past : List Event) (opened : List (Construct × Nat)) (l : Loader) : Prop where
  nests : l.Nests opened
  begun : HaveBegun past (leaves opened ++ l.bares.map Node.start)
  /-- The value at the top of the document is the first. -/
  first : ∀ start, l.root?.map Node.start = some start → ∀ other ∈ valueStarts past, start ≤ other
  /-- Whatever is marked has its node. -/
  marked : ∀ before e after, past = before ++ e :: after → e.kind.marksValue = true → ¬ IsWithinNote before →
    e.start ∈ l.bares.map Node.start

variable {l m : Loader} {past : List Event} {opened opened' : List (Construct × Nat)} {source : Source} {e : Event}
  {c : Construct}

theorem nests_iff_of_none (hnote : l.note? = none) : l.Nests opened ↔
    ¬ IsInNote (opened.map Prod.fst) ∧ l.openNodes.map OpenNode.opener = containers opened := by
  rw [Nests, hnote]

theorem nests_iff_of_some {builder : Note.Builder} (hnote : l.note? = some builder) : l.Nests opened ↔
    ∃ inside note outside, opened = inside ++ note :: outside ∧
      (NoteKind.ofConstruct? note.1).isSome = true ∧ ¬ IsInNote (inside.map Prod.fst) ∧
      ¬ IsInNote (outside.map Prod.fst) ∧ l.openNodes.map OpenNode.opener = containers outside := by
  rw [Nests, hnote]

/-- The value at the top of the document is a node. -/
theorem mem_bares_of_root? {start : Nat} (h : l.root?.map Node.start = some start) :
    start ∈ l.bares.map Node.start := by
  obtain ⟨root, hroot, rfl⟩ := Option.map_eq_some_iff.1 h
  refine List.mem_map.2 ⟨root.bare, ?_, Node.start_bare root⟩
  rw [bares, hroot]
  simp [Node.bares_eq root]

/-- Nothing is open yet. -/
theorem stands_nil (unnamed : Unnamed) : Stands [] [] { unnamed } where
  nests := ⟨by simp [IsInNote], rfl⟩
  begun := ⟨List.nodup_nil, nofun⟩
  first := nofun
  marked before e after h := by simp at h

/-- A value that is open at the top of the document is the first, and the only one. -/
theorem Stands.top_first (h : l.Stands past opened) (hordered : AreOrdered past)
    (htrack : trackAll [] past = some opened) (hnote : l.note? = none) {start : Nat}
    {outside : List (Construct × Nat)} (hopened : opened = (c, start) :: outside) (hc : c.isValue = true)
    (hcontainers : containers outside = []) :
    (∀ other ∈ valueStarts past, start ≤ other) ∧ (l.root?.map Node.start ≠ some start → l.root? = none) := by
  have hfree := ((nests_iff_of_none hnote).1 h.nests).1
  subst hopened
  have houtside : ∀ o ∈ outside, o.1.encloses = false :=
    encloses_eq_false hcontainers (not_isInNote_of_sublist (List.sublist_cons_self _ _) hfree)
  rw [← List.nil_append ((c, start) :: outside)] at htrack
  obtain ⟨hmem, hle⟩ := hordered.le_of_open htrack hc houtside
  refine ⟨hle, fun hother => ?_⟩
  by_contra hsome
  obtain ⟨root, hroot⟩ := Option.ne_none_iff_exists'.1 hsome
  have hstart : l.root?.map Node.start = some root.start := by rw [hroot]; rfl
  have hbegun : root.start ∈ valueStarts past :=
    h.begun.subset _ (List.mem_append_right _ (mem_bares_of_root? hstart))
  exact hother (hstart.trans (congrArg some (Nat.le_antisymm (h.first _ hstart start hmem) (hle _ hbegun))))

/-! ### One event -/

/-- The value at the top remains the first, and no mark is lost. -/
theorem Stands.append_singleton (h : l.Stands past opened) (hfollows : Event.Follows past e)
    (hnests : m.Nests opened') (hbegun : HaveBegun (past ++ [e]) (leaves opened' ++ m.bares.map Node.start))
    (hfirst : ∀ start, m.root?.map Node.start = some start → ∀ other ∈ valueStarts past, start ≤ other)
    (hbares : l.bares.map Node.start ⊆ m.bares.map Node.start)
    (hmarks : e.kind.marksValue = true → ¬ IsWithinNote past → e.start ∈ m.bares.map Node.start) :
    m.Stands (past ++ [e]) opened' where
  nests := hnests
  begun := hbegun
  first start hstart other hother := by
    have hmem := hbegun.subset _ (List.mem_append_right _ (mem_bares_of_root? hstart))
    rw [Event.valueStarts_append_singleton] at hother hmem
    rcases List.mem_append.1 hother with hother | hother
    · exact hfirst start hstart other hother
    · rcases List.mem_append.1 hmem with hmem | hmem
      · exact (hfollows.later other (Option.mem_toList.1 hother) start hmem).le
      · exact (Option.mem_unique (Option.mem_toList.1 hmem) (Option.mem_toList.1 hother)).le
  marked before x after heq hx hout := by
    rcases Event.append_singleton_eq_append_cons heq with ⟨rfl, rfl, -⟩ | ⟨more, rfl, rfl⟩
    · exact hmarks hx hout
    · exact hbares (h.marked before x more rfl hx hout)

/-- An event adds no node. -/
theorem Stands.keeps (h : l.Stands past opened) (hfollows : Event.Follows past e)
    (htrack : track opened e = some opened') (hnests : m.Nests opened')
    (hbares : (m.bares.map Node.start).Perm (l.bares.map Node.start))
    (hfirst : ∀ start, m.root?.map Node.start = some start → ∀ other ∈ valueStarts past, start ≤ other)
    (hmarks : e.kind.marksValue = true → ¬ IsWithinNote past → e.start ∈ l.bares.map Node.start) :
    m.Stands (past ++ [e]) opened' := by
  refine h.append_singleton hfollows hnests ?_ hfirst hbares.symm.subset fun hmark hout =>
    hbares.symm.subset (hmarks hmark hout)
  rcases leaves_of_track htrack with ⟨hvalue, hleaves⟩ | hleaves
  · rw [hleaves]
    exact (h.begun.push hfollows hvalue).perm ((hbares.append_left _).cons _)
  · exact ((h.begun.mono e).perm (hbares.append_left _)).sublist (hleaves.append_right _)

/-- An object or an array is opened. -/
theorem Stands.opens (h : l.Stands past opened) (hfollows : Event.Follows past e)
    (htrack : track opened e = some opened') (hnote : l.note? = none) (hkind : e.kind = .opening c)
    (hc : c.isContainer = true) {plain : Node}
    (hplain : plain.start = e.start) (hbares : m.bares = plain :: l.bares) (hroot : m.root? = l.root?)
    (hopeners : m.openNodes.map OpenNode.opener = (e.kind, e.start) :: l.openNodes.map OpenNode.opener)
    (hnote' : m.note? = none) : m.Stands (past ++ [e]) opened' := by
  obtain rfl := track_opening hkind htrack
  obtain ⟨hvalue, hleaf, hnoNote⟩ := Construct.of_isContainer hc
  obtain ⟨hfree, hnests⟩ := (nests_iff_of_none hnote).1 h.nests
  have hbegins : valueStart? e = some e.start := by
    rw [valueStart?, hkind]
    exact if_pos hvalue
  refine h.append_singleton hfollows ((nests_iff_of_none hnote').2 ⟨not_isInNote_cons hnoNote hfree, ?_⟩) ?_
    (fun start hstart => h.first start (hroot ▸ hstart)) ?_ fun _ _ => ?_
  · rw [hopeners, hnests, hkind, containers_cons_of_isContainer hc]
  · rw [leaves_cons_of_not_isLeaf hleaf, hbares, List.map_cons, hplain]
    exact (h.begun.push hfollows hbegins).perm List.perm_middle
  · rw [hbares]
    exact List.subset_cons_self _ _
  · rw [hbares, List.map_cons, hplain]
    exact List.mem_cons_self

/-- A value without parts ends. -/
theorem Stands.ends (h : l.Stands past opened) (hordered : AreOrdered past) (hpast : trackAll [] past = some opened)
    (hfollows : Event.Follows past e) (htrack : track opened e = some opened') (hnote : l.note? = none)
    (hkind : e.kind = .closing c) (hc : c.isLeaf = true) {plain : Node} (hplain : plain.bares = [plain])
    (hstart : plain.start = e.start) (hplace : l.place plain = .ok m) :
    m.Stands (past ++ [e]) opened' ∧ l.Gains plain m := by
  obtain ⟨hvalue, hcontainer, -⟩ := Construct.of_isLeaf hc
  have hopened := track_closing hkind htrack
  obtain ⟨hfree, hnests⟩ := (nests_iff_of_none hnote).1 h.nests
  rw [hopened, containers_cons_of_not_isContainer hcontainer] at hnests
  have hbegun := h.begun
  rw [hopened, leaves_cons_of_isLeaf hc] at hbegun
  have hnew : e.start ∉ l.bares.map Node.start := fun hmem =>
    (List.nodup_cons.1 hbegun.nodup).1 (List.mem_append_right _ hmem)
  have htop (hopen : l.openNodes = []) :
      (∀ other ∈ valueStarts past, e.start ≤ other) ∧ l.root? = none := by
    obtain ⟨hle, hroot⟩ := h.top_first hordered hpast hnote hopened hvalue (by rw [← hnests, hopen]; rfl)
    exact ⟨hle, hroot fun hsome => hnew (mem_bares_of_root? hsome)⟩
  have hgains := place_gains (fun hopen => (htop hopen).2) hplace
  have hstarts : (m.bares.map Node.start).Perm (e.start :: l.bares.map Node.start) := by
    simpa [hplain, hstart] using hgains.bares.map Node.start
  rw [hopened] at hfree
  have hfree' := not_isInNote_of_sublist (List.sublist_cons_self _ _) hfree
  refine ⟨h.append_singleton hfollows
    ((nests_iff_of_none (hgains.note?.trans hnote)).2 ⟨hfree', hgains.openers.trans hnests⟩)
    ((hbegun.mono e).perm ((hstarts.append_left _).trans List.perm_middle)) (fun start hstart' => ?_)
    (fun start hmem => hstarts.symm.subset (List.mem_cons_of_mem _ hmem))
    fun _ _ => hstarts.symm.subset List.mem_cons_self, hgains⟩
  rcases hgains.root? with ⟨hroot, -⟩ | ⟨hroot, hopen⟩ <;> rw [hroot] at hstart'
  · exact h.first start hstart'
  · obtain rfl : e.start = start := by simpa [hstart] using hstart'
    exact (htop hopen).1

/-- An object or an array ends, the one that was opened last. -/
theorem Stands.leaves (h : l.Stands past opened) (hordered : AreOrdered past)
    (hpast : trackAll [] past = some opened) (hfollows : Event.Follows past e) (htrack : track opened e = some opened')
    (hnote : l.note? = none) (hkind : e.kind = .closing c) (hc : c.isContainer = true)
    (hleave : l.leave ⟨source, e⟩ = .ok m) : m.Stands (past ++ [e]) opened' ∧ ∃ top rest,
      l.openNodes = top :: rest ∧ top.node.basis.kind = .opening c ∧ top.node.start = e.start ∧
        Gains { l with openNodes := rest } (top.node.moved ⟨source, e⟩) m := by
  obtain ⟨hvalue, hleaf, -⟩ := Construct.of_isContainer hc
  have hopened := track_closing hkind htrack
  obtain ⟨hfree, hnests⟩ := (nests_iff_of_none hnote).1 h.nests
  rw [hopened] at hfree
  have hfree' := not_isInNote_of_sublist (List.sublist_cons_self _ _) hfree
  rw [hopened, containers_cons_of_isContainer hc] at hnests
  obtain ⟨top, rest, hopen, hopener, hrest⟩ := List.map_eq_cons_iff.1 hnests
  rw [OpenNode.opener_eq] at hopener
  obtain ⟨htopKind, htop⟩ := Prod.mk.inj hopener
  have hbares : l.bares = top.node.bares ++ Loader.bares { l with openNodes := rest } := by
    simp [bares, hopen, List.append_assoc]
  have hmem : e.start ∈ top.node.bares.map Node.start := by
    rw [Node.bares_eq, List.map_cons, Node.start_bare, htop]
    exact List.mem_cons_self
  have hnew : e.start ∉ (Loader.bares { l with openNodes := rest }).map Node.start := by
    have hnodup := (List.nodup_append.1 h.begun.nodup).2.1
    rw [hbares, List.map_append] at hnodup
    exact fun hother => (List.nodup_append.1 hnodup).2.2 _ hmem _ hother rfl
  have hfirst (hlast : rest = []) : (∀ other ∈ valueStarts past, e.start ≤ other) ∧ l.root? = none := by
    obtain ⟨hle, hroot⟩ := h.top_first hordered hpast hnote hopened hvalue (by rw [← hrest, hlast]; rfl)
    exact ⟨hle, hroot fun hsome => hnew (mem_bares_of_root? (l := { l with openNodes := rest }) hsome)⟩
  have hgains := leave_gains hopen (fun hlast => (hfirst hlast).2) hleave
  have hmoved : (top.node.moved ⟨source, e⟩).bares.map Node.start = top.node.bares.map Node.start := by
    rw [Node.bares_eq, Node.bares_eq top.node, Node.children_moved, List.map_cons, List.map_cons, Node.start_bare,
      Node.start_bare, htop, Node.start, Node.basis_moved]
    rfl
  have hstarts : (m.bares.map Node.start).Perm (l.bares.map Node.start) := by
    rw [hbares, List.map_append, ← hmoved, ← List.map_append]
    exact hgains.bares.map Node.start
  have hleft : m.openNodes.map OpenNode.opener = containers opened' := hgains.openers.trans hrest
  refine ⟨h.keeps hfollows htrack ((nests_iff_of_none (hgains.note?.trans hnote)).2 ⟨hfree', hleft⟩) hstarts
    (fun start hstart => ?_) fun _ _ => ?_, top, rest, hopen, htopKind, htop, hgains⟩
  · rcases hgains.root? with ⟨hroot, -⟩ | ⟨hroot, hlast⟩ <;> rw [hroot] at hstart
    · exact h.first start hstart
    · obtain rfl : e.start = start := by simpa [Node.start, Mark.start] using hstart
      exact (hfirst hlast).1
  · rw [hbares, List.map_append]
    exact List.mem_append_left _ hmem

/-- A note begins in what is open so far. -/
theorem Stands.beginsNote (h : l.Stands past opened) (hfollows : Event.Follows past e)
    (htrack : track opened e = some opened') (hnote : l.note? = none) (hopens : e.kind.opensNote = true)
    (builder : Note.Builder) : Stands (past ++ [e]) opened' { l with note? := some builder } := by
  obtain ⟨hfree, hnests⟩ := (nests_iff_of_none hnote).1 h.nests
  cases hkind : e.kind with
  | opening c =>
    rw [hkind, opensNote_opening] at hopens
    refine h.keeps hfollows htrack ?_ (.refl _) h.first fun hmarks => ?_
    · exact (nests_iff_of_some rfl).2
        ⟨[], (c, e.start), opened, track_opening hkind htrack, hopens, by simp [IsInNote], hfree, hnests⟩
    · rw [hkind] at hmarks
      rw [(Construct.of_isContainer hmarks).2.2] at hopens
      cases hopens
  | closing | newLine | endTop =>
    rw [hkind] at hopens
    cases hopens

/-- A note goes on. -/
theorem Stands.readsNote (h : l.Stands past opened) (hpast : trackAll [] past = some opened)
    (hfollows : Event.Follows past e) (htrack : track opened e = some opened') {builder : Note.Builder}
    (hnote : l.note? = some builder) (hwithin : IsWithinNote past) (hstays : e.kind.closesNote = false)
    (next : Note.Builder) : Stands (past ++ [e]) opened' { l with note? := some next } := by
  obtain ⟨inside, note, outside, rfl, hisNote, hinside, houtside, hnests⟩ := (nests_iff_of_some hnote).1 h.nests
  refine h.keeps hfollows htrack ((nests_iff_of_some rfl).2 ?_) (.refl _) h.first fun _ hout => (hout hwithin).elim
  cases hkind : e.kind with
  | opening c =>
    have hc : NoteKind.ofConstruct? c = none := by
      by_contra hsome
      refine hfollows.outside (Or.inr ?_) _ hpast ⟨note.1, by simp, hisNote⟩
      rw [hkind, opensNote_opening]
      exact Option.isSome_iff_ne_none.2 hsome
    exact ⟨(c, e.start) :: inside, note, outside, track_opening hkind htrack, hisNote, not_isInNote_cons hc hinside,
      houtside, hnests⟩
  | closing c =>
    have hopened := track_closing hkind htrack
    cases inside with
    | nil =>
      obtain ⟨rfl, -⟩ := List.cons.inj hopened
      rw [hkind, closesNote_closing, hisNote] at hstays
      cases hstays
    | cons top inside =>
      obtain ⟨-, rfl⟩ := List.cons.inj hopened
      exact ⟨inside, note, outside, rfl, hisNote, not_isInNote_of_sublist (List.sublist_cons_self _ _) hinside,
        houtside, hnests⟩
  | newLine | endTop =>
    obtain ⟨kind, start, stop⟩ := e
    obtain rfl := hkind
    obtain rfl := Option.some.inj htrack
    exact ⟨inside, note, outside, rfl, hisNote, hinside, houtside, hnests⟩

/-- A note ends, and changes no more than what the nodes are. -/
theorem Stands.endsNote (h : l.Stands past opened) (hfollows : Event.Follows past e)
    (htrack : track opened e = some opened') {builder : Note.Builder} (hnote : l.note? = some builder)
    (hwithin : IsWithinNote past) (hcloses : e.kind.closesNote = true) (hnote' : m.note? = none)
    (hopeners : m.openNodes.map OpenNode.opener = l.openNodes.map OpenNode.opener)
    (hbares : m.bares.map Node.start = l.bares.map Node.start)
    (hroot : m.root?.map Node.start = l.root?.map Node.start) : m.Stands (past ++ [e]) opened' := by
  obtain ⟨inside, note, outside, rfl, hisNote, hinside, houtside, hnests⟩ := (nests_iff_of_some hnote).1 h.nests
  refine h.keeps hfollows htrack ((nests_iff_of_none hnote').2 ?_) (.of_eq hbares)
    (fun start hstart => h.first start (hroot ▸ hstart)) fun _ hout => (hout hwithin).elim
  rw [hopeners]
  cases hkind : e.kind with
  | closing c =>
    have hopened := track_closing hkind htrack
    cases inside with
    | nil =>
      obtain ⟨-, rfl⟩ := List.cons.inj hopened
      exact ⟨houtside, hnests⟩
    | cons top inside =>
      obtain ⟨rfl, -⟩ := List.cons.inj hopened
      rw [hkind, closesNote_closing] at hcloses
      exact (hinside ⟨c, by simp, hcloses⟩).elim
  | opening | newLine | endTop =>
    rw [hkind] at hcloses
    cases hcloses

/-- Nothing happens to the nodes. -/
theorem Stands.rests (h : l.Stands past opened) (hfollows : Event.Follows past e)
    (htrack : track opened e = some opened') (hnote : l.note? = none) (hmarks : e.kind.marksValue = false)
    (hopens : e.kind.opensNote = false) (hnote' : m.note? = none)
    (hopeners : m.openNodes.map OpenNode.opener = l.openNodes.map OpenNode.opener) (hbares : m.bares = l.bares)
    (hroot : m.root? = l.root?) : m.Stands (past ++ [e]) opened' := by
  obtain ⟨hfree, hnests⟩ := (nests_iff_of_none hnote).1 h.nests
  refine h.keeps hfollows htrack ((nests_iff_of_none hnote').2 ?_) (.of_eq (by rw [hbares]))
    (fun start hstart => h.first start (hroot ▸ hstart)) fun hmark => by simp [hmarks] at hmark
  rw [hopeners, hnests]
  cases hkind : e.kind with
  | opening c =>
    rw [hkind] at hmarks hopens
    rw [opensNote_opening, Option.isSome_eq_false_iff, Option.isNone_iff_eq_none] at hopens
    rw [track_opening hkind htrack, containers_cons_of_not_isContainer hmarks]
    exact ⟨not_isInNote_cons hopens hfree, rfl⟩
  | closing c =>
    have hc : c.isContainer = false := by
      by_contra hcontainer
      rw [hkind] at hmarks
      rw [Bool.not_eq_false] at hcontainer
      exact Bool.false_ne_true (hmarks.symm.trans (Construct.of_isContainer hcontainer).1)
    have hopened := track_closing hkind htrack
    rw [hopened] at hfree
    rw [hopened, containers_cons_of_not_isContainer hc]
    exact ⟨not_isInNote_of_sublist (List.sublist_cons_self _ _) hfree, rfl⟩
  | newLine | endTop =>
    obtain ⟨kind, start, stop⟩ := e
    obtain rfl := hkind
    obtain rfl := Option.some.inj htrack
    exact ⟨hfree, rfl⟩

end Loader
end ExampleSchema
