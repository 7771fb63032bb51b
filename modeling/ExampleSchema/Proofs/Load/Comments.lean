import ExampleSchema.Proofs.Load.EnumNotes
import ExampleSchema.Proofs.Load.Parts
import ExampleSchema.Proofs.Load.Recording

/-!
# The comments of enum rules

An enum rule is an array of literals, and a note behind a literal comments it.  The same document loaded as a schema
has the literals as the items of an array, each with the comment of the note that is about it.  The two agree on
every item, but where a note stands behind the array on the line of its last item: the note is about the array then,
and the enum rule takes it for a comment of the item.

* `WrittenNote.IsShared`: a note is about the array and stands behind a literal.
* `EnumReader.Tracks`: what holds of an enum rule and of the schema of its document after some events;
  `EnumReader.Tracks.event`, `EnumReader.Tracks.note`: one event, and one note.
* `Enumeration.comments_of_load`: the comments of an enum rule.
* `Enumeration.comments_ne`: they need not be those of the items of the array.
-/

namespace ExampleSchema

open Event (trackAll)

namespace WrittenNote

variable {source : Source}

/-- The note stands behind the literal that begins at `start`, on its line. -/
def FollowsLiteral (n : WrittenNote source) (start : Nat) : Prop :=
  IsMarkedLast (fun kind => kind == .closing .literal) n.past start

/-- The note has a text and is about the array, but stands behind a literal on its line. -/
structure IsShared (n : WrittenNote source) (array literal : Nat) : Prop where
  text : n.note.text?.isSome = true
  describes : n.Describes array
  follows : n.FollowsLiteral literal

end WrittenNote

namespace EnumReader

variable {source : Source} {owner : String} {past : List Event} {e : Event} {r r' : EnumReader} {l m : Loader}
  {header : Header} {nodes : List Node}

/-- An item of an enum rule and the item of the array after some events: the comment of the array counts where
the note about it stands behind the item. -/
structure ItemAgrees (source : Source) (past : List Event) (header : Header) (node : Node)
    (item : Mark × Option String) : Prop where
  basis : node.basis = item.1
  own : (∀ n : WrittenNote source, n.through <+: past → ¬ n.IsShared header.basis.start node.start) →
    item.2 = node.header.comment?
  shared : ∀ n : WrittenNote source, n.through <+: past → n.IsShared header.basis.start node.start →
    item.2 = n.note.text? ∧ header.comment? = n.note.text?

/-- Where the array of an enum rule is, and its items. -/
inductive Keeps (source : Source) (past : List Event) (r : EnumReader) (l : Loader) : Prop where
  | before : r.items = [] → r.isInArray = false → r.isCommentable = false → l.openNodes = [] → l.root? = none →
      Keeps source past r l
  | inside {header : Header} {nodes : List Node} : r.isInArray = true → l.openNodes = [⟨header, .array nodes⟩] →
      l.root? = none → (r.isCommentable = true ↔ l.target = .lastChild) →
      List.Forall₂ (ItemAgrees source past header) nodes r.items →
      (∀ n : WrittenNote source, n.through <+: past → ∀ start, ¬ n.IsShared header.basis.start start) →
      Keeps source past r l
  | behind {header : Header} {nodes : List Node} : r.isInArray = false → l.openNodes = [] →
      l.root? = some (.array header nodes.reverse) → (r.isCommentable = true → l.target = .root) →
      List.Forall₂ (ItemAgrees source past header) nodes r.items → Keeps source past r l

/-- **What holds of an enum rule and of the schema of its document after some events.** -/
structure Tracks (source : Source) (owner : String) (past : List Event) (r : EnumReader) (l : Loader) : Prop where
  loader : l.Tracks source owner past
  outside : r.isInNote = false ∧ l.note? = none
  marked : ∀ start, IsMarkedLast (fun kind => kind == .closing .literal) past start ↔
    r.isCommentable = true ∧ r.items.head?.map (fun item => item.1.start) = some start
  keeps : Keeps source past r l

/-- Where no note ends, the items agree as before. -/
theorem ItemAgrees.of_prefix {past' : List Event} {node : Node} {item : Mark × Option String}
    (h : ItemAgrees source past header node item)
    (hold : ∀ n : WrittenNote source, n.through <+: past → n.through <+: past')
    (hnew : ∀ n : WrittenNote source, n.through <+: past' → n.through <+: past ∨
      ¬ n.IsShared header.basis.start node.start) : ItemAgrees source past' header node item where
  basis := h.basis
  own hnone := h.own fun n hn => hnone n (hold n hn)
  shared n hn hshared := h.shared n ((hnew n hn).resolve_right fun hnot => hnot hshared) hshared

/-- An event outside of notes ends none. -/
theorem through_prefix_of_outside (hout : ¬ IsWithinNote past) {n : WrittenNote source}
    (hn : n.through <+: past ++ [e]) : n.through <+: past :=
  (WrittenNote.through_prefix_append_singleton_iff.1 hn).resolve_left fun heq =>
    hout (WrittenNote.closes_of_through_eq heq).2

/-- An event outside of notes leaves the items that were there, though the array may end. -/
theorem forall₂_event (hout : ¬ IsWithinNote past) {items : List (Mark × Option String)} {header' : Header}
    (hstart : header'.basis.start = header.basis.start) (hcomment : header'.comment? = header.comment?)
    (h : List.Forall₂ (ItemAgrees source past header) nodes items) :
    List.Forall₂ (ItemAgrees source (past ++ [e]) header') nodes items := by
  refine h.imp fun node item hitem => ⟨hitem.basis, fun hnone => hitem.own fun n hn => ?_, fun n hn hshared => ?_⟩
  · rw [← hstart]
    exact hnone n (hn.trans (List.prefix_append _ _))
  · rw [hcomment]
    rw [hstart] at hshared
    exact hitem.shared n (through_prefix_of_outside hout hn) hshared

/-- An event outside of notes that is not the end of a line changes what is marked only by ending a literal. -/
theorem Tracks.marked_event (h : Tracks source owner past r l) (hline : e.kind ≠ .newLine)
    (hliteral : e.kind ≠ .closing .literal) (start : Nat) :
    IsMarkedLast (fun kind => kind == .closing .literal) (past ++ [e]) start ↔
      r.isCommentable = true ∧ r.items.head?.map (fun item => item.1.start) = some start := by
  rw [isMarkedLast_of_other hline fun hmarks => (hliteral (beq_iff_eq.1 hmarks)).elim]
  exact h.marked start

/-- There is one array in an enum rule. -/
theorem Tracks.root?_eq_none (h : Tracks source owner past r l) (hfollows : Event.Follows past e)
    (hopen : l.openNodes = []) (hkind : e.kind = .opening .array) : l.root? = none := by
  obtain ⟨opened, htrack, hstands⟩ := h.loader.stands
  obtain ⟨hfree, hnests⟩ := (Loader.nests_iff_of_none h.outside.2).1 hstands.nests
  have hcontainers : containers opened = [] := by rw [← hnests, hopen]; rfl
  have hbegins : e.valueStart? = some e.start := by rw [Event.valueStart?, hkind]; rfl
  have hnone := hfollows.first e.start hbegins opened htrack (encloses_eq_false hcontainers hfree)
  by_contra hsome
  obtain ⟨root, hroot⟩ := Option.ne_none_iff_exists'.1 hsome
  have hstart : l.root?.map Node.start = some root.start := by rw [hroot]; rfl
  have hmem := hstands.begun.subset _ (List.mem_append_right _ (Loader.mem_bares_of_root? hstart))
  rw [hnone] at hmem
  cases hmem

/-- An event outside of notes that leaves the items and the nodes.  At the end of a line, nothing is left to
comment. -/
theorem Keeps.rests (h : Keeps source past r l) (hout : ¬ IsWithinNote past) (hitems : r'.items = r.items)
    (hinArray : r'.isInArray = r.isInArray) (hopen : m.openNodes = l.openNodes) (hroot : m.root? = l.root?)
    (htarget : r'.isCommentable = r.isCommentable ∧ m.target = l.target ∨
      r'.isCommentable = false ∧ m.target = .nothing) : Keeps source (past ++ [e]) r' m := by
  cases h with
  | before hnone hbefore hcommentable hclosed hempty =>
    have hno : r'.isCommentable = false := htarget.elim (fun hsame => hsame.1.trans hcommentable) And.left
    exact .before (hitems.trans hnone) (hinArray.trans hbefore) hno (hopen.trans hclosed) (hroot.trans hempty)
  | inside hinside htop hempty hcommentable hagree hunshared =>
    have hsame : r'.isCommentable = true ↔ m.target = .lastChild := by
      rcases htarget with ⟨hsame, htarget⟩ | ⟨hno, hnothing⟩
      · rw [hsame, htarget, hcommentable]
      · simp [hno, hnothing]
    exact .inside (hinArray.trans hinside) (hopen.trans htop) (hroot.trans hempty) hsame
      (hitems ▸ forall₂_event hout rfl rfl hagree) fun n hn => hunshared n (through_prefix_of_outside hout hn)
  | behind hbehind hclosed harray hcommentable hagree =>
    refine .behind (hinArray.trans hbehind) (hopen.trans hclosed) (hroot.trans harray) (fun hyes => ?_)
      (hitems ▸ forall₂_event hout rfl rfl hagree)
    rcases htarget with ⟨hsame, htarget⟩ | ⟨hno, -⟩
    · exact htarget.trans (hcommentable (hsame.symm.trans hyes))
    · exact (Bool.false_ne_true (hno.symm.trans hyes)).elim

/-- The array is opened. -/
theorem Tracks.keeps_enter (h : Tracks source owner past r l) (hout : ¬ IsWithinNote past)
    (hfollows : Event.Follows past e) (hkind : e.kind = .opening .array) (harray : r.isInArray = false) :
    Keeps source (past ++ [e]) { r with isInArray := true } (l.enter ⟨source, e⟩ .array (.array [])) := by
  cases h.keeps with
  | before hitems _ hcommentable hopen hroot =>
    have hbares : l.bares = [] := by simp [Loader.bares, hopen, hroot]
    have hentered : (l.enter ⟨source, e⟩ .array (.array [])).openNodes =
        [⟨{ jsonType := .array, basis := ⟨source, e⟩ }, .array []⟩] := by
      rw [Loader.enter, hopen]
    refine .inside rfl hentered hroot (by simp [hcommentable, Loader.enter])
      (by rw [hitems]; exact .nil) fun n hn other hshared => ?_
    exact h.loader.not_describes (by simp [hbares]) (through_prefix_of_outside hout hn) hshared.describes
  | inside hinside => simp [hinside] at harray
  | behind _ hopen hroot => simp [h.root?_eq_none hfollows hopen hkind] at hroot

/-- The array is closed. -/
theorem Tracks.keeps_leave (h : Tracks source owner past r l) (hm : m.Tracks source owner (past ++ [e]))
    (hordered : Event.AreOrdered past) (hout : ¬ IsWithinNote past) (hfollows : Event.Follows past e)
    (hkind : e.kind = .closing .array) (harray : r.isInArray = true) (hleave : l.leave ⟨source, e⟩ = .ok m) :
    Keeps source (past ++ [e]) { r with isInArray := false } m := by
  cases h.keeps with
  | before _ hbefore => simp [hbefore] at harray
  | behind hbehind => simp [hbehind] at harray
  | @inside header nodes _ hopen _ _ hitems _ =>
    obtain ⟨opened, hpast, hstands⟩ := h.loader.stands
    obtain ⟨opened', htrack, -⟩ := hm.stands
    obtain ⟨-, top, rest, hopen', -, hstart, -⟩ := hstands.leaves hordered hpast hfollows
      ((Event.trackAll_append_singleton hpast _).symm.trans htrack) h.outside.2 hkind rfl hleave
    obtain ⟨rfl, -⟩ := List.cons.inj (hopen.symm.trans hopen')
    rw [Loader.leave, hopen] at hleave
    obtain rfl := Except.ok.inj hleave
    exact .behind rfl rfl rfl (fun _ => rfl) (forall₂_event hout hstart.symm rfl hitems)

/-- A literal of the array ends. -/
theorem Tracks.keeps_literal (h : Tracks source owner past r l) (hout : ¬ IsWithinNote past)
    (harray : r.isInArray = true) (hplace : l.place (Loader.sampleNode ⟨source, e⟩) = .ok m) :
    Keeps source (past ++ [e]) { r with items := (⟨source, e⟩, none) :: r.items, isCommentable := true } m := by
  cases h.keeps with
  | before _ hbefore => simp [hbefore] at harray
  | behind hbehind => simp [hbehind] at harray
  | @inside header nodes _ hopen hroot _ hitems hunshared =>
    rw [Loader.place, hopen] at hplace
    obtain rfl := Except.ok.inj hplace
    refine .inside harray rfl hroot (by simp) (.cons ?_ (forall₂_event hout rfl rfl hitems))
      fun n hn => hunshared n (through_prefix_of_outside hout hn)
    exact ⟨rfl, fun _ => rfl, fun n hn hshared =>
      (hunshared n (through_prefix_of_outside hout hn) _ hshared).elim⟩

/-- **An event outside of notes.** -/
theorem Tracks.event (h : Tracks source owner past r l) (hm : m.Tracks source owner (past ++ [e]))
    (hordered : Event.AreOrdered past) (hout : ¬ IsWithinNote past) (hopens : e.kind.opensNote = false)
    (hfollows : Event.Follows past e) (hr : r.add ⟨source, e⟩ = .ok r') (hl : l.add ⟨source, e⟩ = .ok m) :
    Tracks source owner (past ++ [e]) r' m := by
  obtain ⟨hoffReader, hoffLoader⟩ := h.outside
  rw [EnumReader.add, hoffReader, if_neg Bool.false_ne_true] at hr
  rw [Loader.add, hoffLoader] at hl
  replace hl : l.addEvent ⟨source, e⟩ = .ok m := hl
  obtain ⟨kind, start, stop⟩ := e
  have hoff : m.note? = none := by
    refine ((Loader.keepsNote_addEvent l ?_ ?_).of_ok hl).trans hoffLoader <;> rintro rfl <;> cases hopens
  unfold addEvent at hr
  split at hr
  case h_1 hkind harray =>
    obtain rfl : kind = .opening .array := hkind
    obtain rfl := Except.ok.inj hr
    obtain rfl := Except.ok.inj hl
    exact ⟨hm, ⟨hoffReader, hoff⟩, h.marked_event (by simp) (by simp), h.keeps_enter hout hfollows rfl harray⟩
  case h_2 hkind harray =>
    obtain rfl : kind = .closing .array := hkind
    obtain rfl := Except.ok.inj hr
    exact ⟨hm, ⟨hoffReader, hoff⟩, h.marked_event (by simp) (by simp),
      h.keeps_leave hm hordered hout hfollows rfl harray hl⟩
  case h_3 hkind harray =>
    obtain rfl : kind = .closing .literal := hkind
    obtain rfl := Except.ok.inj hr
    refine ⟨hm, ⟨hoffReader, hoff⟩, fun other => ?_, h.keeps_literal hout harray hl⟩
    rw [isMarkedLast_of_marks rfl hout]
    simp [Mark.start]
  case h_4 hkind | h_5 hkind =>
    replace hkind : kind = _ := hkind
    rw [hkind] at hopens
    cases hopens
  case h_6 hkind =>
    obtain rfl : kind = .newLine := hkind
    obtain rfl := Except.ok.inj hr
    obtain rfl := Except.ok.inj hl
    refine ⟨hm, ⟨hoffReader, hoff⟩, fun other => ?_, h.keeps.rests hout rfl rfl rfl rfl (.inr ⟨rfl, rfl⟩)⟩
    exact iff_of_false (not_isMarkedLast_newLine rfl rfl) (by simp)
  case h_7 hkind | h_8 hkind | h_9 hkind | h_10 hkind =>
    have hkept : m = l ∧ kind ≠ .newLine ∧ kind ≠ .closing .literal := by
      subst hkind
      exact ⟨(Except.ok.inj hl).symm, by simp, by simp⟩
    obtain ⟨rfl, hline, hliteral⟩ := hkept
    obtain rfl := Except.ok.inj hr
    exact ⟨hm, ⟨hoffReader, hoff⟩, h.marked_event hline hliteral,
      h.keeps.rests hout rfl rfl rfl rfl (.inl ⟨rfl, rfl⟩)⟩
  case h_11 => cases hr

/-! ### One note -/

/-- The items of an array begin at different bytes, and none where the array begins. -/
theorem nodup_starts (h : ((Node.array header nodes.reverse).bares.map Node.start).Nodup) :
    (header.basis.start :: nodes.map Node.start).Nodup := by
  have hsub (nodes : List Node) : (nodes.map Node.start).Sublist ((nodes.flatMap Node.bares).map Node.start) := by
    induction nodes with
    | nil => exact .slnil
    | cons node rest ih =>
      rw [List.flatMap_cons, List.map_append, Node.bares_eq, List.map_cons, List.map_cons, Node.start_bare]
      exact (ih.trans (List.sublist_append_right _ _)).cons_cons _
  rw [Node.bares_eq, List.map_cons, Node.start_bare] at h
  have hnodup := h.sublist ((hsub nodes.reverse).cons_cons _)
  rw [List.map_reverse, List.nodup_cons, List.mem_reverse, List.nodup_reverse] at hnodup
  exact List.nodup_cons.2 hnodup

/-- As long as no note is shared, the items and those of the array have their own comments. -/
theorem forall₂_unshared {past' : List Event} {items : List (Mark × Option String)} {header' : Header}
    (h : List.Forall₂ (ItemAgrees source past header) nodes items)
    (hunshared : ∀ n : WrittenNote source, n.through <+: past → ∀ start, ¬ n.IsShared header.basis.start start)
    (hnew : ∀ n : WrittenNote source, n.through <+: past' → ∀ node ∈ nodes,
      ¬ n.IsShared header'.basis.start node.start) :
    List.Forall₂ (ItemAgrees source past' header') nodes items := by
  induction h with
  | nil => exact .nil
  | @cons node item nodes items hitem _ ih =>
    refine .cons ⟨hitem.basis, fun _ => hitem.own fun n hn => hunshared n hn _, fun n hn hshared => ?_⟩
      (ih fun n hn other hother => hnew n hn other (List.mem_cons_of_mem _ hother))
    exact (hnew n hn node List.mem_cons_self hshared).elim

/-- The array is described by a note once a note is shared. -/
theorem isAnnotated_of_isShared (h : l.Tracks source owner past) (hroot : l.root? = some (.array header nodes))
    {n : WrittenNote source} (hn : n.through <+: past) {start : Nat} (hshared : n.IsShared header.basis.start start) :
    header.isAnnotated = true := by
  have hmem : (Node.array header nodes).bare ∈ l.bares := by
    simp [Loader.bares, hroot, Node.bares_eq (Node.array header nodes)]
  have hspeaks : ¬ n.IsEmpty := fun hempty => by
    have htext := hshared.text
    rw [hempty.2] at htext
    cases htext
  have hrecorded := (h.recorded _ hmem).isAnnotated hn hspeaks
  rw [Node.start_bare, Node.header_bare] at hrecorded
  exact hrecorded hshared.describes

/-- A note comments no literal but the last one. -/
theorem Tracks.isShared (h : Tracks source owner past r l) {n : WrittenNote source} (hpast : n.past = past)
    {array start : Nat} (hshared : n.IsShared array start) : l.target?.map Node.start = some array ∧
      r.isCommentable = true ∧ r.items.head?.map (fun item => item.1.start) = some start := by
  subst hpast
  exact ⟨(h.loader.target _).1 hshared.describes, (h.marked _).1 hshared.follows⟩

/-- A note that nothing shares leaves the items that it does not comment. -/
theorem forall₂_note {n : WrittenNote source} {header' : Header} {items : List (Mark × Option String)}
    (h : List.Forall₂ (ItemAgrees source n.past header) nodes items)
    (hunshared : ∀ n' : WrittenNote source, n'.through <+: n.past → ∀ start, ¬ n'.IsShared header.basis.start start)
    (hstart : header'.basis.start = header.basis.start)
    (hnot : ∀ node ∈ nodes, ¬ n.IsShared header.basis.start node.start) :
    List.Forall₂ (ItemAgrees source n.through header') nodes items := by
  refine forall₂_unshared h hunshared fun n' hn node hnode => ?_
  rw [hstart]
  rcases WrittenNote.through_prefix_through hn with rfl | hn
  · exact hnot node hnode
  · exact hunshared n' hn node.start

/-- A note with a text and no rules gives the array its comment. -/
theorem header_of_annotate {note : Mark} {text? : Option String} {header' : Header}
    (h : (header.annotate note text? >>= fun header => header.apply none []) = .ok header') :
    header.isAnnotated = false ∧ header'.basis = header.basis ∧ header'.comment? = text? := by
  have hnode := OpenNode.annotate_node ⟨header, .array []⟩ note text? []
  rw [h] at hnode
  obtain ⟨hfree, -, hcomment, hbasis⟩ := Node.header_of_annotate_eq_ok hnode
  exact ⟨hfree, hbasis, hcomment⟩

/-- A note within the array is about the array, or stands behind a literal, but not both. -/
theorem Tracks.not_isShared_inside {n : WrittenNote source} (h : Tracks source owner n.past r l)
    (hopen : l.openNodes = [⟨header, .array nodes⟩]) (hroot : l.root? = none)
    (hcommentable : r.isCommentable = true ↔ l.target = .lastChild) (start : Nat) :
    ¬ n.IsShared header.basis.start start := by
  intro hshared
  obtain ⟨opened, -, hstands⟩ := h.loader.stands
  have hnodup : (header.basis.start :: nodes.map Node.start).Nodup := by
    have hbares := (List.nodup_append.1 hstands.begun.nodup).2.1
    exact nodup_starts (by simpa [Loader.bares, hopen, hroot, OpenNode.node] using hbares)
  obtain ⟨htarget, hbehind, -⟩ := h.isShared rfl hshared
  rw [Loader.target?, hcommentable.1 hbehind, hopen] at htarget
  obtain ⟨node, hnode, hstart⟩ := Option.map_eq_some_iff.1 htarget
  have hmem : node ∈ nodes := by simpa [OpenNode.node, Node.children] using List.mem_of_getLast? hnode
  exact (List.nodup_cons.1 hnodup).1 (hstart ▸ List.mem_map_of_mem hmem)

/-- A note within the array of an enum rule. -/
theorem Tracks.keeps_note_inside {n : WrittenNote source} (h : Tracks source owner n.past r l) {text : String}
    (htext : n.note.text? = some text) (happly : l.describe n.note [] = .ok m) (hinside : r.isInArray = true)
    (hopen : l.openNodes = [⟨header, .array nodes⟩]) (hroot : l.root? = none)
    (hcommentable : r.isCommentable = true ↔ l.target = .lastChild)
    (hitems : List.Forall₂ (ItemAgrees source n.past header) nodes r.items)
    (hunshared : ∀ n' : WrittenNote source, n'.through <+: n.past → ∀ start, ¬ n'.IsShared header.basis.start start) :
    Keeps source n.through (r.commented n.note.text?) m := by
  have hnot := h.not_isShared_inside hopen hroot hcommentable
  have hnext (n' : WrittenNote source) (hn : n'.through <+: n.through) (start : Nat) :
      ¬ n'.IsShared header.basis.start start := by
    rcases WrittenNote.through_prefix_through hn with rfl | hn
    · exact hnot start
    · exact hunshared n' hn start
  cases htarget : l.target with
  | nothing =>
    rw [Loader.describe, htarget] at happly
    obtain rfl := Except.ok.inj happly
    have hno : r.isCommentable = false := by simpa [htarget] using hcommentable
    rw [commented_of_not hno]
    exact .inside hinside hopen hroot hcommentable
      (forall₂_note hitems hunshared rfl fun node _ => hnot node.start) hnext
  | root =>
    rw [Loader.describe, htarget, hroot, hopen] at happly
    cases happly
  | top =>
    rw [Loader.describe, htarget, hopen] at happly
    obtain ⟨noted, hnoted, happly⟩ := Except.bind_eq_ok_iff.1 happly
    obtain ⟨header', hheader, happly⟩ := Except.bind_eq_ok_iff.1 happly
    obtain rfl := Except.ok.inj happly
    obtain ⟨-, hbasis, -⟩ := header_of_annotate (Except.bind_eq_ok_iff.2 ⟨noted, hnoted, hheader⟩)
    have hstart : header'.basis.start = header.basis.start := by rw [hbasis]
    have hno : r.isCommentable = false := by simpa [htarget] using hcommentable
    rw [commented_of_not hno]
    exact .inside hinside rfl hroot (by simp [hno])
      (forall₂_note hitems hunshared hstart fun node _ => hnot node.start) (by rwa [hstart])
  | lastChild =>
    rw [Loader.describe, htarget, hopen] at happly
    have hbehind : r.isCommentable = true := hcommentable.2 htarget
    obtain ⟨items, isInArray, isInNote, isCommentable⟩ := r
    obtain rfl : isCommentable = true := hbehind
    cases hitems with
    | nil => cases happly
    | @cons node item nodes items hitem hrest =>
      obtain ⟨changed, hchanged, happly⟩ := Except.bind_eq_ok_iff.1 happly
      obtain ⟨node', hnode', rfl⟩ := Except.map_eq_ok_iff.1 hchanged
      obtain rfl := Except.ok.inj happly
      obtain ⟨-, -, hcomment, hbasis⟩ := Node.header_of_annotate_eq_ok hnode'
      obtain ⟨mark, comment?⟩ := item
      rw [htext] at hcomment ⊢
      refine .inside hinside rfl hroot ⟨fun _ => rfl, fun _ => rfl⟩ (.cons ⟨hbasis.trans hitem.basis,
        fun _ => hcomment.symm, fun n' hn hshared => (hnext n' hn _ hshared).elim⟩ ?_) hnext
      exact forall₂_note hrest hunshared rfl fun other _ => hnot other.start

/-- The first note that is shared comments the last item and the array. -/
theorem Tracks.forall₂_shared {n : WrittenNote source} (h : Tracks source owner n.past r l) {header' : Header}
    (htext : n.note.text?.isSome = true) (hyes : r.isCommentable = true)
    (htarget : l.target?.map Node.start = some header.basis.start) (hstart : header'.basis.start = header.basis.start)
    (hcomment : header'.comment? = n.note.text?) (hnodup : (nodes.map Node.start).Nodup)
    (hitems : List.Forall₂ (ItemAgrees source n.past header) nodes r.items)
    (hunshared : ∀ n' : WrittenNote source, n'.through <+: n.past → ∀ start, ¬ n'.IsShared header.basis.start start) :
    List.Forall₂ (ItemAgrees source n.through header') nodes (r.commented n.note.text?).items := by
  obtain ⟨items, isInArray, isInNote, isCommentable⟩ := r
  obtain rfl : isCommentable = true := hyes
  cases hitems with
  | nil => cases n.note.text? <;> exact .nil
  | @cons node item nodes items hitem hrest =>
    obtain ⟨mark, comment?⟩ := item
    obtain rfl : node.basis = mark := hitem.basis
    have hshared : n.IsShared header.basis.start node.start :=
      ⟨htext, (h.loader.target _).2 htarget, (h.marked _).2 ⟨rfl, rfl⟩⟩
    have hothers : List.Forall₂ (ItemAgrees source n.through header') nodes items := by
      refine forall₂_note hrest hunshared hstart fun other hother hshared' => ?_
      have hsame : node.start = other.start := Option.some.inj (h.isShared rfl hshared').2.2
      exact (List.nodup_cons.1 hnodup).1 (hsame ▸ List.mem_map_of_mem hother)
    obtain ⟨text, htext⟩ := Option.isSome_iff_exists.1 htext
    rw [htext] at hcomment ⊢
    refine .cons ⟨rfl, fun hnone => ?_, fun n' hn hshared' => ?_⟩ hothers
    · rw [hstart] at hnone
      exact (hnone n (List.prefix_refl _) hshared).elim
    · rw [hstart] at hshared'
      rcases WrittenNote.through_prefix_through hn with rfl | hn
      · exact ⟨htext.symm, hcomment.trans htext.symm⟩
      · exact (hunshared n' hn _ hshared').elim

/-- A note behind the array of an enum rule. -/
theorem Tracks.keeps_note_behind {n : WrittenNote source} (h : Tracks source owner n.past r l) {text : String}
    (htext : n.note.text? = some text) (happly : l.describe n.note [] = .ok m) (hbehind : r.isInArray = false)
    (hopen : l.openNodes = []) (hroot : l.root? = some (.array header nodes.reverse))
    (hcommentable : r.isCommentable = true → l.target = .root)
    (hitems : List.Forall₂ (ItemAgrees source n.past header) nodes r.items) :
    Keeps source n.through (r.commented n.note.text?) m := by
  obtain ⟨opened, -, hstands⟩ := h.loader.stands
  have hnodup : (header.basis.start :: nodes.map Node.start).Nodup := by
    have hbares := (List.nodup_append.1 hstands.begun.nodup).2.1
    exact nodup_starts (by simpa [Loader.bares, hopen, hroot] using hbares)
  cases htarget : l.target with
  | nothing =>
    rw [Loader.describe, htarget] at happly
    obtain rfl := Except.ok.inj happly
    have hno : r.isCommentable = false := by
      by_contra hyes
      rw [Bool.not_eq_false] at hyes
      simp [hcommentable hyes] at htarget
    rw [commented_of_not hno]
    refine .behind hbehind hopen hroot hcommentable (hitems.imp fun node item hitem => ?_)
    refine hitem.of_prefix (fun n' hn => hn.trans n.past_prefix_through) fun n' hn => ?_
    refine (WrittenNote.through_prefix_through hn).elim (fun hsame => Or.inr fun hshared => ?_) Or.inl
    rw [(h.isShared (congrArg WrittenNote.past hsame) hshared).2.1] at hno
    cases hno
  | root =>
    rw [Loader.describe, htarget, hroot] at happly
    obtain ⟨changed, hchanged, happly⟩ := Except.bind_eq_ok_iff.1 happly
    obtain rfl := Except.ok.inj happly
    obtain ⟨header', hheader, rfl⟩ := Except.map_eq_ok_iff.1
      ((OpenNode.annotate_node ⟨header, .array nodes⟩ _ _ _).symm.trans hchanged)
    obtain ⟨hfree, hbasis, hcomment⟩ := header_of_annotate hheader
    have hstart : header'.basis.start = header.basis.start := by rw [hbasis]
    -- An earlier note that is shared would have described the array.
    have hunshared (n' : WrittenNote source) (hn : n'.through <+: n.past) (start : Nat) :
        ¬ n'.IsShared header.basis.start start := fun hshared =>
      Bool.false_ne_true (hfree.symm.trans (isAnnotated_of_isShared h.loader hroot hn hshared))
    cases hyes : r.isCommentable with
    | false =>
      rw [commented_of_not hyes]
      refine .behind hbehind hopen rfl (fun hno => by simp [hyes] at hno)
        (forall₂_note hitems hunshared hstart fun node _ hshared => ?_)
      rw [(h.isShared rfl hshared).2.1] at hyes
      cases hyes
    | true =>
      have htarget? : l.target?.map Node.start = some header.basis.start := by
        rw [Loader.target?, htarget, hroot]
        rfl
      exact .behind hbehind hopen rfl (fun _ => rfl) (h.forall₂_shared (by simp [htext]) hyes htarget? hstart
        hcomment (List.nodup_cons.1 hnodup).2 hitems hunshared)
  | top | lastChild =>
    rw [Loader.describe, htarget, hopen] at happly
    cases happly

/-- **A note without rules.** -/
theorem Tracks.keeps_note {n : WrittenNote source} (h : Tracks source owner n.past r l)
    (hrules : n.note.rules? = none) (happly : l.applyNote n.note = .ok m) :
    Keeps source n.through (r.commented n.note.text?) m := by
  rw [Loader.applyNote, hrules] at happly
  cases htext : n.note.text? with
  | none =>
    rw [htext] at happly
    obtain rfl := Except.ok.inj happly
    rw [commented_none]
    have hold {n' : WrittenNote source} (hn : n'.through <+: n.through) {array start : Nat}
        (hshared : n'.IsShared array start) : n'.through <+: n.past := by
      refine (WrittenNote.through_prefix_through hn).resolve_left fun hsame => ?_
      have hspeaks := hshared.text
      rw [hsame, htext] at hspeaks
      cases hspeaks
    have hsame {header : Header} {nodes : List Node}
        (hitems : List.Forall₂ (ItemAgrees source n.past header) nodes r.items) :
        List.Forall₂ (ItemAgrees source n.through header) nodes r.items := by
      refine hitems.imp fun node item hitem =>
        hitem.of_prefix (fun n' hn => hn.trans n.past_prefix_through) fun n' hn => ?_
      by_cases hshared : n'.IsShared header.basis.start node.start
      · exact Or.inl (hold hn hshared)
      · exact Or.inr hshared
    cases h.keeps with
    | before hitems hbefore hcommentable hopen hroot => exact .before hitems hbefore hcommentable hopen hroot
    | inside hinside hopen hroot hcommentable hitems hunshared =>
      exact .inside hinside hopen hroot hcommentable (hsame hitems)
        fun n' hn start hshared => hunshared n' (hold hn hshared) start hshared
    | behind hbehind hopen hroot hcommentable hitems => exact .behind hbehind hopen hroot hcommentable (hsame hitems)
  | some text =>
    rw [htext] at happly
    replace happly : l.describe n.note [] = .ok m := happly
    rw [← htext]
    cases h.keeps with
    | before hitems hbefore hcommentable hopen hroot =>
      have hlost : l.target = .nothing := h.loader.lost (by rw [Loader.target?, hopen, hroot]; cases l.target <;> rfl)
      rw [Loader.describe, hlost] at happly
      obtain rfl := Except.ok.inj happly
      rw [commented_of_not hcommentable]
      exact .before hitems hbefore hcommentable hopen hroot
    | inside hinside hopen hroot hcommentable hitems hunshared =>
      exact h.keeps_note_inside htext happly hinside hopen hroot hcommentable hitems hunshared
    | behind hbehind hopen hroot hcommentable hitems =>
      exact h.keeps_note_behind htext happly hbehind hopen hroot hcommentable hitems

/-- A note comments the last item, and marks none. -/
theorem Tracks.note {n : WrittenNote source} (h : Tracks source owner n.past r l) {last : Loader}
    (hlast : last.Tracks source owner n.before) (hm : m.Tracks source owner n.through)
    (hr : after source n.past = .ok r) (hr' : after source n.through = .ok r') :
    Tracks source owner n.through r' m := by
  obtain ⟨hrules, rfl⟩ := commented_of_through hr h.outside.1 hr'
  have happly : l.applyNote n.note = .ok m := (WrittenNote.after_through h.loader.run h.outside.2).symm.trans hm.run
  refine ⟨hm, ⟨h.outside.1, ?_⟩, fun start => ?_, h.keeps_note hrules happly⟩
  · cases hnote : m.note? with
    | none => rfl
    | some builder => exact (n.not_isWithinNote_through (hm.reading builder hnote).isWithinNote).elim
  · have hclosing : n.closing.kind ≠ .newLine ∧ n.closing.kind ≠ .closing .literal := by
      rcases EventKind.closesNote_iff.1 n.closes with hkind | hkind <;> rw [hkind] <;> decide
    have hmarks (kind : EventKind) (hopens : kind.opensNote = true) : (kind == .closing .literal) = false := by
      cases kind with
      | opening => rfl
      | closing | newLine | endTop => cases hopens
    have hhead : (r.commented n.note.text?).items.head?.map (fun item => item.1.start) =
        r.items.head?.map (fun item => item.1.start) := by
      obtain ⟨items, isInArray, isInNote, isCommentable⟩ := r
      cases isCommentable
      · rfl
      · rcases items with _ | ⟨⟨mark, comment?⟩, rest⟩ <;> cases n.note.text? <;> rfl
    rw [WrittenNote.through, isMarkedLast_of_other hclosing.1 fun hmark => (hclosing.2 (beq_iff_eq.1 hmark)).elim,
      ← hlast.line _ hmarks n rfl, h.marked, hhead]
    rfl

/-- The start of an enum rule. -/
theorem tracks_nil (source : Source) (owner : String) :
    Tracks source owner [] {} { unnamed := { source, owner } } where
  loader := Loader.tracks_nil source owner
  outside := ⟨rfl, rfl⟩
  marked start := ⟨fun h => (not_isMarkedLast_nil h).elim, fun h => by simp at h⟩
  keeps := .before rfl rfl rfl rfl rfl

/-- What has been read can be read up to any event. -/
theorem exists_after_of_prefix {past events : List Event} (hpast : past <+: events)
    (h : after source events = .ok r) : ∃ earlier, after source past = .ok earlier := by
  obtain ⟨rest, rfl⟩ := hpast
  rw [after, List.foldlM_append] at h
  obtain ⟨earlier, hearlier, -⟩ := Except.bind_eq_ok_iff.1 h
  exact ⟨earlier, hearlier⟩

/-- **Some events** at the start of a document that is an enum rule and a schema. -/
theorem tracks_of_after (hpast : past <+: (Scan.read {} source.content).events) (hout : ¬ IsWithinNote past)
    (hr : after source past = .ok r) (hl : Loader.after source owner past = .ok l) : Tracks source owner past r l := by
  refine outside_induction (motive := fun past => past <+: (Scan.read {} source.content).events → ∀ r l,
    after source past = .ok r → Loader.after source owner past = .ok l → Tracks source owner past r l) ?_ ?_ ?_
    past hout hpast r l hr hl
  · intro _ r l hr hl
    obtain rfl := Except.ok.inj hr
    obtain rfl := Except.ok.inj hl
    exact tracks_nil source owner
  · intro past e hout hopens ih hpast r m hr hl
    have hm := Loader.tracks_of_after hpast hl
    rw [after, Except.foldlM_append_singleton] at hr
    rw [Loader.after, Except.foldlM_append_singleton] at hl
    obtain ⟨reader, hreader, hr⟩ := Except.bind_eq_ok_iff.1 hr
    obtain ⟨l, hearlier, hl⟩ := Except.bind_eq_ok_iff.1 hl
    obtain ⟨rest, hevents⟩ := hpast
    have hsplit : (Scan.read {} source.content).events = past ++ e :: rest := by simp [← hevents]
    have hordered := Scan.areOrdered_read {} source.content
    have hpastOrdered : Event.AreOrdered past := fun front x back heq =>
      hordered front x (back ++ e :: rest) (by simp [hsplit, heq])
    exact (ih ⟨e :: rest, hsplit.symm⟩ reader l hreader hearlier).event hm hpastOrdered hout hopens
      (hordered past e rest hsplit) hr hl
  · intro past opening inside closing hout hopens hstays hcloses ih hpast r m hr hm
    have hbefore : past ++ opening :: inside <+: (Scan.read {} source.content).events :=
      (List.prefix_append _ _).trans hpast
    obtain ⟨last, hlast⟩ := Loader.exists_after_of_prefix (List.prefix_append _ [closing]) hm
    obtain ⟨n, rfl, rfl, rfl, rfl⟩ :=
      (Loader.tracks_of_after hbefore hlast).exists_writtenNote hout hopens hstays hcloses
    obtain ⟨l, hl⟩ := Loader.exists_after_of_prefix n.past_prefix_through hm
    obtain ⟨reader, hreader⟩ := exists_after_of_prefix n.past_prefix_through hr
    exact (ih (n.past_prefix_through.trans hpast) reader l hreader hl).note
      (Loader.tracks_of_after hbefore hlast) (Loader.tracks_of_after hpast hm) hreader hr

end EnumReader

/-! ## The items of an enumeration -/

namespace Enumeration

variable {source : Source} {owner : String} {e e' : Enumeration} {schema : Schema}

/-- What an enumeration takes over of a literal. -/
theorem append_eq_ok {literal : Bytes} {comment? : Option String} (h : e.append literal comment? = .ok e') :
    ∃ item : EnumItem, e'.items = e.items ++ [item] ∧ item.text = literal.trim.toText ∧ item.comment = comment? := by
  obtain ⟨key, -, h⟩ := Except.bind_eq_ok_iff.1 h
  split at h
  · cases h
  · obtain rfl := Except.ok.inj h
    exact ⟨_, rfl, rfl, rfl⟩

/-- What an enumeration takes over of some literals. -/
theorem items_of_foldlM {items : List (Mark × Option String)}
    (h : items.foldlM (fun (e : Enumeration) (item : Mark × Option String) =>
      Verdict.on (e.append item.1.bytes item.2) item.1) e = .ok e') :
    ∃ added, e'.items = e.items ++ added ∧ List.Forall₂ (fun (item : Mark × Option String) (new : EnumItem) =>
      new.text = item.1.bytes.trim.toText ∧ new.comment = item.2) items added := by
  induction items generalizing e with
  | nil =>
    obtain rfl := Except.ok.inj h
    exact ⟨[], (List.append_nil _).symm, .nil⟩
  | cons item rest ih =>
    rw [List.foldlM_cons] at h
    obtain ⟨next, hnext, h⟩ := Except.bind_eq_ok_iff.1 h
    obtain ⟨new, hnew, htext, hcomment⟩ := append_eq_ok (Except.mapError_eq_ok_iff.1 hnext)
    obtain ⟨added, hadded, hitems⟩ := ih h
    exact ⟨new :: added, by simp [hadded, hnew], .cons ⟨htext, hcomment⟩ hitems⟩

/-- What holds of two lists in turn with a third one between them. -/
theorem forall₂_trans {α β γ : Type} {P : α → β → Prop} {Q : β → γ → Prop} {R : α → γ → Prop}
    (h : ∀ a b c, P a b → Q b c → R a c) {as : List α} {bs : List β} {cs : List γ} (hfirst : List.Forall₂ P as bs)
    (hsecond : List.Forall₂ Q bs cs) : List.Forall₂ R as cs := by
  induction hfirst generalizing cs with
  | nil =>
    cases hsecond
    exact .nil
  | cons hab _ ih =>
    obtain _ | ⟨hbc, hrest⟩ := hsecond
    exact .cons (h _ _ _ hab hbc) (ih hrest)

/-- An item of an enum rule and the item of the array that its document is as a schema. -/
structure Agrees (source : Source) (array : Header) (node : Node) (item : EnumItem) : Prop where
  text : item.text = node.basis.bytes.trim.toText
  /-- They have the same comment, but where a note about the array stands behind the item on its line. -/
  own : (∀ n : WrittenNote source, n.IsIn → ¬ n.IsShared array.basis.start node.start) →
    item.comment = node.header.comment?
  /-- There the item has the comment of the array. -/
  shared : ∀ n : WrittenNote source, n.IsIn → n.IsShared array.basis.start node.start →
    item.comment = n.note.text? ∧ array.comment? = n.note.text?

/-- **The comments of an enum rule are those of the items of its array**, where the document is a schema too.  Only the
comment of the array itself goes to an item, where the note about the array stands behind that item on its line. -/
theorem comments_of_load (hload : Enumeration.load source = .ok e) (hschema : Schema.load source owner = .ok schema) :
    ∃ header nodes, schema.root = .array header nodes ∧ List.Forall₂ (Agrees source header) nodes e.items := by
  obtain ⟨r, hr, hitems⟩ := Except.bind_eq_ok_iff.1 hload
  obtain ⟨events, hread, hr⟩ := Scan.foldMarks_eq_ok_iff.1 hr
  obtain ⟨l, htracks, hnote, hopen, hroot⟩ := Schema.exists_tracks_of_load_eq_ok hschema
  have hreader : EnumReader.after source (Scan.read {} source.content).events = .ok r := by rw [hread]; exact hr
  have hboth := EnumReader.tracks_of_after (List.prefix_refl _) (htracks.outside hnote) hreader htracks.run
  cases hboth.keeps with
  | before _ _ _ _ hnone => simp [hroot] at hnone
  | inside _ _ hnone => simp [hroot] at hnone
  | @behind header nodes _ _ harray _ hagrees =>
    obtain ⟨added, hadded, hnew⟩ := items_of_foldlM hitems
    rw [show e.items = added from hadded]
    refine ⟨header, nodes.reverse, Option.some.inj (hroot.symm.trans harray), ?_⟩
    refine forall₂_trans (fun node item new hagree ⟨htext, hcomment⟩ => ?_)
      (List.forall₂_reverse_iff.2 hagrees) hnew
    refine ⟨by rw [htext, hagree.basis], fun hnone => hcomment.trans (hagree.own hnone), fun n hn hshared => ?_⟩
    obtain ⟨hown, harray⟩ := hagree.shared n hn hshared
    exact ⟨hcomment.trans hown, harray⟩

/-- The comments of an enum rule, and those of the items of its array. -/
def comments? (source : Source) (owner : String) : Option (List (Option String) × List (Option String)) := do
  let e ← (Enumeration.load source).toOption
  let schema ← (Schema.load source owner).toOption
  return (e.items.map EnumItem.comment, schema.root.children.map fun node => node.header.comment?)

theorem comments?_eq_some {comments : List (Option String) × List (Option String)}
    (h : comments? source owner = some comments) : ∃ e schema, Enumeration.load source = .ok e ∧
      Schema.load source owner = .ok schema ∧ comments.1 = e.items.map EnumItem.comment ∧
      comments.2 = schema.root.children.map fun node => node.header.comment? := by
  obtain ⟨e, he, h⟩ := Option.bind_eq_some_iff.1 h
  obtain ⟨schema, hschema, h⟩ := Option.bind_eq_some_iff.1 h
  obtain rfl := Option.some.inj h
  exact ⟨e, schema, Except.toOption_eq_some_iff.1 he, Except.toOption_eq_some_iff.1 hschema, rfl, rfl⟩

/-- A literal behind which a note stands, and another one on the next line. -/
def commentedPair : Source := .ofString "test" "[1 // a\n, 2]"

/-- The first item is commented in both. -/
theorem comments_of_commentedPair : ∃ e schema, Enumeration.load commentedPair = .ok e ∧
    Schema.load commentedPair "test" = .ok schema ∧ [some "a", none] = e.items.map EnumItem.comment ∧
    ∃ header nodes, schema.root = .array header nodes ∧
      List.Forall₂ (Agrees commentedPair header) nodes e.items := by
  have hcomments : comments? commentedPair "test" = some ([some "a", none], [some "a", none]) := by decide +kernel
  obtain ⟨e, schema, hload, hschema, hitems, -⟩ := comments?_eq_some hcomments
  exact ⟨e, schema, hload, hschema, hitems, comments_of_load hload hschema⟩

/-- A literal in an array, and a note behind the array. -/
def commentedArray : Source := .ofString "test" "[1] // text"

/-- **An item of an enum rule may have the comment of the array**: in `[1] // text` the note is about the array. -/
theorem comments_ne : ¬ ∀ (source : Source) (owner : String) (e : Enumeration) (schema : Schema),
    Enumeration.load source = .ok e → Schema.load source owner = .ok schema →
    e.items.map EnumItem.comment = schema.root.children.map fun node => node.header.comment? := by
  intro h
  have hcomments : comments? commentedArray "test" = some ([some "text"], [none]) := by decide +kernel
  obtain ⟨e, schema, hload, hschema, hitems, hnodes⟩ := comments?_eq_some hcomments
  have hsame : [some "text"] = [none] :=
    hitems.trans ((h commentedArray "test" e schema hload hschema).trans hnodes.symm)
  simp at hsame

end Enumeration
end ExampleSchema
