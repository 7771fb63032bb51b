import ExampleSchema.Proofs.Declarations

/-!
# Where problems point

A problem points at a place in a document, or is raised without one and gets it from whoever called.  The
lemmas here say of each function that builds or changes a node that its problems point at one of some places,
given that what the function works on has been written at such places.  Which places these are is left open.

* `Problem.PointsTo`, `Problem.StaysIn`: a problem points at one of some places, or does so where it points
  anywhere; `Outcome.orOn_meets` gets from one to the other.
* `Header.LiesIn`, `Node.LiesIn`: what problems with a node can point at are marks in these places.
* `Header.apply_meets`, `Node.annotate_meets`: rules that are applied.  Of all rules only the format of a
  declared type has no mark, and it is never the second of its kind.
* `Shortcut.node_meets`: shortcuts.
-/

namespace ExampleSchema

variable {α : Type} {places : Location → Prop}

/-! ## Problems -/

/-- The mark begins at one of some places. -/
def Mark.LiesIn (places : Location → Prop) (m : Mark) : Prop := places m.location

namespace Problem

variable {p : Problem} {m : Mark}

/-- The problem points at one of some places. -/
def PointsTo (places : Location → Prop) (p : Problem) : Prop :=
  ∃ l, p.location = some l ∧ places l

/-- If the problem points anywhere, it does at one of some places. -/
def StaysIn (places : Location → Prop) (p : Problem) : Prop :=
  ∀ l, p.location = some l → places l

theorem PointsTo.staysIn (h : p.PointsTo places) : p.StaysIn places := by
  obtain ⟨l, hl, hplace⟩ := h
  intro l' hl'
  obtain rfl := Option.some.inj (hl.symm.trans hl')
  exact hplace

theorem PointsTo.imp {others : Location → Prop} (h : p.PointsTo places) (hplaces : ∀ l, places l → others l) :
    p.PointsTo others := by
  obtain ⟨l, hl, hplace⟩ := h
  exact ⟨l, hl, hplaces l hplace⟩

theorem PointsTo.orLocation (h : p.PointsTo places) (l : Location) : (p.orLocation l).PointsTo places := by
  obtain ⟨l', hl', hplace⟩ := h
  refine ⟨l', ?_, hplace⟩
  rw [Problem.orLocation, hl']
  rfl

theorem StaysIn.orOn (h : p.StaysIn places) (hm : m.LiesIn places) : (p.orOn m).PointsTo places := by
  cases hl : p.location with
  | some l =>
    refine ⟨l, ?_, h l hl⟩
    rw [Problem.orOn, Problem.orLocation, hl]
    rfl
  | none =>
    refine ⟨m.location, ?_, hm⟩
    rw [Problem.orOn, Problem.orLocation, hl]
    rfl

end Problem

namespace Cause

variable (c : Cause)

theorem on_pointsTo {m : Mark} (hm : m.LiesIn places) : (c.on m).PointsTo places := ⟨_, rfl, hm⟩

theorem anywhere_staysIn : c.anywhere.StaysIn places := nofun

end Cause

theorem Verdict.on_pointsTo (v : Verdict α) {m : Mark} (hm : m.LiesIn places) :
    (v.on m).FailsOnly (Problem.PointsTo places) := by
  cases v with
  | ok a => trivial
  | error c => exact c.on_pointsTo hm

theorem Verdict.anywhere_staysIn (v : Verdict α) : v.anywhere.FailsOnly (Problem.StaysIn places) := by
  cases v with
  | ok a => trivial
  | error c => exact c.anywhere_staysIn

namespace Outcome

variable {o : Outcome α} {good : α → Prop}

theorem staysIn (h : o.Meets good (Problem.PointsTo places)) : o.Meets good (Problem.StaysIn places) :=
  h.imp (fun _ => id) fun _ => Problem.PointsTo.staysIn

/-- Who says where a problem is that points nowhere makes all of them point. -/
theorem orOn_meets (h : o.Meets good (Problem.StaysIn places)) {m : Mark} (hm : m.LiesIn places) :
    (o.orOn m).Meets good (Problem.PointsTo places) := h.mapError fun _ hp => hp.orOn hm

end Outcome

/-! ## Rules -/

/-- The rule has been written, at one of some places.  No rule writes a format. -/
structure Rule.IsWrittenIn (places : Location → Prop) (r : Rule) : Prop where
  exists_mark : ∃ m, r.mark? = some m ∧ m.LiesIn places
  kind_ne : ∀ format, r.kind ≠ .format format

theorem Rules.add_pointsTo (rules : Rules) (c : Constraint) {m : Mark} (hm : m.LiesIn places) :
    (rules.add c (some m)).FailsOnly (Problem.PointsTo places) := by
  rw [add]
  exact .ite ⟨_, rfl, hm⟩ trivial

/-- Rules that have been added were of new kinds. -/
theorem Rules.notMem_kinds_of_addAll_eq_ok {start all : Rules} {added : List Rule}
    (h : added.foldlM (fun (rules : Rules) r => rules.add r.constraint r.mark?) start = .ok all) :
    ∀ kind ∈ Rules.kinds added, kind ∉ start.kinds := by
  induction added generalizing start with
  | nil => exact nofun
  | cons r rest ih =>
    rw [List.foldlM_cons] at h
    obtain ⟨next, hnext, h⟩ := Except.bind_eq_ok_iff.1 h
    obtain ⟨hnew, rfl⟩ := add_eq_ok_iff.1 hnext
    refine List.forall_mem_cons.2 ⟨hnew, fun kind hkind hstart => ih h kind hkind ?_⟩
    rw [kinds, List.map_append]
    exact List.mem_append_left _ hstart

/-! ## Headers -/

/-- What a node and its rules point at are some places.  Only a rule that declares a type brings a format. -/
structure Header.LiesIn (places : Location → Prop) (h : Header) : Prop where
  basis : h.basis.LiesIn places
  rules : ∀ r ∈ h.rules, ∀ m, r.mark? = some m → m.LiesIn places
  formats : ∀ format, .format format ∈ h.rules.kinds → .type ∈ h.rules.kinds

namespace Header

variable {h : Header} {added : List Rule} {sample? : Option Mark}

/-- A header without rules. -/
theorem liesIn_of_nil (hbasis : h.basis.LiesIn places) (hrules : h.rules = []) : h.LiesIn places := by
  refine ⟨hbasis, fun r hr => ?_, fun format hformat => ?_⟩
  · rw [hrules] at hr
    exact (List.not_mem_nil hr).elim
  · rw [hrules] at hformat
    exact (List.not_mem_nil hformat).elim

/-- Rules whose details are filled in stay where they were written. -/
theorem LiesIn.change (hh : h.LiesIn places) {f : Constraint → Constraint}
    (hf : ∀ c, Constraint.Completes c (f c)) : LiesIn places { h with rules := h.rules.change f } := by
  refine ⟨hh.basis, fun r hr => ?_, ?_⟩
  · obtain ⟨old, hold, rfl⟩ := List.mem_map.1 hr
    exact hh.rules old hold
  · rw [Rules.kinds_change hf]
    exact hh.formats

/-- The mark of a rule, or that of the node. -/
theorem LiesIn.mark? (hh : h.LiesIn places) (kind : ConstraintKind) :
    ((h.rules.mark? kind).getD h.basis).LiesIn places := by
  cases hmark : h.rules.mark? kind with
  | none => exact hh.basis
  | some m =>
    obtain ⟨r, hr, hm⟩ := Option.bind_eq_some_iff.1 hmark
    exact hh.rules r (List.mem_of_find?_eq_some hr) m hm

/-- Rules are added, or one of them is the second of its kind. -/
theorem addRules_meets (hh : h.LiesIn places) (hadded : ∀ r ∈ added, r.IsWrittenIn places) :
    (h.addRules added).Meets (fun changed => changed.LiesIn places ∧
      (.type ∈ Rules.kinds added → .type ∈ changed.rules.kinds ∧ ∀ format, .format format ∉ changed.rules.kinds))
      (Problem.PointsTo places) := by
  have hfold : (added.foldlM (fun (rules : Rules) r => rules.add r.constraint r.mark?) h.rules).FailsOnly
      (Problem.PointsTo places) := by
    refine Except.FailsOnly.foldlM fun rules r hr => ?_
    obtain ⟨m, hmark, hm⟩ := (hadded r hr).exists_mark
    rw [hmark]
    exact rules.add_pointsTo _ hm
  unfold addRules
  cases hrules : added.foldlM (fun (rules : Rules) r => rules.add r.constraint r.mark?) h.rules with
  | error p => exact hfold.of_error hrules
  | ok all =>
    obtain ⟨rfl, -⟩ := Rules.addAll_eq_ok hrules
    have hnew := Rules.notMem_kinds_of_addAll_eq_ok hrules
    have hkinds : Rules.kinds (h.rules ++ added) = h.rules.kinds ++ Rules.kinds added := List.map_append
    have hformats : ∀ format, .format format ∉ Rules.kinds added := by
      intro format hmem
      obtain ⟨r, hr, hkind⟩ := List.mem_map.1 hmem
      exact (hadded r hr).kind_ne format hkind
    refine ⟨⟨hh.basis, fun r hr m hm => ?_, fun format hmem => ?_⟩, fun htype => ⟨?_, fun format hmem => ?_⟩⟩
    · rcases List.mem_append.1 hr with hr | hr
      · exact hh.rules r hr m hm
      · obtain ⟨m', hmark, hm'⟩ := (hadded r hr).exists_mark
        obtain rfl := Option.some.inj (hmark.symm.trans hm)
        exact hm'
    · change _ ∈ Rules.kinds (h.rules ++ added) at hmem
      change _ ∈ Rules.kinds (h.rules ++ added)
      rw [hkinds, List.mem_append] at hmem ⊢
      exact Or.inl (hh.formats format (hmem.resolve_right (hformats format)))
    · change _ ∈ Rules.kinds (h.rules ++ added)
      rw [hkinds]
      exact List.mem_append_right _ htype
    · change _ ∈ Rules.kinds (h.rules ++ added) at hmem
      rw [hkinds, List.mem_append] at hmem
      exact hnew .type htype (hh.formats format (hmem.resolve_right (hformats format)))

/-- The format of a declared type is the first one. -/
theorem declare_meets (hh : h.LiesIn places) (htype : .type ∈ h.rules.kinds)
    (hnone : ∀ format, .format format ∉ h.rules.kinds) (type : BuiltinType) :
    (h.declare type).Meets (LiesIn places) (Problem.PointsTo places) := by
  unfold declare
  cases type.format? with
  | none => exact ⟨hh.basis, hh.rules, hh.formats⟩
  | some format =>
    dsimp only
    have hadd := Rules.add_eq_ok_iff.2 ⟨hnone format, (rfl : h.rules ++ [⟨.format format, none⟩] = _)⟩
    rw [hadd]
    refine ⟨hh.basis, fun r hr m hm => ?_, fun _ _ => ?_⟩
    · rcases List.mem_append.1 hr with hr | hr
      · exact hh.rules r hr m hm
      · rw [List.mem_singleton.1 hr] at hm
        cases hm
    · change _ ∈ List.map _ (h.rules ++ _)
      rw [List.map_append]
      exact List.mem_append_left _ htype

theorem fillConstant_meets (hh : h.LiesIn places) (hsample : ∀ m, sample? = some m → m.LiesIn places) :
    (h.fillConstant sample?).Meets (LiesIn places) (Problem.PointsTo places) := by
  unfold fillConstant
  split
  · exact hh
  · next sample =>
    split
    · refine (Verdict.on_pointsTo _ (hsample sample rfl)).bind fun key _ => ?_
      refine hh.change fun c => ?_
      cases c <;> constructor
    · exact hh

/-- **Rules are applied** to what every node has, or one of them or the sample is to blame. -/
theorem apply_meets (hh : h.LiesIn places) (hadded : ∀ r ∈ added, r.IsWrittenIn places)
    (hsample : ∀ m, sample? = some m → m.LiesIn places) :
    (h.apply sample? added).Meets (LiesIn places) (Problem.PointsTo places) := by
  have hlink : ∀ h : Header, h.LiesIn places → h.linkBounds.LiesIn places := fun h hh => by
    refine hh.change fun c => ?_
    cases c <;> constructor
  rw [apply_eq]
  refine (addRules_meets hh hadded).bind fun h₁ ⟨hh₁, htype⟩ => ?_
  refine Except.Meets.bind ?_ fun h₂ hh₂ => fillConstant_meets (hlink h₂ hh₂) hsample
  split
  · next type hbuiltin =>
    obtain ⟨r, hr, hc⟩ := exists_of_builtinOf? hbuiltin
    obtain ⟨hthere, hnone⟩ := htype (List.mem_map.2 ⟨r, hr, by rw [Rule.kind, hc]; rfl⟩)
    exact declare_meets hh₁ hthere hnone type
  · exact hh₁

theorem annotate_meets (hh : h.LiesIn places) {note : Mark} (hnote : note.LiesIn places)
    (comment? : Option String) : (h.annotate note comment?).Meets (LiesIn places) (Problem.PointsTo places) := by
  rw [annotate]
  exact .ite (Cause.on_pointsTo _ hnote) ⟨hh.basis, hh.rules, hh.formats⟩

end Header

/-! ## Nodes -/

namespace Node

/-- How the properties of an object are written. -/
def keys : Node → List PropertyKey
  | object _ properties => properties.map Prod.fst
  | _ => []

/-- What problems with a node itself point at are some places. -/
structure IsMarkedIn (places : Location → Prop) (node : Node) : Prop where
  header : node.header.LiesIn places
  sample : ∀ m, node.sample? = some m → m.LiesIn places
  keys : ∀ key ∈ node.keys, key.mark.LiesIn places

/-- What problems with any node of a tree can point at are some places. -/
def LiesIn (places : Location → Prop) (node : Node) : Prop := ∀ part ∈ node.subnodes, part.IsMarkedIn places

variable {node : Node}

theorem liesIn_iff : node.LiesIn places ↔
    node.IsMarkedIn places ∧ ∀ child ∈ node.children, child.LiesIn places := by
  rw [LiesIn, subnodes_eq, List.forall_mem_cons, List.forall_mem_flatMap]
  rfl

theorem LiesIn.mono {others : Location → Prop} (h : node.LiesIn places) (hplaces : ∀ l, places l → others l) :
    node.LiesIn others := by
  intro part hpart
  obtain ⟨⟨hbasis, hrules, hformats⟩, hsample, hkeys⟩ := h part hpart
  exact ⟨⟨hplaces _ hbasis, fun r hr m hm => hplaces _ (hrules r hr m hm), hformats⟩,
    fun m hm => hplaces _ (hsample m hm), fun key hkey => hplaces _ (hkeys key hkey)⟩

theorem LiesIn.isMarkedIn (h : node.LiesIn places) : node.IsMarkedIn places := h node (mem_subnodes_self node)

end Node

/-- Properties are written at some places: how they are called, and their nodes. -/
def Properties.LiesIn (places : Location → Prop) (properties : Properties) : Prop :=
  ∀ p ∈ properties, p.1.mark.LiesIn places ∧ p.2.LiesIn places

namespace Node

variable {node : Node} {header : Header} {added : List Rule}

/-- An object lies where its properties and their names do. -/
theorem liesIn_object_iff {properties : Properties} : (object header properties).LiesIn places ↔
    header.LiesIn places ∧ properties.LiesIn places := by
  rw [liesIn_iff]
  constructor
  · rintro ⟨⟨hheader, -, hkeys⟩, hchildren⟩
    exact ⟨hheader, fun p hp => ⟨hkeys p.1 (List.mem_map_of_mem hp), hchildren p.2 (List.mem_map_of_mem hp)⟩⟩
  · rintro ⟨hheader, hproperties⟩
    refine ⟨⟨hheader, nofun, fun key hkey => ?_⟩, fun child hchild => ?_⟩
    · obtain ⟨p, hp, rfl⟩ := List.mem_map.1 hkey
      exact (hproperties p hp).1
    · obtain ⟨p, hp, rfl⟩ := List.mem_map.1 hchild
      exact (hproperties p hp).2

theorem liesIn_array_iff {items : List Node} : (array header items).LiesIn places ↔
    header.LiesIn places ∧ ∀ item ∈ items, item.LiesIn places := by
  rw [liesIn_iff]
  exact ⟨fun h => ⟨h.1.header, h.2⟩, fun h => ⟨⟨h.1, nofun, List.forall_mem_nil _⟩, h.2⟩⟩

/-- A node without a sample and without parts lies where its header does. -/
theorem liesIn_of_header (hheader : node.header.LiesIn places) (hsample : node.sample? = none)
    (hchildren : node.children = []) : node.LiesIn places := by
  refine liesIn_iff.2 ⟨⟨hheader, fun m hm => ?_, ?_⟩, fun child hchild => ?_⟩
  · rw [hsample] at hm
    cases hm
  · cases node with
    | object header properties =>
      rw [List.map_eq_nil_iff.1 hchildren]
      exact fun key hkey => (List.not_mem_nil hkey).elim
    | literal | array | mixed | reference => exact List.forall_mem_nil _
  · rw [hchildren] at hchild
    exact (List.not_mem_nil hchild).elim

/-- A node with another header keeps all else. -/
theorem LiesIn.withHeader (h : node.LiesIn places) (hheader : header.LiesIn places) :
    (node.withHeader header).LiesIn places := by
  obtain ⟨⟨-, hsample, hkeys⟩, hchildren⟩ := liesIn_iff.1 h
  rw [liesIn_iff]
  cases node <;> exact ⟨⟨hheader, hsample, hkeys⟩, hchildren⟩

/-- **Rules are applied** to a node, or one of them or the sample is to blame. -/
theorem apply_meets (h : node.LiesIn places) (hadded : ∀ r ∈ added, r.IsWrittenIn places) :
    (node.apply added).Meets (LiesIn places) (Problem.PointsTo places) := by
  have hmarked := h.isMarkedIn
  refine (Header.apply_meets hmarked.header hadded hmarked.sample).bind fun header hheader => ?_
  have hleaf : ∀ header : Header, header.LiesIn places → ∀ sample?, node.sample? = sample? →
      (literal header sample?).LiesIn places ∧ (mixed header sample?).LiesIn places := by
    rintro header hheader sample? rfl
    exact ⟨liesIn_iff.2 ⟨⟨hheader, hmarked.sample, List.forall_mem_nil _⟩, List.forall_mem_nil _⟩,
      liesIn_iff.2 ⟨⟨hheader, hmarked.sample, List.forall_mem_nil _⟩, List.forall_mem_nil _⟩⟩
  split
  · next sample? =>
    have hmixed : LiesIn places (mixed { header with jsonType := .mixed } sample?) :=
      (hleaf { header with jsonType := .mixed } ⟨hheader.basis, hheader.rules, hheader.formats⟩ sample? rfl).2
    exact .ite hmixed (.ite (hleaf header hheader sample? rfl).2 (hleaf header hheader sample? rfl).1)
  · exact h.withHeader hheader

theorem annotate_meets (h : node.LiesIn places) {note : Mark} (hnote : note.LiesIn places)
    (comment? : Option String) (hadded : ∀ r ∈ added, r.IsWrittenIn places) :
    (node.annotate note comment? added).Meets (LiesIn places) (Problem.PointsTo places) :=
  (Header.annotate_meets h.isMarkedIn.header hnote comment?).bind fun _ hheader =>
    apply_meets (h.withHeader hheader) hadded

end Node

/-! ## Shortcuts -/

namespace Shortcut

variable {mark : Mark}

theorem names_pointsTo (hmark : mark.LiesIn places) : (names mark).FailsOnly (Problem.PointsTo places) := by
  cases hnames : names mark with
  | ok names => trivial
  | error p =>
    obtain ⟨-, part, -, -, -, hpart⟩ := Except.mapM_eq_error_iff.1 hnames
    dsimp only at hpart
    split at hpart
    · cases hpart
    · obtain rfl := Except.error.inj hpart
      exact Cause.on_pointsTo _ hmark

theorem isWrittenIn_of_mem_rules (hmark : mark.LiesIn places) (names : List String) :
    ∀ r ∈ rules mark names, r.IsWrittenIn places := by
  have hwritten : ∀ c : Constraint, (∀ format, c.kind ≠ .format format) → Rule.IsWrittenIn places ⟨c, some mark⟩ :=
    fun c hc => ⟨⟨mark, rfl, hmark⟩, hc⟩
  unfold rules
  split
  · exact List.forall_mem_singleton.2 (hwritten _ nofun)
  · exact List.forall_mem_cons.2 ⟨hwritten _ nofun, List.forall_mem_singleton.2 (hwritten _ nofun)⟩

/-- A shortcut becomes a node, or is to blame. -/
theorem node_meets (hmark : mark.LiesIn places) :
    (node mark).Meets (Node.LiesIn places) (Problem.PointsTo places) := by
  refine (names_pointsTo hmark).bind fun names _ => ?_
  refine (Header.addRules_meets (Header.liesIn_of_nil hmark rfl) (isWrittenIn_of_mem_rules hmark names)).bind ?_
  exact fun header hheader => Node.liesIn_of_header hheader.1 rfl rfl

end Shortcut
end ExampleSchema
