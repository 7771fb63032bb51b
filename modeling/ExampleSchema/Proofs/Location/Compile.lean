import ExampleSchema.Proofs.Location.Rules

/-!
# Where problems with compiling point

Compiling copies nodes, fills in their rules and gives them the properties of others, so all that it works on has
been written in some document.  Each check blames a mark of the node that it looks at; what is found out about
types, which knows no marks, is blamed on the rule or the node that refers to them.

* `Schema.LiesIn.register`, `Schema.resolveEnums_meets`, `Schema.expand_meets`: one for each step of compiling.
* `passedOn_meets_liesIn`: what a type passes on, and who may still be blamed where it passes on nothing.
* `Node.check…_pointsTo`, `Registry.checkNode_pointsTo`: the checks of a node.
* `followReferences_pointsTo`: endless types.  The first type that is followed from nowhere is never endless by
  itself, so what is blamed is a reference.
* `Schema.compile_pointsTo`: all steps together.
-/

namespace ExampleSchema

variable {places : Location → Prop}

/-! ## Registering -/

theorem Registry.LiesIn.root {types : Registry} (h : types.LiesIn places) {name : String} {root : Node}
    (hroot : types.root? name = some root) : root.LiesIn places := by
  obtain ⟨e, he, rfl⟩ := exists_mem_of_root?_eq_some hroot
  exact h e he

theorem Registry.LiesIn.without {types : Registry} (h : types.LiesIn places) (name : String) :
    (types.without name).LiesIn places := fun e he => h e (List.mem_filter.1 he).1

/-- The trees of a schema are written at some places. -/
structure Schema.LiesIn (places : Location → Prop) (schema : Schema) : Prop where
  root : schema.root.LiesIn places
  types : schema.types.LiesIn places

namespace Schema.LiesIn

variable {schema : Schema}

theorem mono {others : Location → Prop} (h : schema.LiesIn places) (hplaces : ∀ l, places l → others l) :
    schema.LiesIn others := ⟨h.root.mono hplaces, fun e he => (h.types e he).mono hplaces⟩

/-- The registry takes in the trees of the registered types. -/
theorem register (h : schema.LiesIn places) {named : List (String × RegisteredType)}
    (hnamed : ∀ e ∈ named, e.2.schema.LiesIn places) : (schema.register named).LiesIn places := by
  have hown : Registry.LiesIn places (named.foldl (fun (types : Registry) e =>
      Catalog.insert types e.1 { root := e.2.schema.root, source := e.2.source, start := 0 })
      schema.types) :=
    List.foldlRecOn (motive := Registry.LiesIn places) _ _ h.types fun _ htypes e he =>
      htypes.insert (hnamed e he).root e.1
  have hunnamed : Registry.LiesIn places (named.flatMap fun e => e.2.schema.types) := by
    intro e he
    obtain ⟨type, htype, he⟩ := List.mem_flatMap.1 he
    exact (hnamed type htype).types e he
  have hpromoted : Registry.LiesIn places ((named.flatMap fun e => e.2.schema.types).foldl
      (fun types e => Catalog.insert types e.1 e.2) []) :=
    List.foldlRecOn (motive := Registry.LiesIn places) _ _ (fun _ he => (List.not_mem_nil he).elim)
      fun _ htypes e he => htypes.insert (hunnamed e he) e.1
  exact ⟨h.root, List.foldlRecOn (motive := Registry.LiesIn places) _ _ hown fun _ htypes e he =>
    htypes.insertNew (hpromoted e he) e.1⟩

/-- Changing each tree keeps it in its place, or fails as the change of a tree does. -/
theorem mapRoots_meets (h : schema.LiesIn places) {change : Node → Outcome Node}
    (hchange : ∀ node : Node, node.LiesIn places →
      (change node).Meets (Node.LiesIn places) (Problem.PointsTo places)) :
    (schema.mapRoots change).Meets (LiesIn places) (Problem.PointsTo places) := by
  have hroots : ∀ root ∈ schema.roots, root.LiesIn places := by
    intro root hroot
    rcases List.mem_cons.1 hroot with rfl | hroot
    · exact h.root
    · obtain ⟨e, he, rfl⟩ := List.mem_map.1 hroot
      exact h.types e he
  refine (Schema.mapRoots_meets fun root hroot => hchange root (hroots root hroot)).imp (fun changed hchanged => ?_)
    fun _ hp => hp
  exact ⟨hchanged _ (List.mem_cons_self ..), fun e he => hchanged _ (mem_roots_of_mem_types he)⟩

end Schema.LiesIn

/-! ## Resolving rules -/

/-- Resolving a rule fails at the rule, or at its node. -/
theorem Header.resolveEnum_meets {h : Header} (hh : h.LiesIn places) (rules : EnumRules) :
    (h.resolveEnum rules).Meets (LiesIn places) (Problem.PointsTo places) := by
  cases hresolved : h.resolveEnum rules with
  | ok resolved =>
    obtain ⟨f, rfl, hf⟩ := exists_of_resolveEnum_eq_ok hresolved
    exact hh.change hf
  | error p =>
    rw [resolveEnum] at hresolved
    split at hresolved
    · split at hresolved
      · cases hresolved
      · obtain rfl := Except.error.inj hresolved
        exact Cause.on_pointsTo _ (hh.mark? .enum)
    · cases hresolved

namespace Node

variable {node : Node}

/-- How the properties of a node are written does not change with its parts. -/
theorem mem_keys_of_mem_keys_withChildren {children : List Node} {key : PropertyKey}
    (h : key ∈ (node.withChildren children).keys) : key ∈ node.keys := by
  cases node with
  | object header properties =>
    obtain ⟨p, hp, rfl⟩ := List.mem_map.1 h
    obtain ⟨i, hi, rfl⟩ := List.getElem_of_mem hp
    have hlt : i < properties.length := by
      rw [List.length_zipWith] at hi
      omega
    rw [List.getElem_zipWith]
    exact List.mem_map.2 ⟨properties[i], List.getElem_mem hlt, rfl⟩
  | literal | array | mixed | reference => exact h

/-- A node whose parts are exchanged keeps its own marks. -/
theorem IsMarkedIn.withChildren (h : node.IsMarkedIn places) {children : List Node}
    (hchildren : ∀ child ∈ children, child.LiesIn places) : (node.withChildren children).LiesIn places := by
  refine liesIn_iff.2 ⟨?_, fun child hchild => hchildren child (mem_of_mem_children_withChildren hchild)⟩
  refine ⟨?_, ?_, fun key hkey => h.keys key (mem_keys_of_mem_keys_withChildren hkey)⟩
  · have hheader := h.header
    cases node <;> exact hheader
  · have hsample := h.sample
    cases node <;> exact hsample

theorem resolveEnums_meets (h : node.LiesIn places) (rules : EnumRules) :
    (node.resolveEnums rules).Meets (LiesIn places) (Problem.PointsTo places) := by
  induction node using inductionOn with
  | step node ih =>
    obtain ⟨hnode, hchildren⟩ := liesIn_iff.1 h
    rw [resolveEnums_eq]
    refine (Header.resolveEnum_meets hnode.header rules).bind fun header hheader => ?_
    refine (Except.Meets.mapM fun child hchild => ih child hchild (hchildren child hchild)).bind fun children hmap => ?_
    exact (h.withHeader hheader).isMarkedIn.withChildren hmap

end Node

/-! ## Inheriting -/

namespace Properties

variable {properties added : Properties} {p : PropertyKey × Node} {blamed : Mark}

theorem add_meets_liesIn (h : properties.LiesIn places) (hp : p.1.mark.LiesIn places ∧ p.2.LiesIn places)
    (hblamed : blamed.LiesIn places) :
    (properties.add p blamed).Meets (LiesIn places) (Problem.PointsTo places) := by
  refine .ite (Cause.on_pointsTo _ hblamed) fun q hq => ?_
  rcases List.mem_append.1 hq with hq | hq
  · exact h q hq
  · rwa [List.mem_singleton.1 hq]

theorem addAll_meets_liesIn (h : properties.LiesIn places) (hadded : added.LiesIn places) :
    (properties.addAll added).Meets (LiesIn places) (Problem.PointsTo places) :=
  Except.Meets.foldlM h fun _ hall p hp => add_meets_liesIn hall (hadded p hp) (hadded p hp).1

theorem liesIn_nil : LiesIn places [] := fun _ hp => (List.not_mem_nil hp).elim

theorem LiesIn.inherited (h : properties.LiesIn places) : (inherited properties).LiesIn places := by
  intro p hp
  obtain ⟨q, hq, rfl⟩ := List.mem_map.1 hp
  exact h q hq

end Properties

/-- **What a type passes on** is written where it has been; where it passes on nothing, the caller may have to say
whom to blame. -/
theorem passedOn_meets_liesIn (types : Registry) (entered : List String) (name : String)
    (h : types.LiesIn places) :
    (passedOn types entered name).Meets (Properties.LiesIn places) (Problem.StaysIn places) := by
  induction types, entered, name using passedOn.induct with
  | case1 types entered name hentered =>
    rw [passedOn_of_entered hentered]
    exact Cause.anywhere_staysIn _
  | case2 types entered name hentered hroot =>
    rw [passedOn_of_none hentered hroot]
    exact Cause.anywhere_staysIn _
  | case3 types entered name hentered header properties hroot ih =>
    rw [passedOn_of_object hentered hroot]
    have hown : Properties.LiesIn places properties := (Node.liesIn_object_iff.1 (h.root hroot)).2
    refine Except.Meets.bind (Except.Meets.foldlM Properties.liesIn_nil fun gathered hgathered parent _ => ?_)
      fun gathered hgathered => Outcome.staysIn (Properties.addAll_meets_liesIn hgathered hown.inherited)
    exact (ih parent (h.without name)).bind fun added hadded =>
      Outcome.staysIn (Properties.addAll_meets_liesIn hgathered hadded)
  | case4 types entered name hentered root hnot hroot =>
    rw [passedOn_of_not_object hentered hroot hnot]
    exact Cause.anywhere_staysIn _

namespace Node

variable {node : Node} {types : Registry}

theorem inherit_meets_liesIn (htypes : types.LiesIn places) (h : node.LiesIn places) :
    (node.inherit types).Meets (LiesIn places) (Problem.PointsTo places) := by
  cases node with
  | object header properties =>
    obtain ⟨hheader, hproperties⟩ := liesIn_object_iff.1 h
    have hblamed := hheader.mark? .allOf
    have hown : Properties.LiesIn places (properties.filter fun p => !p.1.isInherited) := fun p hp =>
      hproperties p (List.mem_filter.1 hp).1
    rw [inherit]
    refine .ite (Except.Meets.bind (Except.Meets.foldlM (@Properties.liesIn_nil places) fun gathered hgathered parent _ => ?_)
      fun gathered hgathered => ?_) h
    · refine (Outcome.orOn_meets (passedOn_meets_liesIn types [] parent htypes) hblamed).bind fun added hadded => ?_
      exact Except.Meets.foldlM hgathered fun _ hall p hp => Properties.add_meets_liesIn hall (hadded p hp) hblamed
    · exact (Properties.addAll_meets_liesIn hgathered hown).bind fun all hall => liesIn_object_iff.2 ⟨hheader, hall⟩
  | literal | array | mixed | reference => exact h

theorem expand_meets (htypes : types.LiesIn places) (h : node.LiesIn places) (levels : Nat) :
    (node.expand types levels).Meets (LiesIn places) (Problem.PointsTo places) := by
  induction levels generalizing node with
  | zero =>
    rw [expand]
    exact Cause.on_pointsTo _ h.isMarkedIn.header.basis
  | succ levels ih =>
    rw [expand_succ]
    refine (inherit_meets_liesIn htypes h).bind fun whole hwhole => ?_
    obtain ⟨hmarked, hchildren⟩ := liesIn_iff.1 hwhole
    exact (Except.Meets.mapM fun child hchild => ih (hchildren child hchild)).bind fun children hmap =>
      hmarked.withChildren hmap

/-! ## Checks of a node -/

section

variable (h : node.IsMarkedIn places) (types : Registry)
include h

theorem IsMarkedIn.markOf (kind : ConstraintKind) : (node.markOf kind).LiesIn places := h.header.mark? kind

theorem checkSuited_pointsTo : node.checkSuited.FailsOnly (Problem.PointsTo places) := by
  refine Except.FailsOnly.forM fun r hr => .ite trivial (Cause.on_pointsTo _ ?_)
  cases hmark : r.mark? with
  | none => exact h.header.basis
  | some m => exact h.header.rules r hr m hmark

theorem checkReferences_pointsTo : (node.checkReferences types).FailsOnly (Problem.PointsTo places) := by
  have hblamed : (((node.rules.mark? .type).or (node.rules.mark? .types)).getD node.basis).LiesIn places := by
    have htype := h.markOf .type
    rw [Node.markOf] at htype
    cases hmark : node.rules.mark? .type with
    | none => exact h.markOf .types
    | some m =>
      rw [hmark] at htype
      exact htype
  unfold checkReferences
  dsimp only
  refine .ite ?_ trivial
  split
  · next extra hextra =>
    refine Cause.on_pointsTo _ ?_
    cases hmark : extra.mark? with
    | none => exact hblamed
    | some m => exact h.header.rules extra (List.mem_of_find?_eq_some hextra) m hmark
  · refine .ite (Cause.on_pointsTo _ h.header.basis) ?_
    exact (Verdict.on_pointsTo _ hblamed).bind fun allowed _ => .ite (Cause.on_pointsTo _ hblamed) trivial

theorem checkBounds_pointsTo : node.checkBounds.FailsOnly (Problem.PointsTo places) := by
  -- every way through the four guards ends well or blames a rule
  unfold checkBounds
  dsimp only
  repeat' split
  all_goals first | trivial | exact Cause.on_pointsTo _ (h.markOf _)

theorem checkAdditional_pointsTo : (node.checkAdditional types).FailsOnly (Problem.PointsTo places) := by
  have hblamed := h.markOf .additionalProperties
  unfold checkAdditional
  split
  · exact .ite (Cause.on_pointsTo _ hblamed) (.ite (Cause.on_pointsTo _ hblamed) trivial)
  · trivial

theorem checkItems_pointsTo (items : List Node) : (node.checkItems items).FailsOnly (Problem.PointsTo places) := by
  unfold checkItems
  dsimp only
  repeat' split
  all_goals first | trivial | exact Cause.on_pointsTo _ (h.markOf _)

end

theorem checkSample_pointsTo (types : Registry) {sample : Mark} (hsample : sample.LiesIn places) :
    (node.checkSample types sample).FailsOnly (Problem.PointsTo places) := by
  unfold checkSample
  dsimp only
  refine .ite trivial (.ite (Cause.on_pointsTo _ hsample) ?_)
  split
  · split
    · trivial
    · exact Cause.on_pointsTo _ hsample
  · refine .ite (Cause.on_pointsTo _ hsample) (Except.FailsOnly.forM fun r _ => ?_)
    exact Verdict.on_pointsTo _ hsample

theorem checkShape_pointsTo (h : node.IsMarkedIn places) (types : Registry) :
    (node.checkShape types).FailsOnly (Problem.PointsTo places) := by
  cases node with
  | object header properties =>
    refine Except.Meets.bind (Except.FailsOnly.forM fun p hp => ?_) fun _ _ => checkAdditional_pointsTo h types
    have hkey : p.1.mark.LiesIn places := h.keys p.1 (List.mem_map_of_mem hp)
    refine .ite ?_ trivial
    exact (Verdict.on_pointsTo _ hkey).bind fun _ _ => .ite (Cause.on_pointsTo _ hkey) trivial
  | array header items => exact checkItems_pointsTo h items
  | literal header sample? | mixed header sample? =>
    cases sample? with
    | none => trivial
    | some sample => exact checkSample_pointsTo types (h.sample sample rfl)
  | reference => trivial

end Node

/-- **The checks of a node** blame the node or what is written at it. -/
theorem Registry.checkNode_pointsTo (types : Registry) {node : Node} (h : node.IsMarkedIn places) :
    (types.checkNode node).FailsOnly (Problem.PointsTo places) :=
  (Node.checkSuited_pointsTo h).bind fun _ _ => (Node.checkReferences_pointsTo h types).bind fun _ _ =>
    (Node.checkBounds_pointsTo h).bind fun _ _ => Node.checkShape_pointsTo h types

theorem Registry.checkTree_pointsTo (types : Registry) {root : Node} (h : root.LiesIn places) :
    (types.checkTree root).FailsOnly (Problem.PointsTo places) :=
  Except.FailsOnly.forM fun node hnode => types.checkNode_pointsTo (h node hnode)

/-! ## Endless types -/

mutual
/-- The references of a node are marks in its tree. -/
theorem Node.strictReferences_liesIn : ∀ node : Node, node.LiesIn places →
    ∀ reference ∈ node.strictReferences, reference.2.LiesIn places
  | .literal header sample?, h | .array header items, h | .mixed header sample?, h | .reference header names, h => by
    intro reference hreference
    rw [Node.strictReferences] at hreference
    split at hreference
    · exact (List.not_mem_nil hreference).elim
    · obtain ⟨name, -, rfl⟩ := List.mem_map.1 hreference
      exact h.isMarkedIn.header.basis
  | .object header properties, h => by
    intro reference hreference
    obtain ⟨hheader, hproperties⟩ := Node.liesIn_object_iff.1 h
    rw [Node.strictReferences] at hreference
    split at hreference
    · exact (List.not_mem_nil hreference).elim
    · rcases List.mem_append.1 hreference with hreference | hreference
      · obtain ⟨name, -, rfl⟩ := List.mem_map.1 hreference
        exact hheader.basis
      · exact strictReferencesOfProperties_liesIn properties (fun p hp => (hproperties p hp).2) reference hreference

theorem strictReferencesOfProperties_liesIn : ∀ properties : Properties, (∀ p ∈ properties, p.2.LiesIn places) →
    ∀ reference ∈ strictReferencesOfProperties properties, reference.2.LiesIn places
  | [], _ => fun _ hreference => (List.not_mem_nil hreference).elim
  | (key, node) :: rest, h => by
    intro reference hreference
    obtain ⟨hnode, hrest⟩ := List.forall_mem_cons.1 h
    rw [strictReferencesOfProperties] at hreference
    rcases List.mem_append.1 hreference with hreference | hreference
    · split at hreference
      · exact (List.not_mem_nil hreference).elim
      · exact Node.strictReferences_liesIn node hnode reference hreference
    · exact strictReferencesOfProperties_liesIn rest hrest reference hreference
end

/-- **Following references** fails at a reference.  A type that no reference has led to is followed with nothing
entered, so it is not found to be endless itself. -/
theorem followReferences_pointsTo (types : Registry) (entered settled : List String) (name : String)
    (blamed? : Option Mark) (h : types.LiesIn places) (hblamed : ∀ m, blamed? = some m → m.LiesIn places)
    (hentered : entered ≠ [] → blamed?.isSome = true) :
    (followReferences types entered settled name blamed?).FailsOnly (Problem.PointsTo places) := by
  induction types, entered, settled, name, blamed? using followReferences.induct with
  | case1 types entered settled name blamed? hcontains =>
    rw [followReferences, if_pos hcontains]
    have hne : entered ≠ [] := by
      rintro rfl
      cases hcontains
    obtain ⟨m, rfl⟩ := Option.isSome_iff_exists.1 (hentered hne)
    exact ⟨m.location, rfl, hblamed m rfl⟩
  | case2 types entered settled name blamed? hcontains hsettled =>
    rw [followReferences, if_neg hcontains, if_pos hsettled]
    trivial
  | case3 types entered settled name blamed? hcontains hsettled hroot =>
    rw [followReferences, if_neg hcontains, if_neg hsettled]
    split
    · trivial
    · next hsome => exact nomatch hroot.symm.trans hsome
  | case4 types entered settled name blamed? hcontains hsettled root hroot ih =>
    rw [followReferences, if_neg hcontains, if_neg hsettled]
    split
    · trivial
    · next other hother =>
      obtain rfl : other = root := Option.some.inj (hother.symm.trans hroot)
      refine Except.Meets.bind (Except.FailsOnly.foldlM fun settled reference hreference => ?_) fun _ _ => trivial
      refine ih settled reference.1 reference.2 (h.without name) (fun m hm => ?_) fun _ => rfl
      obtain rfl := Option.some.inj hm
      exact Node.strictReferences_liesIn other (h.root hroot) reference hreference

/-! ## Schemas -/

namespace Schema

variable {schema : Schema}

theorem resolveEnums_meets (h : schema.LiesIn places) (rules : EnumRules) :
    (schema.resolveEnums rules).Meets (LiesIn places) (Problem.PointsTo places) :=
  h.mapRoots_meets fun _ hnode => Node.resolveEnums_meets hnode rules

theorem expand_meets (h : schema.LiesIn places) :
    schema.expand.Meets (LiesIn places) (Problem.PointsTo places) :=
  h.mapRoots_meets fun _ hnode => Node.expand_meets h.types hnode _

theorem check_pointsTo (h : schema.LiesIn places) : schema.check.FailsOnly (Problem.PointsTo places) := by
  refine (schema.types.checkTree_pointsTo h.root).bind fun _ _ => ?_
  refine (Except.FailsOnly.forM fun e he => ?_).bind fun _ _ => ?_
  · exact (schema.types.checkTree_pointsTo (h.types e he)).mapError fun _ hp => hp.orLocation _
  · refine (Except.FailsOnly.foldlM fun settled name _ => ?_).bind fun _ _ => trivial
    exact followReferences_pointsTo schema.types [] settled name none h.types nofun fun hne => (hne rfl).elim

/-- **Compiling a schema** fails at one of the places where the schema and the registered types are written. -/
theorem compile_pointsTo (h : schema.LiesIn places) {named : List (String × RegisteredType)}
    (hnamed : ∀ e ∈ named, e.2.schema.LiesIn places) (rules : EnumRules) :
    (schema.compile named rules).FailsOnly (Problem.PointsTo places) := by
  refine (resolveEnums_meets (h.register hnamed) rules).bind fun resolved hresolved => ?_
  refine (expand_meets hresolved).bind fun expanded hexpanded => ?_
  exact (check_pointsTo hexpanded).bind fun _ _ => trivial

end Schema
end ExampleSchema
