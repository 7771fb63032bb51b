import ExampleSchema.Proofs.Location.Basic

/-!
# Where problems with rules point

Reading the value of a rule fails at the value, at a part of it, or without a place.  Whoever reads the rules
says where the value is, so no problem with rules is left without a place.

* `RuleValue.LiesIn`: a value of a rule is written at some places, and so is each part of it.
* `RuleValue.constraint_meets`: a rule that is no union.
* `RuleValue.constraintsOf_meets`: the rules of a note, with the types that are made of union members.
-/

namespace ExampleSchema

variable {places : Location → Prop}

/-! ## Registries -/

/-- The trees of the registered types are written at some places. -/
def Registry.LiesIn (places : Location → Prop) (types : Registry) : Prop := ∀ e ∈ types, e.2.root.LiesIn places

theorem Registry.LiesIn.insert {types : Registry} (h : types.LiesIn places) {entry : TypeEntry}
    (hentry : entry.root.LiesIn places) (name : String) :
    Registry.LiesIn places (Catalog.insert types name entry) := by
  intro e he
  rcases Catalog.mem_or_eq_of_mem_insert he with he | rfl
  · exact h e he
  · exact hentry

theorem Registry.LiesIn.insertNew {types : Registry} (h : types.LiesIn places) {entry : TypeEntry}
    (hentry : entry.root.LiesIn places) (name : String) :
    Registry.LiesIn places (Catalog.insertNew types name entry) := by
  intro e he
  rcases Catalog.mem_or_eq_of_mem_insertNew he with he | rfl
  · exact h e he
  · exact hentry

theorem Unnamed.liesIn_register {u : Unnamed} (hu : u.types.LiesIn places) {root : Node}
    (hroot : root.LiesIn places) (start : Nat) : (u.register root start).2.types.LiesIn places :=
  hu.insert hroot _

namespace RuleValue

/-! ## Values -/

/-- The value of a rule is written at some places, with its parts and the names of its rules. -/
inductive LiesIn (places : Location → Prop) : RuleValue → Prop where
  | literal {mark : Mark} (hmark : mark.LiesIn places) : LiesIn places (.literal mark)
  | shortcut {mark : Mark} (hmark : mark.LiesIn places) : LiesIn places (.shortcut mark)
  | array {mark : Mark} {items : List RuleValue} (hmark : mark.LiesIn places)
      (hitems : ∀ item ∈ items, LiesIn places item) : LiesIn places (.array mark items)
  | object {mark : Mark} {rules : List (String × Mark × RuleValue)} (hmark : mark.LiesIn places)
      (hkeys : ∀ rule ∈ rules, rule.2.1.LiesIn places) (hvalues : ∀ rule ∈ rules, LiesIn places rule.2.2) :
      LiesIn places (.object mark rules)

variable {value : RuleValue}

theorem LiesIn.mark (h : value.LiesIn places) : value.mark.LiesIn places := by cases h <;> assumption

theorem literalOf_meets (h : value.LiesIn places) (rule : ConstraintKind) :
    (value.literalOf rule).Meets (Mark.LiesIn places) (Problem.PointsTo places) := by
  cases h with
  | literal hmark => exact hmark
  | shortcut hmark | array hmark | object hmark => exact Cause.on_pointsTo _ hmark

theorem string?_pointsTo (h : value.LiesIn places) : value.string?.FailsOnly (Problem.PointsTo places) := by
  cases h with
  | literal hmark =>
    unfold string?
    exact .ite ((Verdict.on_pointsTo _ hmark).bind fun _ _ => trivial) trivial
  | shortcut | array | object => trivial

theorem unfit_staysIn {α : Type} (rule : ConstraintKind) (expected : Expected) :
    (unfit rule expected : Outcome α).FailsOnly (Problem.StaysIn places) := Cause.anywhere_staysIn _

theorem singleName_staysIn {mark : Mark} (hmark : mark.LiesIn places) (rule : ConstraintKind)
    (expected : Expected) : (singleName rule expected mark).FailsOnly (Problem.StaysIn places) := by
  refine (Outcome.staysIn (Shortcut.names_pointsTo hmark)).bind fun names _ => ?_
  split
  · trivial
  · exact unfit_staysIn rule expected

/-! ## Rules without unions -/

theorem typeName_staysIn (h : value.LiesIn places) : value.typeName.FailsOnly (Problem.StaysIn places) := by
  unfold typeName
  split
  · next mark => exact (singleName_staysIn h.mark _ _).bind fun _ _ => trivial
  · refine (Outcome.staysIn (string?_pointsTo h)).bind fun name? _ => ?_
    split
    · exact Verdict.anywhere_staysIn _
    · exact unfit_staysIn _ _

mutual
theorem allOfNames_staysIn : ∀ value : RuleValue, value.LiesIn places →
    value.allOfNames.FailsOnly (Problem.StaysIn places)
  | shortcut mark, h => by
    rw [allOfNames]
    exact Outcome.staysIn (Shortcut.names_pointsTo h.mark)
  | array _ items, .array _ hitems => by
    rw [allOfNames]
    exact Outcome.staysIn (allOfNamesOf_pointsTo items hitems)
  | literal mark, h => by
    rw [allOfNames]
    refine (Outcome.staysIn (string?_pointsTo h)).bind fun name? _ => ?_
    split
    · exact (Verdict.anywhere_staysIn _).bind fun _ _ => trivial
    · exact unfit_staysIn _ _
  | object _ _, _ => by
    rw [allOfNames]
    exact unfit_staysIn _ _

theorem allOfNamesOf_pointsTo : ∀ items : List RuleValue, (∀ item ∈ items, item.LiesIn places) →
    (allOfNamesOf items).FailsOnly (Problem.PointsTo places)
  | [], _ => by
    rw [allOfNamesOf]
    trivial
  | item :: rest, h => by
    rw [allOfNamesOf]
    obtain ⟨hitem, hrest⟩ := List.forall_mem_cons.1 h
    refine (Outcome.orOn_meets (allOfNames_staysIn item hitem) hitem.mark).bind fun _ _ => ?_
    exact (allOfNamesOf_pointsTo rest hrest).bind fun _ _ => trivial
end

theorem enumeration_staysIn (h : value.LiesIn places) :
    value.enumeration.FailsOnly (Problem.StaysIn places) := by
  unfold enumeration
  split
  · next mark items =>
    obtain ⟨-, hitems⟩ : mark.LiesIn places ∧ ∀ item ∈ items, item.LiesIn places := by
      cases h with
      | array hmark hitems => exact ⟨hmark, hitems⟩
    refine Outcome.staysIn (Except.FailsOnly.foldlM fun e item hitem => ?_)
    exact (literalOf_meets (hitems item hitem) _).bind fun mark hmark => Verdict.on_pointsTo _ hmark
  · next mark => exact (singleName_staysIn h.mark _ _).bind fun _ _ => trivial
  · refine (Outcome.staysIn (string?_pointsTo h)).bind fun name? _ => ?_
    split
    · exact .ite trivial (unfit_staysIn _ _)
    · exact unfit_staysIn _ _

theorem additional_staysIn (h : value.LiesIn places) : value.additional.FailsOnly (Problem.StaysIn places) := by
  unfold additional
  split
  · next mark => exact (singleName_staysIn h.mark _ _).bind fun _ _ => trivial
  · exact (Outcome.staysIn (literalOf_meets h _)).bind fun mark _ => Verdict.anywhere_staysIn _

/-- **A rule that is no union** becomes a constraint, which is no format, or its name, its value or a part of
that is to blame. -/
theorem constraint_meets (h : value.LiesIn places) {key : Mark} (hkey : key.LiesIn places) (name : String) :
    (value.constraint name key).Meets (fun c => ∀ format, c.kind ≠ .format format) (Problem.StaysIn places) := by
  have hunknown : ((Cause.unknownRule name).on key).StaysIn places := (Cause.on_pointsTo _ hkey).staysIn
  unfold constraint
  dsimp only
  split
  · exact hunknown
  · exact (typeName_staysIn h).bind fun _ _ => nofun
  · exact (allOfNames_staysIn value h).bind fun _ _ => nofun
  · exact (enumeration_staysIn h).bind fun _ _ => nofun
  · exact (additional_staysIn h).bind fun _ _ => nofun
  · exact hunknown
  · next kind _ _ _ _ hformat _ =>
    refine (Outcome.staysIn (literalOf_meets h kind)).bind fun mark _ => ?_
    split
    · next verdict hread =>
      cases verdict with
      | error c => exact Cause.anywhere_staysIn c
      | ok c =>
        rintro format hkind
        rw [Constraint.kind_eq_of_read? hread] at hkind
        exact hformat format hkind
    · exact hunknown

/-! ## Unions -/

theorem memberNode_liesIn {basis : Mark} (hbasis : basis.LiesIn places) (type : TypeName) :
    (memberNode type basis).LiesIn places := by
  have hheader : ∀ jsonType, Header.LiesIn places { jsonType, basis } := fun _ => Header.liesIn_of_nil hbasis rfl
  unfold memberNode
  split <;> exact Node.liesIn_of_header (hheader _) rfl rfl

theorem memberOfRules_meets {mark : Mark} (hmark : mark.LiesIn places) {added : List Rule}
    (hadded : ∀ r ∈ added, r.IsWrittenIn places) :
    (memberOfRules mark added).Meets (Node.LiesIn places) (Problem.PointsTo places) := by
  unfold memberOfRules
  dsimp only
  refine Except.Meets.bind (Node.apply_meets ?_ hadded) fun node hnode => ?_
  · split
    · exact memberNode_liesIn hmark _
    · exact Node.liesIn_of_header (Header.liesIn_of_nil hmark rfl) rfl rfl
  · have hheader := hnode.isMarkedIn.header
    exact .ite (hnode.withHeader ⟨hheader.basis, hheader.rules, hheader.formats⟩) hnode

theorem memberOfName_meets {mark : Mark} (hmark : mark.LiesIn places) {u : Unnamed}
    (hu : u.types.LiesIn places) :
    (memberOfName u mark).Meets (fun named => named.2.types.LiesIn places) (Problem.PointsTo places) := by
  refine (Verdict.on_pointsTo _ hmark).bind fun name _ => ?_
  split
  · exact hu
  split
  · exact Cause.on_pointsTo _ hmark
  · refine (Node.apply_meets (memberNode_liesIn hmark _) ?_).bind fun node hnode => ?_
    · exact List.forall_mem_singleton.2 ⟨⟨mark, rfl, hmark⟩, nofun⟩
    · exact Unnamed.liesIn_register hu hnode _

mutual
/-- **The rules of a note** become constraints, each at the value of its rule, and types, or some rule or a part
of it is to blame. -/
theorem constraintsOf_meets (u : Unnamed) (hu : u.types.LiesIn places) :
    ∀ rules : List (String × Mark × RuleValue),
      (∀ rule ∈ rules, rule.2.1.LiesIn places ∧ rule.2.2.LiesIn places) →
      (constraintsOf u rules).Meets
        (fun built => (∀ r ∈ built.1, r.IsWrittenIn places) ∧ built.2.types.LiesIn places)
        (Problem.PointsTo places)
  | [], _ => by
    rw [constraintsOf]
    exact ⟨fun r hr => (List.not_mem_nil hr).elim, hu⟩
  | (name, key, value) :: rest, h => by
    rw [constraintsOf]
    obtain ⟨⟨hkey, hvalue⟩, hrest⟩ := List.forall_mem_cons.1 h
    refine (Outcome.orOn_meets (show Except.Meets _ (fun built : List Constraint × Unnamed =>
      (∀ c ∈ built.1, ∀ format, c.kind ≠ .format format) ∧ built.2.types.LiesIn places) _ from ?_)
      hvalue.mark).bind fun built hbuilt => ?_
    · split
      · refine (Outcome.staysIn (unionNames_meets name u hu value hvalue)).bind fun named hnamed => ?_
        exact ⟨List.forall_mem_cons.2 ⟨nofun, List.forall_mem_singleton.2 nofun⟩, hnamed⟩
      · refine (constraint_meets hvalue hkey name).bind fun c hc => ?_
        exact ⟨List.forall_mem_singleton.2 hc, hu⟩
    · obtain ⟨constraints, u'⟩ := built
      obtain ⟨hconstraints, hu'⟩ := hbuilt
      refine (constraintsOf_meets u' hu' rest hrest).bind fun others hothers => ?_
      refine ⟨fun r hr => ?_, hothers.2⟩
      rcases List.mem_append.1 hr with hr | hr
      · obtain ⟨c, hc, rfl⟩ := List.mem_map.1 hr
        exact ⟨⟨value.mark, rfl, hvalue.mark⟩, hconstraints c hc⟩
      · exact hothers.1 r hr

theorem unionNames_meets (rule : String) (u : Unnamed) (hu : u.types.LiesIn places) :
    ∀ value : RuleValue, value.LiesIn places → (value.unionNames rule u).Meets
      (fun named => named.2.types.LiesIn places) (Problem.PointsTo places)
  | shortcut mark, h => by
    rw [unionNames]
    exact (Shortcut.names_pointsTo h.mark).bind fun _ _ => hu
  | array mark items, .array hmark hitems => by
    rw [unionNames]
    exact .ite (Cause.on_pointsTo _ hmark) (memberNames_meets rule u hu items hitems)
  | literal mark, h | object mark _, h => by
    rw [unionNames]
    exact Cause.on_pointsTo _ h.mark

theorem memberNames_meets (rule : String) (u : Unnamed) (hu : u.types.LiesIn places) :
    ∀ items : List RuleValue, (∀ item ∈ items, item.LiesIn places) → (memberNames rule u items).Meets
      (fun named => named.2.types.LiesIn places) (Problem.PointsTo places)
  | [], _ => by
    rw [memberNames]
    exact hu
  | item :: rest, h => by
    rw [memberNames]
    obtain ⟨hitem, hrest⟩ := List.forall_mem_cons.1 h
    refine (memberNamesOf_meets rule u hu item hitem).bind fun named hnamed => ?_
    exact (memberNames_meets rule named.2 hnamed rest hrest).bind fun _ hothers => hothers

theorem memberNamesOf_meets (rule : String) (u : Unnamed) (hu : u.types.LiesIn places) :
    ∀ item : RuleValue, item.LiesIn places → (item.memberNamesOf rule u).Meets
      (fun named => named.2.types.LiesIn places) (Problem.PointsTo places)
  | shortcut mark, h => by
    rw [memberNamesOf]
    exact (Shortcut.names_pointsTo h.mark).bind fun _ _ => hu
  | object mark rules, .object hmark hkeys hvalues => by
    rw [memberNamesOf]
    split
    · have hrules := fun rule hrule => And.intro (hkeys rule hrule) (hvalues rule hrule)
      refine (constraintsOf_meets u hu rules hrules).bind fun built hbuilt => ?_
      refine (memberOfRules_meets hmark hbuilt.1).bind fun root hroot => ?_
      exact Unnamed.liesIn_register hbuilt.2 hroot _
    · exact Cause.on_pointsTo _ hmark
  | literal mark, h => by
    rw [memberNamesOf]
    split
    · exact (memberOfName_meets h.mark hu).bind fun _ hnamed => hnamed
    · exact Cause.on_pointsTo _ h.mark
  | array mark _, h => by
    rw [memberNamesOf]
    exact Cause.on_pointsTo _ h.mark
end

end RuleValue
end ExampleSchema
