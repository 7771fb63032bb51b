import ExampleSchema.Proofs.Accept.Visits

/-!
# Validation by levels

`Registry.accept` validates over a number of levels and stops at the first thing that settles the matter.
If the visits that it makes find what the nodes visited accept, then so does it; and if the visits never
nest deeper than the levels last, then by induction it does.

* `acceptTypes_eq_ok_iff`, `acceptObject_eq_ok_iff`, `acceptItems_eq_ok_iff`: the parts of one level.
* `accept_succ_eq_ok_iff`: one level.
* `accept_eq_ok_iff`, `Schema.accept_eq_ok_iff_accepts`: all levels.
-/

namespace ExampleSchema

theorem isOk_iff {o : Outcome Unit} : o.isOk = true ↔ o = .ok () := by
  cases o with
  | ok => exact ⟨fun _ => rfl, fun _ => rfl⟩
  | error => exact ⟨nofun, nofun⟩

/-- Trying candidates one after another finds one that accepts. -/
theorem acceptFirst_eq_ok_iff {α : Type} {P : α → Prop} {visit : α → Outcome Unit} {common : Problem}
    {candidates : List α}
    (h : ∀ before a after, candidates = before ++ a :: after → (∀ b ∈ before, ¬ P b) →
      (visit a = .ok () ↔ P a)) :
    acceptFirst visit common candidates = .ok () ↔ ∃ a ∈ candidates, P a := by
  have hany := List.any_iff_of_reached (f := fun a => (visit a).isOk)
    fun before a after hl hbefore => isOk_iff.trans (h before a after hl hbefore)
  unfold acceptFirst
  split
  · next a =>
    rw [h [] a [] rfl nofun]
    simp
  · rw [← hany]
    split
    · next hfound => simp [hfound]
    · next hfound => simp [hfound]

/-! ## One level -/

/-- The visits that a validation makes from some node and value find what the nodes visited accept. -/
def Registry.Agrees (types : Registry) (visit : Node → Value → Outcome Unit) (x : Node × Value) : Prop :=
  ∀ y, types.Visits x y → (visit y.1 y.2 = .ok () ↔ types.Accepts y.1 y.2)

variable {types : Registry} {visit : Node → Value → Outcome Unit} {node : Node} {value : Value}
  {header : Header} {properties : Properties} {mark : Mark} {name : String}

theorem Registry.root_eq_ok_iff {root : Node} :
    types.root name = .ok root ↔ types.root? name = some root := by
  rw [Registry.root]
  cases types.root? name <;> simp

/-- The root of a type is visited, if there is one. -/
theorem visit_root_eq_ok_iff {P : Node → Prop}
    (h : ∀ root, types.root? name = some root → (visit root value = .ok () ↔ P root)) :
    (do visit (← types.root name) value) = .ok () ↔ ∃ root ∈ types.root? name, P root := by
  rw [Except.bind_eq_ok_iff]
  constructor
  · rintro ⟨root, hroot, hvisit⟩
    have hroot := Registry.root_eq_ok_iff.1 hroot
    exact ⟨root, hroot, (h root hroot).1 hvisit⟩
  · rintro ⟨root, hroot, hP⟩
    exact ⟨root, Registry.root_eq_ok_iff.2 hroot, (h root hroot).2 hP⟩

/-- The types of a node are tried one after another. -/
theorem acceptTypes_eq_ok_iff (h : types.Agrees visit (node, value))
    (hopen : ¬ node.AcceptsAnyway value) :
    types.acceptTypes visit node.rules.typeNames value = .ok () ↔
      ∃ name ∈ node.rules.typeNames, ∃ root ∈ types.root? name, types.Accepts root value := by
  refine acceptFirst_eq_ok_iff fun before name after hnames hbefore => ?_
  refine visit_root_eq_ok_iff fun root hroot => ?_
  exact h (root, value) (.type hopen hnames hbefore hroot)

/-! ## Literals -/

theorem acceptLiteral_eq_ok_iff :
    node.acceptLiteral (.literal mark) = .ok () ↔ node.DescribesLiteral mark := by
  have hrules : (node.rules.forM fun r => Verdict.anywhere (r.constraint.check mark.bytes)) = .ok () ↔
      ∀ r ∈ node.rules, r.constraint.IsKept mark.bytes := by
    refine Except.forM_eq_ok_iff_of_reached fun before r after _ _ => ?_
    exact Except.mapError_eq_ok_iff
  rw [Node.acceptLiteral, Node.DescribesLiteral, ← hrules]
  by_cases htype : node.isOfOpenType = true ∨ (Value.literal mark).jsonType.fits node.jsonType = true
  · simp [htype]
  · simp [htype, wrongType]

/-- A text has a format if it is that of a string with the format. -/
theorem Format.check_stringValue_eq_ok_iff {format : Format} {bytes : Bytes} :
    (do format.check (← Literal.stringValue bytes)) = .ok () ↔
      ∃ text, Literal.stringValue bytes = .ok text ∧ format.accepts text = true := by
  have hformat : ∀ text, format.check text = .ok () ↔ format.accepts text = true := by
    intro text
    rw [Format.check]
    cases format.accepts text <;> simp
  rw [Except.bind_eq_ok_iff]
  simp only [hformat]

theorem BuiltinType.accept_eq_ok_iff {type : BuiltinType} :
    type.accept value = .ok () ↔ type.Admits value := by
  rw [BuiltinType.accept, BuiltinType.Admits]
  by_cases hopen : type.isUnrestricted = true
  · simp [hopen]
  · by_cases htype : type.jsonType = .mixed ∨ value.jsonType.fits type.jsonType = true
    · have htype' : (type.jsonType == .mixed || value.jsonType.fits type.jsonType) = true := by
        simpa using htype
      rw [if_neg hopen, if_pos htype']
      simp only [hopen, htype, false_or, true_and, Bool.false_eq_true]
      cases type.format? with
      | none => simp
      | some format =>
        change Except.mapError _ _ = _ ↔ _
        rw [Except.mapError_eq_ok_iff, Format.check_stringValue_eq_ok_iff]
        simp only [Option.mem_def, Option.some.injEq, forall_eq']
    · simp [hopen, htype, wrongType]

/-! ## Objects -/

/-- The declared properties are met one after another. -/
theorem acceptMembers_eq_ok_iff {members : List (String × Mark × Value)}
    (h : ∀ before key node after m value, properties = before ++ (key, node) :: after →
      (∀ p ∈ before, types.IsMet members p) → key.isShortcut = false →
        Catalog.find? members key.name = some (m, value) →
          (visit node value = .ok () ↔ types.Accepts node value)) :
    Properties.acceptMembers properties visit mark members = .ok () ↔
      ∀ p ∈ properties, types.IsMet members p := by
  refine Except.forM_eq_ok_iff_of_reached fun before p after hproperties hbefore => ?_
  obtain ⟨key, node⟩ := p
  cases hkey : key.isShortcut with
  | true => simp [Registry.IsMet, hkey]
  | false =>
    cases hmember : Catalog.find? members key.name with
    | some entry =>
      simp only [Registry.IsMet, hkey, hmember, Bool.false_eq_true, if_false, forall_const]
      exact h before key node after _ _ hproperties hbefore hkey hmember
    | none =>
      simp only [Registry.IsMet, hkey, hmember, Bool.false_eq_true, if_false, forall_const]
      cases node.isOptional <;> simp

/-- A check that says that something lets a member be there, if it passes. -/
theorem do_eq_ok_true_iff {o : Outcome Unit} : (do o; return true) = .ok true ↔ o = .ok () := by
  cases o <;> simp [pure, Except.pure]

/-- So does a visit of the root of a type. -/
theorem do_visit_root_eq_ok_true_iff : (do visit (← types.root name) value; return true) = .ok true ↔
    (do visit (← types.root name) value) = .ok () := by
  cases types.root name with
  | ok root => exact do_eq_ok_true_iff
  | error => exact ⟨nofun, nofun⟩

section Others

variable (h : ∀ y, types.VisitsOther header properties name value y →
  (visit y.1 y.2 = .ok () ↔ types.Accepts y.1 y.2))

include h

/-- The shortcuts are tried one after another. -/
theorem takes_iff (before : Properties) (p : PropertyKey × Node) (after : Properties)
    (hproperties : properties = before ++ p :: after)
    (hbefore : ∀ q ∈ before, ¬ q.1.Takes types types.Reads name) :
    (p.1.isShortcut && ((types.root? p.1.name).any fun root =>
        (visit root (.ofText "key" name)).isOk)) = true ↔ p.1.Takes types types.Reads name := by
  rw [PropertyKey.Takes, Bool.and_eq_true, Option.any_eq_true]
  refine and_congr_right fun hkey => exists_congr fun root => ?_
  rw [isOk_iff, Option.mem_def, Registry.reads_iff]
  refine and_congr_right fun hroot => ?_
  exact h (root, .ofText "key" name) (.name hproperties hbefore hkey hroot)

theorem shortcut?_eq_some_iff :
    Properties.shortcut? properties types visit name = some node ↔
      Properties.IsFirst properties types types.Reads name node := by
  rw [Properties.shortcut?, Option.map_eq_some_iff]
  constructor
  · rintro ⟨⟨key, node⟩, hfind, rfl⟩
    obtain ⟨before, after, hproperties, htakes, hbefore⟩ :=
      (List.find?_eq_some_iff_of_reached (takes_iff h)).1 hfind
    exact ⟨before, key, after, hproperties, htakes, hbefore⟩
  · rintro ⟨before, key, after, hproperties, htakes, hbefore⟩
    exact ⟨(key, node),
      (List.find?_eq_some_iff_of_reached (takes_iff h)).2 ⟨before, after, hproperties, htakes, hbefore⟩, rfl⟩

theorem shortcut?_eq_none_iff :
    Properties.shortcut? properties types visit name = none ↔
      ∀ p ∈ properties, ¬ p.1.Takes types types.Reads name := by
  rw [Properties.shortcut?, Option.map_eq_none_iff]
  exact List.find?_eq_none_iff_of_reached (takes_iff h)

/-- What the first shortcut that takes a name decides. -/
theorem acceptOther_eq_ok_true_iff_of_some
    (hshortcut : Properties.shortcut? properties types visit name = some node) :
    Properties.acceptOther properties header types visit name value = .ok true ↔
      types.Accepts node value := by
  have hfirst := (shortcut?_eq_some_iff h).1 hshortcut
  rw [Properties.acceptOther, hshortcut]
  change (do visit node value; return true) = Except.ok true ↔ _
  rw [do_eq_ok_true_iff]
  exact h (node, value) (.shortcut hfirst)

/-- What the rule on additional properties decides, where no shortcut takes the name. -/
theorem acceptOther_eq_ok_true_iff_of_none
    (hshortcut : Properties.shortcut? properties types visit name = none) :
    Properties.acceptOther properties header types visit name value = .ok true ↔
      types.AdmitsAdditional header value := by
  have hnone := (shortcut?_eq_none_iff h).1 hshortcut
  rw [Properties.acceptOther, hshortcut]
  dsimp only
  split
  · next hrule =>
    rw [Registry.AdmitsAdditional, hrule]
    exact iff_of_true rfl trivial
  · next type hrule =>
    rw [Registry.AdmitsAdditional, hrule, do_eq_ok_true_iff]
    exact BuiltinType.accept_eq_ok_iff
  · next type hrule =>
    rw [Registry.AdmitsAdditional, hrule, do_visit_root_eq_ok_true_iff]
    exact visit_root_eq_ok_iff fun root hroot => h (root, value) (.user hnone hrule hroot)
  · next hany hbuiltin huser =>
    refine iff_of_false (fun h => by cases h) fun hadmits => ?_
    rw [Registry.AdmitsAdditional] at hadmits
    split at hadmits
    · next hrule => exact hany hrule
    · next type hrule => exact hbuiltin type hrule
    · next type hrule => exact huser type hrule
    · exact hadmits

/-- An undeclared member is let be. -/
theorem acceptOther_eq_ok_true_iff :
    Properties.acceptOther properties header types visit name value = .ok true ↔
      types.Admits header properties name value := by
  rw [Registry.admits_iff]
  cases hshortcut : Properties.shortcut? properties types visit name with
  | some node =>
    rw [acceptOther_eq_ok_true_iff_of_some h hshortcut]
    have hfirst := (shortcut?_eq_some_iff h).1 hshortcut
    constructor
    · exact fun haccepts => Or.inl ⟨node, hfirst, haccepts⟩
    · rintro (⟨node', hfirst', haccepts⟩ | ⟨hnone, -⟩)
      · have hsame := hshortcut.symm.trans ((shortcut?_eq_some_iff h).2 hfirst')
        obtain rfl := Option.some.inj hsame
        exact haccepts
      · rw [(shortcut?_eq_none_iff h).2 hnone] at hshortcut
        cases hshortcut
  | none =>
    rw [acceptOther_eq_ok_true_iff_of_none h hshortcut]
    have hnone := (shortcut?_eq_none_iff h).1 hshortcut
    have hnoFirst : ¬ ∃ node, Properties.IsFirst properties types types.Reads name node ∧
        types.Accepts node value := by
      rintro ⟨node, hfirst, -⟩
      rw [(shortcut?_eq_some_iff h).2 hfirst] at hshortcut
      cases hshortcut
    rw [or_iff_right hnoFirst, and_iff_right hnone]

end Others

/-- A check that fails unless something lets a member be there. -/
theorem throw_unless_eq_ok_iff {o : Outcome Bool} {problem : Problem} :
    (do if !(← o) then throw problem : Outcome Unit) = .ok () ↔ o = .ok true := by
  cases o with
  | ok b => cases b <;> simp [throw, throwThe, MonadExceptOf.throw, pure, Except.pure]
  | error e => simp

/-- The members that no property declares by their name are let be one after another. -/
theorem acceptOthers_eq_ok_iff {members : List (String × Mark × Value)}
    (h : ∀ before name m value after, members = before ++ (name, m, value) :: after →
      (∀ member ∈ before, types.IsLet header properties member) →
        Properties.declared? properties name = none →
          ∀ y, types.VisitsOther header properties name value y →
            (visit y.1 y.2 = .ok () ↔ types.Accepts y.1 y.2)) :
    (members.forM fun (name, nameMark, value) => do
      if (Properties.declared? properties name).isNone then
        if !(← Properties.acceptOther properties header types visit name value) then
          throw ((Cause.additionalProperty name).on nameMark)) = .ok () ↔
      ∀ member ∈ members, types.IsLet header properties member := by
  refine Except.forM_eq_ok_iff_of_reached fun before member after hmembers hbefore => ?_
  obtain ⟨name, m, value⟩ := member
  cases hdeclared : Properties.declared? properties name with
  | some node => simp [Registry.IsLet, hdeclared, pure, Except.pure]
  | none =>
    simp only [Registry.IsLet, hdeclared, Option.isNone_none, if_true, forall_const]
    exact throw_unless_eq_ok_iff.trans
      (acceptOther_eq_ok_true_iff (h before name m value after hmembers hbefore hdeclared))

/-- **Objects** are accepted as the node describes them. -/
theorem acceptObject_eq_ok_iff (h : types.Agrees visit (.object header properties, value))
    (hopen : ¬ (Node.object header properties).AcceptsAnyway value)
    (hnames : header.rules.typeNames = []) :
    Properties.accept properties header types visit value = .ok () ↔
      types.Describes (.object header properties) value := by
  cases value with
  | object mark members =>
    have hdeclared := @acceptMembers_eq_ok_iff types visit properties mark members
      fun before key node after m value hproperties hbefore hkey hmember =>
        h (node, value) (.declared hopen hnames hproperties hbefore hkey hmember)
    have hothers : (∀ p ∈ properties, types.IsMet members p) → _ := fun hmet =>
      @acceptOthers_eq_ok_iff types visit header properties members
        fun before name m value after hmembers hbefore hother y hvisit =>
          h y (.other hopen hnames hmet hmembers hbefore hother hvisit)
    rw [Properties.accept, Registry.Describes, Except.bind_eq_ok_iff]
    constructor
    · rintro ⟨⟨⟩, haccept, hmembers⟩
      have hmet := hdeclared.1 haccept
      exact ⟨hmet, (hothers hmet).1 hmembers⟩
    · rintro ⟨hmet, hmembers⟩
      exact ⟨(), hdeclared.2 hmet, (hothers hmet).2 hmembers⟩
  | literal | array => exact ⟨nofun, nofun⟩

/-! ## Arrays -/

/-- Where the number of items is allowed, the items decide. -/
theorem acceptItems_eq {samples : List Node} {items : List Value}
    (hcount : header.AllowsCount items.length) :
    acceptItems header samples visit (.array mark items) =
      if samples.isEmpty then .ok ()
      else items.forM fun item =>
        acceptFirst (visit · item) (Cause.noMatchingItem.on item.mark) samples := by
  have hmin : ∀ least, header.rules.count? .minItems = some least → ¬ items.length < least :=
    fun least hleast => Nat.not_lt.2 (hcount.1 least hleast)
  have hmax : ∀ most, header.rules.count? .maxItems = some most → ¬ most < items.length :=
    fun most hmost => Nat.not_lt.2 (hcount.2 most hmost)
  have hitems : acceptItems header samples visit (.array mark items) =
      if !samples.isEmpty then
        items.forM fun item =>
          acceptFirst (visit · item) (Cause.noMatchingItem.on item.mark) samples
      else pure () := by
    rw [acceptItems]
    dsimp only
    split
    · next least hleast =>
      rw [if_neg (hmin least hleast)]
      split
      · next most hmost => rw [if_neg (hmax most hmost)]
      · rfl
    · split
      · next most hmost => rw [if_neg (hmax most hmost)]
      · rfl
  rw [hitems]
  cases samples <;> rfl

/-- Where it is not, nothing is accepted. -/
theorem acceptItems_ne_ok {samples : List Node} {items : List Value}
    (hcount : ¬ header.AllowsCount items.length) :
    acceptItems header samples visit (.array mark items) ≠ .ok () := by
  intro h
  rw [acceptItems] at h
  dsimp only at h
  refine hcount ⟨fun least hleast => Nat.not_lt.1 fun hless => ?_,
    fun most hmost => Nat.not_lt.1 fun hmore => ?_⟩
  · rw [Option.mem_def.1 hleast] at h
    simp only [if_pos hless] at h
    cases h
  · rw [Option.mem_def.1 hmost] at h
    simp only [if_pos hmore] at h
    split at h
    · split at h <;> cases h
    · cases h

/-- **Arrays** are accepted as the node describes them. -/
theorem acceptItems_eq_ok_iff {samples : List Node}
    (h : types.Agrees visit (.array header samples, value))
    (hopen : ¬ (Node.array header samples).AcceptsAnyway value)
    (hnames : header.rules.typeNames = []) :
    acceptItems header samples visit value = .ok () ↔
      types.Describes (.array header samples) value := by
  cases value with
  | array mark items =>
    have hitems : header.AllowsCount items.length →
        ((items.forM fun item => acceptFirst (visit · item) (Cause.noMatchingItem.on item.mark)
          samples) = .ok () ↔ ∀ item ∈ items, ∃ sample ∈ samples, types.Accepts sample item) := by
      intro hcount
      refine Except.forM_eq_ok_iff_of_reached fun first item more hitems hfirst => ?_
      refine acceptFirst_eq_ok_iff fun before sample after hsamples hbefore => ?_
      exact h (sample, item) (.item hopen hnames hcount hitems hfirst hsamples hbefore)
    rw [Registry.Describes]
    by_cases hcount : header.AllowsCount items.length
    · rw [acceptItems_eq hcount, and_iff_right hcount, ← hitems hcount]
      cases samples with
      | nil => simp
      | cons sample samples => simp
    · exact iff_of_false (acceptItems_ne_ok hcount) fun h => hcount h.1
  | literal | object => exact ⟨nofun, nofun⟩

/-! ## Nodes -/

/-- **What a node without types describes** is accepted. -/
theorem acceptSelf_eq_ok_iff (h : types.Agrees visit (node, value))
    (hopen : ¬ node.AcceptsAnyway value) (hnames : node.rules.typeNames = []) :
    node.acceptSelf types visit value = .ok () ↔ types.Describes node value := by
  cases node with
  | object header properties => exact acceptObject_eq_ok_iff h hopen hnames
  | array header samples => exact acceptItems_eq_ok_iff h hopen hnames
  | literal header sample? =>
    cases value with
    | literal mark => exact acceptLiteral_eq_ok_iff
    | object | array => exact ⟨nofun, nofun⟩
  | mixed header sample? =>
    cases value with
    | literal mark => exact acceptLiteral_eq_ok_iff
    | object | array => exact ⟨nofun, nofun⟩
  | reference => exact ⟨fun _ => trivial, fun _ => rfl⟩

/-- What is accepted anyway is accepted at any level. -/
theorem accept_succ_of_acceptsAnyway (levels : Nat) (h : node.AcceptsAnyway value) :
    types.accept (levels + 1) node value = .ok () := by
  rw [Registry.accept]
  rcases h with ⟨hnull, hnullable⟩ | ⟨type, htype, hopen⟩
  · rw [hnull, hnullable]
    rfl
  · rw [Option.mem_def.1 htype]
    simp [hopen]

/-- What is not accepted anyway is left to the types of the node, or to what it describes if it has none. -/
theorem accept_succ_of_not_acceptsAnyway {levels : Nat} (h : ¬ node.AcceptsAnyway value) :
    types.accept (levels + 1) node value =
      if node.rules.typeNames.isEmpty then
        Outcome.orOn (node.acceptSelf types (types.accept levels) value) value.mark
      else types.acceptTypes (types.accept levels) node.rules.typeNames value := by
  have hnull : (value.isNull && node.isNullable) = false := by
    rw [Bool.and_eq_false_iff]
    by_contra hnull
    exact h (Or.inl (by simpa using hnull))
  have hopen : node.header.declared?.any BuiltinType.isUnrestricted = false := by
    rw [← Bool.not_eq_true, Option.any_eq_true]
    exact fun hopen => h (Or.inr hopen)
  rw [Registry.accept, hnull, hopen]
  simp only [Bool.false_eq_true, if_false]

theorem accept_eq_acceptSelf {levels : Nat} (h : ¬ node.AcceptsAnyway value)
    (hnames : node.rules.typeNames = []) : types.accept (levels + 1) node value =
      Outcome.orOn (node.acceptSelf types (types.accept levels) value) value.mark := by
  rw [accept_succ_of_not_acceptsAnyway h, if_pos (by rw [hnames]; rfl)]

/-- **One level** of a validation accepts what the node does, if the visits that it makes find what the
nodes visited accept. -/
theorem accept_succ_eq_ok_iff {levels : Nat} (h : types.Agrees (types.accept levels) (node, value)) :
    types.accept (levels + 1) node value = .ok () ↔ types.Accepts node value := by
  rw [Registry.accepts_iff]
  by_cases hanyway : node.AcceptsAnyway value
  · exact iff_of_true (accept_succ_of_acceptsAnyway levels hanyway) (Or.inl hanyway)
  · rw [or_iff_right hanyway, accept_succ_of_not_acceptsAnyway hanyway]
    by_cases hnames : node.rules.typeNames = []
    · have hself := acceptSelf_eq_ok_iff h hanyway hnames
      have hnone : ¬ ∃ name ∈ node.rules.typeNames, ∃ root ∈ types.root? name,
          types.Accepts root value := by
        rw [hnames]
        rintro ⟨name, hname, -⟩
        cases hname
      rw [or_iff_right hnone, and_iff_right hnames, ← hself, if_pos (by rw [hnames]; rfl)]
      exact Except.mapError_eq_ok_iff
    · have hsome : ¬ (node.rules.typeNames = [] ∧ types.Describes node value) := fun hself =>
        hnames hself.1
      rw [or_iff_left hsome, if_neg (by simpa using hnames)]
      exact acceptTypes_eq_ok_iff h hanyway

/-- A validation over some levels accepts what the node does, if its visits do not nest deeper. -/
theorem accept_eq_ok_iff {levels : Nat} (h : types.VisitsWithin levels (node, value)) :
    types.accept (levels + 1) node value = .ok () ↔ types.Accepts node value := by
  induction levels generalizing node value with
  | zero =>
    have hnone := Registry.visitsWithin_zero_iff.1 h
    exact accept_succ_eq_ok_iff fun y hvisit => (hnone y hvisit).elim
  | succ levels ih =>
    have hnext := Registry.visitsWithin_succ_iff.1 h
    exact accept_succ_eq_ok_iff fun y hvisit => ih (hnext y hvisit)

/-- **Validation is acceptance.**  A schema accepts a value whose visits nest at most 512 deep exactly if
its root does. -/
theorem Schema.accept_eq_ok_iff_accepts (schema : Schema) (value : Value)
    (h : ∀ path, List.IsChain schema.types.Visits ((schema.root, value) :: path) →
      path.length ≤ 512) :
    schema.accept value = .ok () ↔ schema.types.Accepts schema.root value :=
  accept_eq_ok_iff h

/-- Arrays of integers, each of a registered type. -/
def Schema.integers : Schema where
  root := .array { jsonType := .array, basis := default }
    [.literal { jsonType := .integer, rules := [⟨.type (.user "@integer"), none⟩], basis := default } none]
  types := [("@integer", ⟨.literal { jsonType := .integer, basis := default } none, default, 0⟩)]

/-- The array `[1, 20]`. -/
def Value.oneTwenty : Value :=
  let source := Source.ofString "value" "[1, 20]"
  .array ⟨source, .closing .array, 0, 7⟩
    [.literal ⟨source, .closing .literal, 1, 2⟩, .literal ⟨source, .closing .literal, 4, 6⟩]

theorem Schema.integers_accepts :
    Schema.integers.types.Accepts Schema.integers.root Value.oneTwenty := by
  -- The array leads to its sample, the sample to the root of the type, and the root nowhere.
  have hvisits : Schema.integers.types.VisitsWithin 2 (Schema.integers.root, Value.oneTwenty) := by
    refine Registry.visitsWithin_succ_iff.2 fun ⟨sample, item⟩ hitem => ?_
    obtain rfl := List.mem_singleton.1 (hitem.of_array rfl)
    refine Registry.visitsWithin_succ_iff.2 fun ⟨root, item⟩ htype => ?_
    obtain ⟨name, hname, hroot⟩ := htype.of_literal
    obtain rfl := List.mem_singleton.1 hname
    obtain rfl := Option.some.inj hroot
    refine Registry.visitsWithin_zero_iff.2 fun y hnowhere => ?_
    obtain ⟨name, hname, -⟩ := hnowhere.of_literal
    cases hname
  exact (Schema.integers.accept_eq_ok_iff_accepts Value.oneTwenty (hvisits.mono (by decide))).1
    (by decide +kernel)

end ExampleSchema
