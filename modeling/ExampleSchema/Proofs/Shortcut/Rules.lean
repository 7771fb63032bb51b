import ExampleSchema.Note.Rules
import ExampleSchema.Proofs.Json.Writing
import ExampleSchema.Proofs.Literals
import ExampleSchema.Proofs.Shortcut.Written

/-!
# Rules that name types

The value of a rule names types as a shortcut or in quotes.  Both say the same: a rule with one name takes it from
either, and a list may have its names in quotes, as shortcuts of several names, or some in one way and some in the
other.

* `RuleValue.Quotes`: a value that is a name in quotes.
* `RuleValue.SpellsOut`: a list of values, and the same list with the names of its shortcuts in quotes.
* `RuleValue.constraint_eq_of_isWrittenAs`, `RuleValue.constraint_eq_of_quotes`: the constraint of a rule with one name.
* `RuleValue.memberNames_eq`, `RuleValue.allOfNamesOf_eq`: listed names, spelt in both ways.
* `Shortcut.interchangeable`: what a scan and the rules make of shortcuts.
-/

namespace ExampleSchema

/-- The name of a built-in type is not the name of a user's type. -/
theorem BuiltinType.ofName?_of_isUserTypeName {name : String} (h : isUserTypeName name = true) :
    BuiltinType.ofName? name = none := by
  refine List.find?_eq_none.2 fun type _ hname => ?_
  rw [← beq_iff_eq.1 hname] at h
  cases type <;> revert h <;> decide

namespace RuleValue

variable {rule : String} {u : Unnamed} {mark : Mark} {name : String} {names : List String} {value : RuleValue}
  {values others : List RuleValue}

/-- A value is the name of a type in quotes. -/
def Quotes (value : RuleValue) (name : String) : Prop :=
  isUserTypeName name = true ∧ ∃ mark, value = .literal mark ∧ Quoted.decode? mark.bytes = some name

/-- Some values, and the same values with the names of the shortcuts among them in quotes, each on its own. -/
inductive SpellsOut : List RuleValue → List RuleValue → Prop
  | nil : SpellsOut [] []
  | same (value : RuleValue) {values others : List RuleValue} (h : SpellsOut values others) :
    SpellsOut (value :: values) (value :: others)
  | shortcut {mark : Mark} {names : List String} {quoted values others : List RuleValue}
    (hmark : Shortcut.IsWrittenAs names mark.bytes) (hquoted : List.Forall₂ Quotes quoted names)
    (h : SpellsOut values others) : SpellsOut (.shortcut mark :: values) (quoted ++ others)

/-! ## One name -/

theorem Quotes.string?_eq (h : value.Quotes name) : value.string? = .ok (some name) := by
  obtain ⟨-, mark, rfl, hdecode⟩ := h
  have htext := Literal.string_eq_ok_iff.2 hdecode
  rw [string?, Literal.isString, Literal.jsonType_of_string_eq_ok htext, htext]
  rfl

theorem Quotes.allOfNames_eq (h : value.Quotes name) : value.allOfNames = .ok [name] := by
  have hstring := h.string?_eq
  obtain ⟨hname, mark, rfl, -⟩ := h
  rw [allOfNames, hstring]
  change (do return [← Verdict.anywhere (readAllOfName name)]) = _
  rw [readAllOfName, if_pos hname]
  rfl

theorem Quotes.memberNamesOf_eq (h : value.Quotes name) (rule : String) (u : Unnamed) :
    value.memberNamesOf rule u = .ok ([name], u) := by
  obtain ⟨hname, mark, rfl, hdecode⟩ := h
  have htext := Literal.string_eq_ok_iff.2 hdecode
  have hmember : memberOfName u mark = .ok (name, u) := by
    rw [memberOfName, htext]
    change (if isUserTypeName name = true then _ else _) = _
    rw [if_pos hname]
    rfl
  rw [memberNamesOf, Literal.isString, Literal.jsonType_of_string_eq_ok htext, hmember]
  rfl

theorem singleName_eq (h : Shortcut.IsWrittenAs [name] mark.bytes) (kind : ConstraintKind) (expected : Expected) :
    singleName kind expected mark = .ok name := by
  rw [singleName, Shortcut.names_eq_ok h]
  rfl

/-- What a rule says that has one name for its value. -/
def named? (name : String) : ConstraintKind → Option Constraint
  | .type => some (.type (.user name))
  | .enum => some (.enum (.ofRule name))
  | .additionalProperties => some (.additionalProperties (.user name))
  | .allOf => some (.allOf [name])
  | _ => none

theorem ofName?_of_named? {kind : ConstraintKind} {c : Constraint} (hc : named? name kind = some c) :
    ConstraintKind.ofName? kind.name = some kind := by
  cases kind <;> cases hc <;> decide

/-- **A rule with a shortcut of one name.** -/
theorem constraint_eq_of_isWrittenAs (h : Shortcut.IsWrittenAs [name] mark.bytes) {kind : ConstraintKind}
    {c : Constraint} (hc : named? name kind = some c) (key : Mark) :
    (shortcut mark).constraint kind.name key = .ok c := by
  rw [constraint, ofName?_of_named? hc]
  cases kind <;> cases hc
  case type => rw [typeName, singleName_eq h]; rfl
  case enum => rw [enumeration, singleName_eq h]; rfl
  case additionalProperties => rw [additional, singleName_eq h]; rfl
  case allOf => rw [allOfNames, Shortcut.names_eq_ok h]; rfl

/-- **A rule with a name in quotes.** -/
theorem constraint_eq_of_quotes (h : value.Quotes name) {kind : ConstraintKind} {c : Constraint}
    (hc : named? name kind = some c) (key : Mark) : value.constraint kind.name key = .ok c := by
  have hstring := h.string?_eq
  obtain ⟨hname, mark, rfl, hdecode⟩ := h
  have hbuiltin := BuiltinType.ofName?_of_isUserTypeName hname
  rw [constraint, ofName?_of_named? hc]
  cases kind <;> cases hc
  case type =>
    have htype : (literal mark).typeName = .ok (.user name) := by
      rw [typeName, hstring]
      · change Verdict.anywhere (TypeName.read name) = _
        rw [TypeName.read, hbuiltin, if_pos hname]
        rfl
      · rintro _ ⟨⟩
    rw [htype]
    rfl
  case enum =>
    have henum : (literal mark).enumeration = .ok (.ofRule name) := by
      rw [enumeration, hstring]
      · change (if isUserTypeName name = true then _ else _) = _
        rw [if_pos hname]
        rfl
      · rintro _ _ ⟨⟩
      · rintro _ ⟨⟩
    rw [henum]
    rfl
  case additionalProperties =>
    have htext := Literal.string_eq_ok_iff.2 hdecode
    have htype := Literal.jsonType_of_string_eq_ok htext
    rw [← LiteralKey.jsonType_trim] at htype
    have hread : Additional.read mark.bytes = .ok (.user name) := by
      rw [Additional.read, htype]
      dsimp only
      rw [Literal.string_trim htext, Except.ok_bind, Additional.ofName, hbuiltin]
      rfl
    have hadditional : (literal mark).additional = .ok (.user name) := by
      rw [additional, literalOf, Except.ok_bind, hread]
      · rfl
      · rintro _ ⟨⟩
    rw [hadditional]
    rfl
  case allOf =>
    rw [Quotes.allOfNames_eq ⟨hname, mark, rfl, hdecode⟩]
    rfl

/-! ## Listed names -/

/-- The names of a shortcut in front of others. -/
theorem memberNames_shortcut (h : Shortcut.IsWrittenAs names mark.bytes) :
    memberNames rule u (shortcut mark :: values) =
      (memberNames rule u values).map (Prod.map (names ++ ·) id) := by
  rw [memberNames, memberNamesOf, Shortcut.names_eq_ok h]
  rfl

/-- Names in quotes in front of others. -/
theorem memberNames_quoted {quoted : List RuleValue} (h : List.Forall₂ Quotes quoted names) :
    memberNames rule u (quoted ++ values) =
      (memberNames rule u values).map (Prod.map (names ++ ·) id) := by
  induction h with
  | nil =>
    rw [List.nil_append]
    cases memberNames rule u values <;> rfl
  | @cons value name quoted names hvalue _ ih =>
    rw [List.cons_append, memberNames, hvalue.memberNamesOf_eq, Except.ok_bind]
    dsimp only
    rw [ih]
    cases memberNames rule u values <;> rfl

/-- **The members of a union** are the same with all names in quotes. -/
theorem memberNames_eq (h : SpellsOut values others) : memberNames rule u values = memberNames rule u others := by
  induction h generalizing u with
  | nil => rfl
  | same value _ ih => rw [memberNames, memberNames]; simp only [ih]
  | shortcut hmark hquoted _ ih => rw [memberNames_shortcut hmark, memberNames_quoted hquoted, ih]

theorem allOfNamesOf_shortcut (h : Shortcut.IsWrittenAs names mark.bytes) :
    allOfNamesOf (shortcut mark :: values) = (allOfNamesOf values).map (names ++ ·) := by
  rw [allOfNamesOf, allOfNames, Shortcut.names_eq_ok h]
  rfl

theorem allOfNamesOf_quoted {quoted : List RuleValue} (h : List.Forall₂ Quotes quoted names) :
    allOfNamesOf (quoted ++ values) = (allOfNamesOf values).map (names ++ ·) := by
  induction h with
  | nil =>
    rw [List.nil_append]
    cases allOfNamesOf values <;> rfl
  | @cons value name quoted names hvalue _ ih =>
    rw [List.cons_append, allOfNamesOf, hvalue.allOfNames_eq]
    change (do return [name] ++ (← allOfNamesOf (quoted ++ values))) = _
    rw [ih]
    cases allOfNamesOf values <;> rfl

/-- **The types of an `allOf` rule** are the same with all names in quotes. -/
theorem allOfNamesOf_eq (h : SpellsOut values others) : allOfNamesOf values = allOfNamesOf others := by
  induction h with
  | nil => rfl
  | same value _ ih => rw [allOfNamesOf, allOfNamesOf, ih]
  | shortcut hmark hquoted _ ih => rw [allOfNamesOf_shortcut hmark, allOfNamesOf_quoted hquoted, ih]

/-- Where a list has values, so has the list with the names in quotes. -/
theorem SpellsOut.isEmpty_eq (h : SpellsOut values others) : values.isEmpty = others.isEmpty := by
  cases h with
  | nil => rfl
  | same => rfl
  | shortcut hmark hquoted =>
    obtain ⟨name, names, rfl⟩ := List.exists_cons_of_ne_nil hmark.ne_nil
    cases hquoted
    rfl

/-! ## The constraints of a rule -/

/-- The constraints of one rule, and the types of its union members, if they can be made out. -/
def built? (rule : String) (value : RuleValue) (u : Unnamed) (key : Mark) : Option (List Constraint × Unnamed) :=
  (constraintsOf u [(rule, key, value)]).toOption.map (Prod.map (List.map Rule.constraint) id)

theorem built?_of_union (hrule : isUnion rule = true) (value : RuleValue) (u : Unnamed) (key : Mark) :
    value.built? rule u key =
      (value.unionNames rule u).toOption.map (Prod.map (fun names => [.types names, .or]) id) := by
  rw [built?, constraintsOf, if_pos hrule]
  simp only [constraintsOf]
  cases value.unionNames rule u with
  | error p => rfl
  | ok found => rfl

theorem built?_of_constraint (hrule : isUnion rule = false) (value : RuleValue) (u : Unnamed) (key : Mark) :
    value.built? rule u key = (value.constraint rule key).toOption.map fun c => ([c], u) := by
  rw [built?, constraintsOf, if_neg (Bool.eq_false_iff.1 hrule)]
  simp only [constraintsOf]
  cases value.constraint rule key with
  | error p => rfl
  | ok c => rfl

/-- What a rule says that lists some names. -/
def listed? (names : List String) : ConstraintKind → Option (List Constraint)
  | .or | .types => some [.types names, .or]
  | .allOf => some [.allOf names]
  | _ => none

theorem constraint_allOf (value : RuleValue) (key : Mark) :
    value.constraint ConstraintKind.allOf.name key = Constraint.allOf <$> value.allOfNames := by
  have hkind : ConstraintKind.ofName? ConstraintKind.allOf.name = some .allOf := by decide
  rw [constraint, hkind]

/-- **What a rule makes of a value that lists some names**, whatever way they are listed in. -/
theorem built?_eq_some {kind : ConstraintKind} {cs : List Constraint} (hcs : listed? names kind = some cs)
    (hunion : ∀ rule u, value.unionNames rule u = .ok (names, u)) (hallOf : value.allOfNames = .ok names) (key : Mark)
    (u : Unnamed) : value.built? kind.name u key = some (cs, u) := by
  cases kind <;> cases hcs
  case or => rw [built?_of_union (by decide), hunion]; rfl
  case types => rw [built?_of_union (by decide), hunion]; rfl
  case allOf => rw [built?_of_constraint (by decide), constraint_allOf, hallOf]; rfl

theorem built?_shortcut (h : Shortcut.IsWrittenAs names mark.bytes) {kind : ConstraintKind} {cs : List Constraint}
    (hcs : listed? names kind = some cs) (key : Mark) (u : Unnamed) :
    (shortcut mark).built? kind.name u key = some (cs, u) := by
  refine built?_eq_some hcs (fun rule u => ?_) ?_ key u
  · rw [unionNames, Shortcut.names_eq_ok h]
    rfl
  · rw [allOfNames, Shortcut.names_eq_ok h]

theorem built?_quoted {quoted : List RuleValue} (hquoted : List.Forall₂ Quotes quoted names) (hne : names ≠ [])
    {kind : ConstraintKind} {cs : List Constraint} (hcs : listed? names kind = some cs) (key : Mark) (u : Unnamed) :
    (array mark quoted).built? kind.name u key = some (cs, u) := by
  have hempty : quoted.isEmpty = false := by
    obtain ⟨name, names, rfl⟩ := List.exists_cons_of_ne_nil hne
    cases hquoted
    rfl
  refine built?_eq_some hcs (fun rule u => ?_) ?_ key u
  · have hmembers : memberNames rule u (quoted ++ []) = _ := memberNames_quoted hquoted
    rw [List.append_nil, memberNames] at hmembers
    rw [unionNames, hempty, hmembers]
    exact congrArg (fun names => Except.ok (names, u)) (List.append_nil names)
  · have hnames : allOfNamesOf (quoted ++ []) = _ := allOfNamesOf_quoted hquoted
    rw [List.append_nil, allOfNamesOf] at hnames
    rw [allOfNames, hnames]
    exact congrArg Except.ok (List.append_nil names)

/-- **A rule with a list**, some names of which are written in shortcuts, and the same rule with all of these in
quotes. -/
theorem built?_spelt (h : SpellsOut values others) {kind : ConstraintKind} (hkind : (listed? [] kind).isSome = true)
    (mark' key : Mark) (u : Unnamed) :
    (array mark values).built? kind.name u key = (array mark' others).built? kind.name u key := by
  have hunion (rule : String) (u : Unnamed) :
      ((array mark values).unionNames rule u).toOption = ((array mark' others).unionNames rule u).toOption := by
    rw [unionNames, unionNames, h.isEmpty_eq, memberNames_eq h]
    split <;> rfl
  have hallOf : (array mark values).allOfNames = (array mark' others).allOfNames := by
    rw [allOfNames, allOfNames, allOfNamesOf_eq h]
  cases kind <;> cases hkind
  case or => rw [built?_of_union (by decide), built?_of_union (by decide), hunion]
  case types => rw [built?_of_union (by decide), built?_of_union (by decide), hunion]
  case allOf =>
    rw [built?_of_constraint (by decide), built?_of_constraint (by decide), constraint_allOf, constraint_allOf, hallOf]

end RuleValue

/-- **Shortcuts and names in quotes are interchangeable.**  Where a value may start, outside notes and in them, a scan
takes names that are written as a shortcut as one token, whatever blanks stand around the bars, and the names can be
read off the token.  A rule that has one name says the same if the name is a shortcut and if it stands in quotes, and so
does a rule that has several if they are a shortcut, if they are listed in quotes, and if they are listed as shortcuts
of some of them among others in quotes. -/
theorem Shortcut.interchangeable :
    (∀ (o : Scan.Options) (s : Scan.State) (p next : Scan.Place) (i : Nat) (names : List String)
      (text blanks rest : Bytes),
      IsWrittenAs names text → o.plain = false → s.mode = .between p → p.afterValue? = some next →
      s.opened.head?.map Prod.fst = p.container? → (∀ b ∈ blanks, Scan.State.isInnerBlank b = true) →
      Scan.EndsShortcut rest →
      ∃ e, Scan.readFrom o s i (text ++ (blanks ++ rest)) =
        Scan.readFrom o ((s.past next (i + text.length) (Scan.wrapped next i (i + text.length)
          (enclosed (if s.inNote then .typesShortcut else .mixedValue) i (i + text.length) []))).noted e)
          (i + text.length + blanks.length) rest) ∧
    (∀ (names : List String) (text blanks : Bytes), IsWrittenAs names text →
      (∀ b ∈ blanks, Scan.State.isInnerBlank b = true) → Scan.read {} (text ++ blanks) =
        ⟨[⟨.opening .mixedValue, 0, 0⟩, ⟨.closing .mixedValue, 0, text.length⟩, ⟨.endTop, text.length, text.length⟩],
          none⟩) ∧
    (∀ names mark, IsWrittenAs names mark.bytes → Shortcut.names mark = .ok names) ∧
    (∀ name mark (value : RuleValue) kind c u key, IsWrittenAs [name] mark.bytes → value.Quotes name →
      RuleValue.named? name kind = some c →
      (RuleValue.shortcut mark).built? kind.name u key = some ([c], u) ∧
        value.built? kind.name u key = some ([c], u)) ∧
    (∀ names mark mark' quoted kind cs u key, IsWrittenAs names mark.bytes →
      List.Forall₂ RuleValue.Quotes quoted names →
      RuleValue.listed? names kind = some cs →
      (RuleValue.shortcut mark).built? kind.name u key = some (cs, u) ∧
        (RuleValue.array mark' quoted).built? kind.name u key = some (cs, u)) ∧
    ∀ values others mark mark' kind u key, RuleValue.SpellsOut values others →
      (RuleValue.listed? [] kind).isSome = true →
      (RuleValue.array mark values).built? kind.name u key = (RuleValue.array mark' others).built? kind.name u key := by
  refine ⟨fun o s p next i names text blanks rest h hplain hmode hnext hcontainer hblanks hrest =>
      Scan.readFrom_shortcut h hplain hmode hnext hcontainer hblanks hrest,
    fun names text blanks h hblanks => Scan.read_shortcut h rfl hblanks, fun names mark h => names_eq_ok h,
    fun name mark value kind c u key h hvalue hc => ?_,
    fun names mark mark' quoted kind cs u key h hquoted hcs =>
      ⟨RuleValue.built?_shortcut h hcs key u, RuleValue.built?_quoted hquoted h.ne_nil hcs key u⟩,
    fun values others mark mark' kind u key h hkind => RuleValue.built?_spelt h hkind mark' key u⟩
  have hrule : RuleValue.isUnion kind.name = false := by
    cases kind <;> cases hc <;> decide
  rw [RuleValue.built?_of_constraint hrule, RuleValue.built?_of_constraint hrule,
    RuleValue.constraint_eq_of_isWrittenAs h hc, RuleValue.constraint_eq_of_quotes hvalue hc]
  exact ⟨rfl, rfl⟩

end ExampleSchema
