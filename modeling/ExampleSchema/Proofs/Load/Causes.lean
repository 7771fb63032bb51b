import ExampleSchema.Proofs.Scan.Step
import ExampleSchema.Schema.EnumRule
import ExampleSchema.Schema.Load

/-!
# What can be wrong with rules

Whatever is wrong with the rules of a note, with a shortcut or with an item of an enum rule is something
that the document can be blamed for, and that is told where documents are read: no reference has been followed by
then, and no value compared.  There is one lemma for each function that reads rules or applies them.

* `RuleValue.constraintsOf_ofReading`: the rules of a note.
* `Node.annotate_ofReading`: a node that is described by a note.
* `Shortcut.node_ofReading`, `Enumeration.append_ofReading`: shortcuts and items of enum rules.
-/

namespace ExampleSchema

/-- The cause is not a promise of the library that was broken. -/
def Cause.IsOrdinary (c : Cause) : Prop := c.code ≠ .internal

/-- The cause of the problem is not a promise of the library that was broken. -/
def Problem.IsOrdinary (p : Problem) : Prop := p.code ≠ .internal

/-- The cause is of the layers that read documents. -/
def Cause.IsOfReading (c : Cause) : Prop := c.code.isOfReading = true

/-- The cause of the problem is of the layers that read documents. -/
def Problem.IsOfReading (p : Problem) : Prop := p.code.isOfReading = true

/-- What fails in the layers that read documents breaks no promise. -/
theorem Outcome.ordinary {α : Type} {o : Outcome α} (h : o.FailsOnly Problem.IsOfReading) :
    o.FailsOnly Problem.IsOrdinary := h.imp (fun _ => id) fun _ => ErrorCode.ne_internal_of_isOfReading

theorem Verdict.on_ofReading {α : Type} {v : Verdict α} (h : v.FailsOnly Cause.IsOfReading) (m : Mark) :
    (v.on m).FailsOnly Problem.IsOfReading := h.mapError fun _ => id

theorem Verdict.anywhere_ofReading {α : Type} {v : Verdict α} (h : v.FailsOnly Cause.IsOfReading) :
    v.anywhere.FailsOnly Problem.IsOfReading := h.mapError fun _ => id

theorem Outcome.orOn_ofReading {α : Type} {o : Outcome α} (h : o.FailsOnly Problem.IsOfReading)
    (m : Mark) : (o.orOn m).FailsOnly Problem.IsOfReading := h.mapError fun _ => id

/-! ## Literals -/

theorem Literal.string_ofReading (literal : Bytes) :
    (string literal).FailsOnly Cause.IsOfReading := by
  unfold string
  split
  · trivial
  · rfl

theorem LiteralKey.ofBytes_ofReading (literal : Bytes) :
    (ofBytes literal).FailsOnly Cause.IsOfReading := by
  unfold ofBytes
  dsimp only
  split
  · exact Except.Meets.bind (Literal.string_ofReading _) fun _ _ => trivial
  iterate 4 trivial
  · rfl

theorem Enumeration.append_ofReading (e : Enumeration) (literal : Bytes) (comment : Option String) :
    (e.append literal comment).FailsOnly Cause.IsOfReading := by
  refine Except.Meets.bind (LiteralKey.ofBytes_ofReading literal) fun key _ => ?_
  dsimp only
  split
  · rfl
  · trivial

theorem TypeName.read_ofReading (name : String) : (read name).FailsOnly Cause.IsOfReading := by
  unfold read
  split
  · trivial
  · exact .ite trivial rfl

theorem Bound.read_ofReading (rule : String) (literal : Bytes) :
    (read rule literal).FailsOnly Cause.IsOfReading := by
  unfold read
  split
  · split
    · trivial
    · rfl
  · rfl

theorem Additional.read_ofReading (literal : Bytes) :
    (read literal).FailsOnly Cause.IsOfReading := by
  unfold read
  dsimp only
  split
  · trivial
  · exact Except.Meets.bind (Literal.string_ofReading _) fun _ _ => trivial
  · rfl

theorem readFlag_ofReading (rule : String) (literal : Bytes) :
    (readFlag rule literal).FailsOnly Cause.IsOfReading := by
  unfold readFlag
  exact .ite trivial (.ite trivial rfl)

theorem Literal.decimal_ofReading (literal : Bytes) :
    (decimal literal).FailsOnly Cause.IsOfReading := by
  unfold decimal
  split
  · trivial
  · rfl

theorem readWhole_ofReading (rule : String) (expected : Expected) (literal : Bytes) :
    (readWhole rule expected literal).FailsOnly Cause.IsOfReading := by
  unfold readWhole
  split
  · refine Except.Meets.bind (Literal.decimal_ofReading literal) fun number _ => ?_
    split
    · trivial
    · rfl
  · rfl

theorem readPrecision_ofReading (literal : Bytes) :
    (readPrecision literal).FailsOnly Cause.IsOfReading := by
  refine Except.Meets.bind (readWhole_ofReading _ _ literal) fun count _ => ?_
  exact .ite rfl trivial

theorem readAllOfName_ofReading (name : String) :
    (readAllOfName name).FailsOnly Cause.IsOfReading := by
  unfold readAllOfName
  exact .ite trivial rfl

theorem Pattern.read_ofReading (literal : Bytes) :
    (Pattern.read literal).FailsOnly Cause.IsOfReading := by
  unfold Pattern.read
  split
  · refine Except.Meets.bind (Literal.string_ofReading literal) fun text _ => ?_
    split
    · trivial
    · rfl
  · rfl

/-- A rule that is written as a literal. -/
theorem Constraint.read?_ofReading (rule : ConstraintKind) (literal : Bytes) :
    ∀ v ∈ Constraint.read? rule literal, v.FailsOnly Cause.IsOfReading := by
  have hmap {α : Type} {v : Verdict α} (h : v.FailsOnly Cause.IsOfReading) (f : α → Constraint) :
      ∀ w ∈ some (v.map f), Except.FailsOnly w Cause.IsOfReading := by
    rintro w ⟨⟩
    cases v <;> exact h
  cases rule with
  | min | max => exact hmap (Bound.read_ofReading _ _) _
  | exclusiveMinimum | exclusiveMaximum | optional | nullable | const =>
    exact hmap (readFlag_ofReading _ _) _
  | minLength | maxLength | minItems | maxItems => exact hmap (readWhole_ofReading _ _ _) _
  | precision => exact hmap (readPrecision_ofReading _) _
  | regex => exact hmap (Pattern.read_ofReading _) _
  | additionalProperties => exact hmap (Additional.read_ofReading _) _
  | type | types | or | allOf | enum | format _ => nofun

/-! ## Nodes -/

theorem Rules.add_ofReading (rules : Rules) (constraint : Constraint) (mark? : Option Mark) :
    (rules.add constraint mark?).FailsOnly Problem.IsOfReading := by
  unfold Rules.add
  exact .ite rfl trivial

namespace Header

variable (h : Header)

theorem addRules_ofReading (added : List Rule) : (h.addRules added).FailsOnly Problem.IsOfReading := by
  refine Except.Meets.bind (Except.FailsOnly.foldlM fun rules r _ => ?_) fun _ _ => trivial
  exact rules.add_ofReading r.constraint r.mark?

theorem declare_ofReading (type : BuiltinType) : (h.declare type).FailsOnly Problem.IsOfReading := by
  unfold declare
  cases type.format? with
  | none => trivial
  | some format =>
    dsimp only
    exact Except.Meets.bind (h.rules.add_ofReading (.format format) none) fun _ _ => trivial

theorem fillConstant_ofReading (sample? : Option Mark) :
    (h.fillConstant sample?).FailsOnly Problem.IsOfReading := by
  unfold fillConstant
  split
  · trivial
  · next sample =>
    split
    · have hkey := Verdict.on_ofReading (LiteralKey.ofBytes_ofReading sample.bytes) sample
      exact Except.Meets.bind hkey fun _ _ => trivial
    · trivial

theorem apply_ofReading (sample? : Option Mark) (added : List Rule) :
    (h.apply sample? added).FailsOnly Problem.IsOfReading := by
  refine Except.Meets.bind (h.addRules_ofReading added) fun h₁ _ => ?_
  dsimp only
  split
  · exact Except.Meets.bind (h₁.declare_ofReading _) fun h₂ _ =>
      h₂.linkBounds.fillConstant_ofReading sample?
  · exact h₁.linkBounds.fillConstant_ofReading sample?

theorem annotate_ofReading (note : Mark) (comment? : Option String) :
    (h.annotate note comment?).FailsOnly Problem.IsOfReading := by
  unfold annotate
  exact .ite rfl trivial

end Header

theorem Node.apply_ofReading (node : Node) (added : List Rule) :
    (node.apply added).FailsOnly Problem.IsOfReading := by
  refine Except.Meets.bind (node.header.apply_ofReading node.sample? added) fun header _ => ?_
  split
  · exact .ite trivial (.ite trivial trivial)
  · trivial

theorem Node.annotate_ofReading (node : Node) (note : Mark) (comment? : Option String)
    (added : List Rule) : (node.annotate note comment? added).FailsOnly Problem.IsOfReading :=
  Except.Meets.bind (node.header.annotate_ofReading note comment?) fun header _ =>
    (node.withHeader header).apply_ofReading added

theorem Shortcut.names_ofReading (mark : Mark) : (names mark).FailsOnly Problem.IsOfReading := by
  cases hnames : names mark with
  | ok names => trivial
  | error p =>
    obtain ⟨-, part, -, -, -, hpart⟩ := Except.mapM_eq_error_iff.1 hnames
    dsimp only at hpart
    split at hpart
    · cases hpart
    · cases hpart
      rfl

theorem Shortcut.node_ofReading (mark : Mark) : (node mark).FailsOnly Problem.IsOfReading := by
  refine Except.Meets.bind (names_ofReading mark) fun names _ => ?_
  exact Except.Meets.bind (Header.addRules_ofReading _ _) fun _ _ => trivial

/-! ## Rules -/

namespace RuleValue

theorem literalOf_ofReading (rule : ConstraintKind) (value : RuleValue) :
    (value.literalOf rule).FailsOnly Problem.IsOfReading := by
  cases value with
  | literal => trivial
  | shortcut | array | object => rfl

theorem string?_ofReading (value : RuleValue) : value.string?.FailsOnly Problem.IsOfReading := by
  unfold string?
  split
  · next mark =>
    split
    · have hstring := Verdict.on_ofReading (Literal.string_ofReading mark.bytes) mark
      exact Except.Meets.bind hstring fun _ _ => trivial
    · trivial
  · trivial

theorem singleName_ofReading (rule : ConstraintKind) (expected : Expected) (mark : Mark) :
    (singleName rule expected mark).FailsOnly Problem.IsOfReading := by
  refine Except.Meets.bind (Shortcut.names_ofReading mark) fun names _ => ?_
  split
  · trivial
  · rfl

theorem typeName_ofReading (value : RuleValue) : value.typeName.FailsOnly Problem.IsOfReading := by
  unfold typeName
  split
  · exact Except.Meets.bind (singleName_ofReading _ _ _) fun _ _ => trivial
  · refine Except.Meets.bind (string?_ofReading _) fun name? _ => ?_
    split
    · exact Verdict.anywhere_ofReading (TypeName.read_ofReading _)
    · rfl

mutual
theorem allOfNames_ofReading : ∀ value : RuleValue, value.allOfNames.FailsOnly Problem.IsOfReading
  | shortcut mark => by
    rw [allOfNames]
    exact Shortcut.names_ofReading mark
  | array _ items => by
    rw [allOfNames]
    exact allOfNamesOf_ofReading items
  | literal mark => by
    rw [allOfNames]
    refine Except.Meets.bind (string?_ofReading _) fun name? _ => ?_
    split
    · exact Except.Meets.bind (Verdict.anywhere_ofReading (readAllOfName_ofReading _)) fun _ _ => trivial
    · rfl
  | object _ _ => by
    rw [allOfNames]
    rfl

theorem allOfNamesOf_ofReading : ∀ items : List RuleValue,
    (allOfNamesOf items).FailsOnly Problem.IsOfReading
  | [] => by
    rw [allOfNamesOf]
    trivial
  | item :: rest => by
    rw [allOfNamesOf]
    refine Except.Meets.bind (Outcome.orOn_ofReading (allOfNames_ofReading item) item.mark) fun _ _ => ?_
    exact Except.Meets.bind (allOfNamesOf_ofReading rest) fun _ _ => trivial
end

theorem enumeration_ofReading (value : RuleValue) :
    value.enumeration.FailsOnly Problem.IsOfReading := by
  unfold enumeration
  split
  · refine Except.FailsOnly.foldlM fun e item _ => ?_
    refine Except.Meets.bind (item.literalOf_ofReading .enum) fun mark _ => ?_
    exact Verdict.on_ofReading (e.append_ofReading mark.bytes none) mark
  · exact Except.Meets.bind (singleName_ofReading _ _ _) fun _ _ => trivial
  · refine Except.Meets.bind (string?_ofReading _) fun name? _ => ?_
    split
    · exact .ite trivial rfl
    · rfl

theorem additional_ofReading (value : RuleValue) :
    value.additional.FailsOnly Problem.IsOfReading := by
  unfold additional
  split
  · exact Except.Meets.bind (singleName_ofReading _ _ _) fun _ _ => trivial
  · refine Except.Meets.bind (literalOf_ofReading _ _) fun mark _ => ?_
    exact Verdict.anywhere_ofReading (Additional.read_ofReading mark.bytes)

theorem constraint_ofReading (name : String) (key : Mark) (value : RuleValue) :
    (value.constraint name key).FailsOnly Problem.IsOfReading := by
  unfold constraint
  dsimp only
  split
  · rfl
  · exact Except.Meets.bind value.typeName_ofReading fun _ _ => trivial
  · exact Except.Meets.bind value.allOfNames_ofReading fun _ _ => trivial
  · exact Except.Meets.bind value.enumeration_ofReading fun _ _ => trivial
  · exact Except.Meets.bind value.additional_ofReading fun _ _ => trivial
  · rfl
  · refine Except.Meets.bind (value.literalOf_ofReading _) fun mark _ => ?_
    split
    · next verdict hverdict =>
      exact Verdict.anywhere_ofReading (Constraint.read?_ofReading _ mark.bytes verdict hverdict)
    · rfl

/-! ## Unions -/

theorem memberOfRules_ofReading (mark : Mark) (added : List Rule) :
    (memberOfRules mark added).FailsOnly Problem.IsOfReading := by
  unfold memberOfRules
  dsimp only
  refine Except.Meets.bind (Node.apply_ofReading _ added) fun node _ => ?_
  exact .ite trivial trivial

theorem memberOfName_ofReading (u : Unnamed) (mark : Mark) :
    (memberOfName u mark).FailsOnly Problem.IsOfReading := by
  have hname := Verdict.on_ofReading (Literal.string_ofReading mark.bytes) mark
  refine Except.Meets.bind hname fun name _ => ?_
  split
  · trivial
  · split
    · rfl
    · exact Except.Meets.bind (Node.apply_ofReading _ _) fun _ _ => trivial

mutual
/-- **Rules** are refused for what is wrong with them. -/
theorem constraintsOf_ofReading (u : Unnamed) : ∀ rules : List (String × Mark × RuleValue),
    (constraintsOf u rules).FailsOnly Problem.IsOfReading
  | [] => by
    rw [constraintsOf]
    trivial
  | (name, key, value) :: rest => by
    rw [constraintsOf]
    refine Except.Meets.bind (Outcome.orOn_ofReading ?_ value.mark) fun built _ => ?_
    · split
      · exact Except.Meets.bind (unionNames_ofReading name u value) fun _ _ => trivial
      · exact Except.Meets.bind (value.constraint_ofReading name key) fun _ _ => trivial
    · exact Except.Meets.bind (constraintsOf_ofReading built.2 rest) fun _ _ => trivial

theorem unionNames_ofReading (rule : String) (u : Unnamed) : ∀ value : RuleValue,
    (value.unionNames rule u).FailsOnly Problem.IsOfReading
  | shortcut mark => by
    rw [unionNames]
    exact Except.Meets.bind (Shortcut.names_ofReading mark) fun _ _ => trivial
  | array mark items => by
    rw [unionNames]
    exact .ite rfl (memberNames_ofReading rule u items)
  | literal mark => by
    rw [unionNames]
    rfl
  | object mark _ => by
    rw [unionNames]
    rfl

theorem memberNames_ofReading (rule : String) (u : Unnamed) : ∀ items : List RuleValue,
    (memberNames rule u items).FailsOnly Problem.IsOfReading
  | [] => by
    rw [memberNames]
    trivial
  | item :: rest => by
    rw [memberNames]
    refine Except.Meets.bind (memberNamesOf_ofReading rule u item) fun named _ => ?_
    exact Except.Meets.bind (memberNames_ofReading rule named.2 rest) fun _ _ => trivial

theorem memberNamesOf_ofReading (rule : String) (u : Unnamed) : ∀ item : RuleValue,
    (item.memberNamesOf rule u).FailsOnly Problem.IsOfReading
  | shortcut mark => by
    rw [memberNamesOf]
    exact Except.Meets.bind (Shortcut.names_ofReading mark) fun _ _ => trivial
  | object mark rules => by
    rw [memberNamesOf]
    split
    · refine Except.Meets.bind (constraintsOf_ofReading u rules) fun built _ => ?_
      exact Except.Meets.bind (memberOfRules_ofReading mark built.1) fun _ _ => trivial
    · rfl
  | literal mark => by
    rw [memberNamesOf]
    split
    · exact Except.Meets.bind (memberOfName_ofReading u mark) fun _ _ => trivial
    · rfl
  | array mark _ => by
    rw [memberNamesOf]
    rfl
end

end RuleValue
end ExampleSchema
