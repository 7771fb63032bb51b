import ExampleSchema.Proofs.Declarations
import ExampleSchema.Proofs.Json.Writing
import ExampleSchema.Proofs.Validation

/-!
# Where values have the wrong type

Validation goes down a value, and a value of the wrong type is reported where it begins.  What is inside a
value is written behind its first byte, so a report at the start of the value that a node was given is about
that value and not about a part of it.

The declared type of a node and its shape are set independently.  If a node is written in the shape of its
type, then it reports exactly the values that do not fit the type; and otherwise there are values for which
it does not.

* `Value.IsPart`, `Value.IsSpread`: the values inside a value, and where they are written.
* `Problem.PointsFrom`, `Schema.accept_pointsFrom`: where reports about types point.
* `Registry.Mismatches`: a node reports the type of the value that it is given.
* `Node.IsShapedAs`: a node is written in the shape of a type.
* `Registry.mismatches_iff`: such a node reports the values that do not fit its type.
* `Session.Arises.mismatches_iff_iff`: only such nodes do.
-/

namespace ExampleSchema

/-! ## Parts of values -/

namespace Value

/-- A value is inside another one, or the same. -/
inductive IsPart (v : Value) : Value → Prop
  | self : IsPart v v
  | item {mark : Mark} {items : List Value} {item : Value} (hitem : item ∈ items) (h : IsPart v item) :
    IsPart v (.array mark items)
  | member {mark : Mark} {members : List (String × Mark × Value)} {member : String × Mark × Value}
      (hmember : member ∈ members) (h : IsPart v member.2.2) :
    IsPart v (.object mark members)

/-- What is inside a value is written behind its first byte. -/
inductive IsSpread : Value → Prop
  | literal (mark : Mark) : IsSpread (.literal mark)
  | array {mark : Mark} {items : List Value} (h : ∀ item ∈ items, IsSpread item)
      (hbehind : ∀ item ∈ items, mark.start < item.mark.start) : IsSpread (.array mark items)
  | object {mark : Mark} {members : List (String × Mark × Value)}
      (h : ∀ member ∈ members, IsSpread member.2.2)
      (hbehind : ∀ member ∈ members, mark.start < member.2.2.mark.start) : IsSpread (.object mark members)

variable {v whole : Value} {source : Source}

theorem IsPart.isSpread (h : v.IsPart whole) (hwhole : whole.IsSpread) : v.IsSpread := by
  induction h with
  | self => exact hwhole
  | item hitem _ ih =>
    cases hwhole with
    | array hitems => exact ih (hitems _ hitem)
  | member hmember _ ih =>
    cases hwhole with
    | object hmembers => exact ih (hmembers _ hmember)

theorem IsPart.isProper (h : v.IsPart whole) (hwhole : whole.IsProper) : v.IsProper := by
  induction h with
  | self => exact hwhole
  | item hitem _ ih =>
    cases hwhole with
    | array hitems => exact ih (hitems _ hitem)
  | member hmember _ ih =>
    cases hwhole with
    | object hmembers => exact ih (hmembers _ hmember)

/-- A value begins where it is written. -/
theorem start_value (t : Json) (start : Nat) : (t.value source start).mark.start = start := by
  cases t <;> rfl

mutual

/-- **A value that is written somewhere** has its parts behind its first byte. -/
theorem isSpread_value : ∀ (t : Json) (start : Nat), (t.value source start).IsSpread
  | .literal _, _ => .literal _
  | .emptyArray _, _ => .array nofun nofun
  | .array items, start =>
    .array (fun item hitem => (areSpread_values items (start + 1) item hitem).1)
      fun item hitem => (areSpread_values items (start + 1) item hitem).2
  | .emptyObject _, _ => .object nofun nofun
  | .object members, start =>
    .object (fun member hmember =>
        (areSpread_entries members (start + 1) member (Catalog.mem_of_mem_gather hmember)).1)
      fun member hmember =>
        (areSpread_entries members (start + 1) member (Catalog.mem_of_mem_gather hmember)).2

theorem areSpread_values : ∀ (items : Json.Items) (start : Nat),
    ∀ item ∈ items.values source start, item.IsSpread ∧ start ≤ item.mark.start
  | .last before item after, start => by
    refine List.forall_mem_singleton.2 ⟨isSpread_value item _, ?_⟩
    rw [start_value]
    exact Nat.le_add_right ..
  | .more before item after rest, start => by
    refine List.forall_mem_cons.2 ⟨⟨isSpread_value item _, ?_⟩, fun other hother => ?_⟩
    · rw [start_value]
      exact Nat.le_add_right ..
    · obtain ⟨hspread, hbehind⟩ := areSpread_values rest _ other hother
      exact ⟨hspread, by omega⟩

theorem areSpread_entries : ∀ (members : Json.Members) (start : Nat),
    ∀ member ∈ members.entries source start, member.2.2.IsSpread ∧ start ≤ member.2.2.mark.start
  | .last before name colon value after, start => by
    refine List.forall_mem_singleton.2 ⟨isSpread_value value _, ?_⟩
    rw [start_value]
    omega
  | .more before name colon value after rest, start => by
    refine List.forall_mem_cons.2 ⟨⟨isSpread_value value _, ?_⟩, fun other hother => ?_⟩
    · rw [start_value]
      omega
    · obtain ⟨hspread, hbehind⟩ := areSpread_entries rest _ other hother
      exact ⟨hspread, by omega⟩

end

/-- **What is parsed** has its parts behind its first byte. -/
theorem isSpread_of_parse_eq_ok (h : parse source = .ok v) : v.IsSpread := by
  obtain ⟨t, -, -, -, rfl⟩ := exists_document_of_parse_eq_ok h
  exact isSpread_value t.root _

end Value

/-! ## Where reports point -/

/-- A problem with a type points at a place from some offset on. -/
def Problem.PointsFrom (least : Nat) (p : Problem) : Prop :=
  p.code = .typeMismatch → ∃ location, p.location = some location ∧ least ≤ location.offset

namespace Problem

variable {least more : Nat} {p : Problem}

theorem PointsFrom.mono (h : p.PointsFrom more) (hle : least ≤ more) : p.PointsFrom least := by
  intro hcode
  obtain ⟨location, hlocation, hmore⟩ := h hcode
  exact ⟨location, hlocation, hle.trans hmore⟩

/-- Problems of other kinds may point anywhere. -/
theorem pointsFrom_of_code_ne (h : p.code ≠ .typeMismatch) : p.PointsFrom least := fun hcode =>
  (h hcode).elim

theorem pointsFrom_on (c : Cause) {mark : Mark} (h : least ≤ mark.start) :
    (c.on mark).PointsFrom least := fun _ => ⟨mark.location, rfl, h⟩

/-- A problem that points somewhere goes on pointing there. -/
theorem PointsFrom.orOn (h : p.PointsFrom least) (mark : Mark) : (p.orOn mark).PointsFrom least := by
  intro hcode
  obtain ⟨location, hlocation, hle⟩ := h hcode
  refine ⟨location, ?_, hle⟩
  rw [Problem.orOn, orLocation, hlocation]
  rfl

/-- A problem that points nowhere comes to point at a mark. -/
theorem pointsFrom_orOn {mark : Mark} (h : p.location = none) (hmark : least ≤ mark.start) :
    (p.orOn mark).PointsFrom least := by
  refine fun _ => ⟨mark.location, ?_, hmark⟩
  rw [orOn, orLocation, h]
  rfl

end Problem

theorem Verdict.on_pointsFrom {α : Type} (x : Verdict α) (mark : Mark) :
    (x.on mark).FailsOnly (Problem.PointsFrom mark.start) := by
  cases x with
  | ok => trivial
  | error c => exact Problem.pointsFrom_on c (Nat.le_refl _)

theorem wrongType_pointsFrom {α : Type} (expected : JsonType) (v : Value) :
    (wrongType expected v : Outcome α).FailsOnly (Problem.PointsFrom v.mark.start) :=
  Problem.pointsFrom_on _ (Nat.le_refl _)

theorem BuiltinType.accept_pointsFrom (type : BuiltinType) (v : Value) :
    (type.accept v).FailsOnly (Problem.PointsFrom v.mark.start) := by
  refine .ite trivial (.ite ?_ (wrongType_pointsFrom _ _))
  split
  · exact Verdict.on_pointsFrom _ _
  · trivial

section

variable {types : Registry} {visit : Node → Value → Outcome Unit} {header : Header} {mark : Mark} {v : Value}

/-- The visits that a validation makes report types from where their values begin. -/
def Points (visit : Node → Value → Outcome Unit) : Prop :=
  ∀ node v, v.IsSpread → (visit node v).FailsOnly (Problem.PointsFrom v.mark.start)

/-- That a type does not exist is not a matter of JSON types. -/
theorem visit_root_pointsFrom {least : Nat} (h : ∀ root, (visit root v).FailsOnly (Problem.PointsFrom least))
    (name : String) : (do visit (← types.root name) v).FailsOnly (Problem.PointsFrom least) := by
  refine Except.Meets.bind (?_ : (types.root name).FailsOnly _) fun root _ => h root
  unfold Registry.root
  split
  · trivial
  · exact Problem.pointsFrom_of_code_ne nofun

/-- What is reported of the members of an object lies behind its first byte. -/
theorem Properties.accept_pointsFrom {properties : Properties} {members : List (String × Mark × Value)}
    (hvisit : Points visit) (hspread : (Value.object mark members).IsSpread) :
    (Properties.accept properties header types visit (.object mark members)).FailsOnly
      (Problem.PointsFrom (mark.start + 1)) := by
  cases hspread with
  | object hmembers hbehind =>
    have hmember : ∀ member ∈ members, ∀ node,
        (visit node member.2.2).FailsOnly (Problem.PointsFrom (mark.start + 1)) :=
      fun member hmember node => (hvisit node _ (hmembers member hmember)).imp (fun _ => id)
        fun _ h => h.mono (hbehind member hmember)
    refine acceptObject_failsOnly (fun _ => Problem.pointsFrom_of_code_ne nofun)
      (fun _ _ => Problem.pointsFrom_of_code_ne nofun) ?_ (fun p _ member h => hmember member h p.2) ?_
    · exact fun member h type => (type.accept_pointsFrom _).imp (fun _ => id)
        fun _ hpoints => hpoints.mono (hbehind member h)
    · exact fun type _ member h => visit_root_pointsFrom (hmember member h) type

/-- What is reported of the items of an array lies behind its first byte. -/
theorem acceptItems_pointsFrom {samples : List Node} {items : List Value} (hvisit : Points visit)
    (hspread : (Value.array mark items).IsSpread) :
    (acceptItems header samples visit (.array mark items)).FailsOnly
      (Problem.PointsFrom (mark.start + 1)) := by
  cases hspread with
  | array hitems hbehind =>
    refine acceptArray_failsOnly (fun _ _ => Problem.pointsFrom_of_code_ne nofun)
      (fun _ _ => Problem.pointsFrom_of_code_ne nofun) (fun _ _ => Problem.pointsFrom_of_code_ne nofun) ?_
    exact fun sample _ item hitem => (hvisit sample item (hitems item hitem)).imp (fun _ => id)
      fun _ h => h.mono (hbehind item hitem)

/-- What a literal does wrong points nowhere, or at the literal. -/
theorem Node.acceptLiteral_pointsFrom (node : Node) (v : Value) : (node.acceptLiteral v).FailsOnly
    fun p => p.location = none ∨ p.PointsFrom v.mark.start := by
  have hwrong : (wrongType node.jsonType v : Outcome Unit).FailsOnly
      fun p => p.location = none ∨ p.PointsFrom v.mark.start :=
    (wrongType_pointsFrom _ _).imp (fun _ => id) fun _ => Or.inr
  cases v with
  | array | object => exact hwrong
  | literal mark =>
    refine .ite (Except.FailsOnly.forM fun r _ => ?_) hwrong
    cases r.constraint.check mark.bytes with
    | ok => trivial
    | error => exact Or.inl rfl

/-- A value is reported from where it begins. -/
theorem Node.acceptSelf_pointsFrom (node : Node) (hvisit : Points visit) (hspread : v.IsSpread) :
    (Outcome.orOn (node.acceptSelf types visit v) v.mark).FailsOnly (Problem.PointsFrom v.mark.start) := by
  have hself : (node.acceptSelf types visit v).FailsOnly
      fun p => p.location = none ∨ p.PointsFrom v.mark.start := by
    have hwrong : ∀ expected, (wrongType expected v : Outcome Unit).FailsOnly
        fun p => p.location = none ∨ p.PointsFrom v.mark.start := fun expected =>
      (wrongType_pointsFrom expected v).imp (fun _ => id) fun _ => Or.inr
    cases node with
    | literal | mixed => exact acceptLiteral_pointsFrom _ v
    | reference => trivial
    | object header properties =>
      cases v with
      | literal | array => exact hwrong .object
      | object mark members =>
        exact (Properties.accept_pointsFrom hvisit hspread).imp (fun _ => id)
          fun _ h => Or.inr (h.mono (Nat.le_succ _))
    | array header samples =>
      cases v with
      | literal | object => exact hwrong .array
      | array mark items =>
        exact (acceptItems_pointsFrom hvisit hspread).imp (fun _ => id)
          fun _ h => Or.inr (h.mono (Nat.le_succ _))
  refine hself.mapError fun p h => ?_
  rcases h with hnone | h
  · exact Problem.pointsFrom_orOn hnone (Nat.le_refl _)
  · exact h.orOn v.mark

end

/-- **Types are reported from where values begin**, at every level. -/
theorem Registry.accept_pointsFrom (types : Registry) (levels : Nat) : Points (types.accept levels) := by
  induction levels with
  | zero => exact fun _ _ _ => Problem.pointsFrom_of_code_ne fun h => by cases h
  | succ levels ih =>
    intro node v hspread
    rw [Registry.accept]
    refine .ite trivial (.ite trivial (.ite (node.acceptSelf_pointsFrom ih hspread) ?_))
    refine acceptFirst_failsOnly (Problem.pointsFrom_of_code_ne fun h => by cases h) fun name _ => ?_
    exact visit_root_pointsFrom (fun root => ih root v hspread) name

/-! ## Literals -/

namespace Literal

variable {literal : Bytes}

theorem decimalValue_code_ne (h : isNumber literal = true) :
    (decimalValue literal).FailsOnly fun c => c.code ≠ .typeMismatch := by
  rw [decimalValue, if_pos h]
  unfold decimal
  split
  · trivial
  · exact nofun

theorem string_code_ne (literal : Bytes) : (string literal).FailsOnly fun c => c.code ≠ .typeMismatch := by
  unfold string
  split
  · trivial
  · intro hcode
    cases hcode

theorem stringValue_code_ne (h : isString literal = true) :
    (stringValue literal).FailsOnly fun c => c.code ≠ .typeMismatch := by
  rw [stringValue, if_pos h]
  exact string_code_ne literal

end Literal

theorem LiteralKey.ofBytes_code_ne (literal : Bytes) :
    (ofBytes literal).FailsOnly fun c => c.code ≠ .typeMismatch := by
  unfold ofBytes
  dsimp only
  split
  · exact (Literal.string_code_ne literal.trim).bind fun _ _ => trivial
  · trivial
  · trivial
  · trivial
  · trivial
  · intro hcode
    cases hcode

/-- **A rule that suits a type** does not refuse literals of the type for their type. -/
theorem Constraint.check_code_ne (c : Constraint) {literal : Bytes} {type actual : JsonType}
    (hsuits : c.kind.suits type = true) (hactual : JsonType.ofBytes? literal = some actual)
    (hfits : actual.fits type = true) :
    (c.check literal).FailsOnly fun cause => cause.code ≠ .typeMismatch := by
  have hnumber : type = .integer ∨ type = .float → ∀ {f : Decimal → Verdict Unit},
      (∀ value, (f value).FailsOnly fun cause => cause.code ≠ .typeMismatch) →
      (Literal.decimalValue literal >>= f).FailsOnly fun cause => cause.code ≠ .typeMismatch := by
    intro htype f hf
    have hisNumber : Literal.isNumber literal = true := by
      rw [Literal.isNumber, hactual]
      rcases htype with rfl | rfl <;> cases actual <;> first | rfl | cases hfits
    exact (Literal.decimalValue_code_ne hisNumber).bind fun value _ => hf value
  have hstring : type = .string → ∀ {f : String → Verdict Unit},
      (∀ text, (f text).FailsOnly fun cause => cause.code ≠ .typeMismatch) →
      (Literal.stringValue literal >>= f).FailsOnly fun cause => cause.code ≠ .typeMismatch := by
    rintro rfl f hf
    have hisString : Literal.isString literal = true := by
      rw [Literal.isString, hactual]
      cases actual <;> first | rfl | cases hfits
    exact (Literal.stringValue_code_ne hisString).bind fun text _ => hf text
  have hkey : ∀ {f : LiteralKey → Verdict Unit},
      (∀ key, (f key).FailsOnly fun cause => cause.code ≠ .typeMismatch) →
      (LiteralKey.ofBytes literal >>= f).FailsOnly fun cause => cause.code ≠ .typeMismatch := fun hf =>
    (LiteralKey.ofBytes_code_ne literal).bind fun key _ => hf key
  unfold check
  split
  · exact hnumber (by simpa [kind, ConstraintKind.suits] using hsuits) fun _ => .ite trivial fun h => by cases h
  · exact hnumber (by simpa [kind, ConstraintKind.suits] using hsuits) fun _ => .ite trivial fun h => by cases h
  · exact hnumber (Or.inr (by simpa [kind, ConstraintKind.suits] using hsuits))
      fun _ => .ite trivial fun h => by cases h
  · exact hstring (by simpa [kind, ConstraintKind.suits] using hsuits) fun _ => .ite (fun h => by cases h) trivial
  · exact hstring (by simpa [kind, ConstraintKind.suits] using hsuits) fun _ => .ite (fun h => by cases h) trivial
  · exact hstring (by simpa [kind, ConstraintKind.suits] using hsuits) fun _ => .ite trivial fun h => by cases h
  · next format =>
    refine hstring (by simpa [kind, ConstraintKind.suits] using hsuits) fun _ => .ite trivial ?_
    cases format <;> exact fun h => by cases h
  · exact hkey fun _ => .ite trivial fun h => by cases h
  · exact hkey fun _ => .ite trivial fun h => by cases h
  · trivial

/-! ## Nodes of a declared type -/

namespace JsonType

/-- A value with parts does not fit a type of values without, and the other way round. -/
theorem fits_eq_false {actual expected : JsonType} (h : actual.isLiteral ≠ expected.isLiteral) :
    actual.fits expected = false := by
  cases actual <;> cases expected <;> first | rfl | exact (h rfl).elim

theorem eq_object_of_fits {type : JsonType} (h : JsonType.object.fits type = true) : type = .object := by
  cases type <;> first | rfl | cases h

theorem eq_array_of_fits {type : JsonType} (h : JsonType.array.fits type = true) : type = .array := by
  cases type <;> first | rfl | cases h

theorem isLiteral_of_fits_eq_false {type : JsonType} (hobject : JsonType.object.fits type = false)
    (harray : JsonType.array.fits type = false) (hmixed : type ≠ .mixed) : type.isLiteral = true := by
  cases type with
  | object => cases hobject
  | array => cases harray
  | mixed => exact (hmixed rfl).elim
  | string | integer | float | boolean | null => rfl

end JsonType

/-- A node reports the type of the value that it is given, and not that of a part of it. -/
def Registry.Mismatches (types : Registry) (levels : Nat) (node : Node) (v : Value) : Prop :=
  ∃ p, types.accept levels node v = .error p ∧ p.code = .typeMismatch ∧ p.location = some v.mark.location

/-- A node is written in the shape of the values of a type. -/
def Node.IsShapedAs (type : JsonType) : Node → Prop
  | .object _ _ => type = .object
  | .array _ _ => type = .array
  | .literal _ _ | .mixed _ _ => type.isLiteral = true
  | .reference _ _ => False

namespace Registry

variable {types : Registry} {node : Node} {v : Value} {levels : Nat}

/-- A value that is of the wrong type for a node is reported. -/
theorem mismatches_of_wrongType (hanyway : ¬ node.AcceptsAnyway v) (hnames : node.rules.typeNames = [])
    {expected : JsonType} (h : node.acceptSelf types (types.accept levels) v = wrongType expected v) :
    types.Mismatches (levels + 1) node v := by
  refine ⟨(Cause.typeMismatch (.json expected) v.jsonType).on v.mark, ?_, rfl, rfl⟩
  rw [accept_eq_acceptSelf hanyway hnames, h]
  rfl

/-- A value is not reported if only its parts are. -/
theorem not_mismatches_of_pointsFrom (hanyway : ¬ node.AcceptsAnyway v)
    (hnames : node.rules.typeNames = []) (h : (node.acceptSelf types (types.accept levels) v).FailsOnly
      (Problem.PointsFrom (v.mark.start + 1))) : ¬ types.Mismatches (levels + 1) node v := by
  rintro ⟨p, hp, hcode, hlocation⟩
  rw [accept_eq_acceptSelf hanyway hnames] at hp
  have hpoints := (h.mapError fun _ h => h.orOn v.mark).of_error hp
  obtain ⟨location, hlocation', hle⟩ := hpoints hcode
  obtain rfl := Option.some.inj (hlocation'.symm.trans hlocation)
  exact absurd hle (Nat.not_succ_le_self _)

/-- A node without parts reports what does not fit its type. -/
theorem mismatches_iff_of_acceptLiteral
    (hself : node.acceptSelf types (types.accept levels) v = node.acceptLiteral v)
    (hanyway : ¬ node.AcceptsAnyway v) (hnames : node.rules.typeNames = [])
    (hclosed : node.isOfOpenType = false) (htype : node.jsonType.isLiteral = true)
    (hsuited : ∀ r ∈ node.rules, r.kind.suits node.jsonType = true) (hproper : v.IsProper) :
    types.Mismatches (levels + 1) node v ↔ v.jsonType.fits node.jsonType = false := by
  cases hproper with
  | array | object =>
    refine iff_of_true (mismatches_of_wrongType hanyway hnames hself) (JsonType.fits_eq_false ?_)
    rw [htype]
    exact Bool.false_ne_true
  | @literal mark hmark =>
    obtain ⟨actual, hactual, -⟩ := hmark.exists_jsonType
    have hactual' : (Value.literal mark).jsonType = actual := by rw [Value.jsonType, hactual]; rfl
    cases hfits : (Value.literal mark).jsonType.fits node.jsonType with
    | false =>
      have hwrong : node.acceptSelf types (types.accept levels) (.literal mark) =
          wrongType node.jsonType (.literal mark) := by
        rw [hself, Node.acceptLiteral, hclosed, hfits]
        rfl
      exact iff_of_true (mismatches_of_wrongType hanyway hnames hwrong) rfl
    | true =>
      refine iff_of_false (not_mismatches_of_pointsFrom hanyway hnames ?_) Bool.false_ne_true.symm
      rw [hself, Node.acceptLiteral, hfits, Bool.or_true, if_pos rfl]
      refine Except.FailsOnly.forM fun r hr => ?_
      rw [hactual'] at hfits
      exact (r.constraint.check_code_ne (hsuited r hr) hactual hfits).mapError
        fun _ h => Problem.pointsFrom_of_code_ne h

/-- **Reports are exact.**  A node that declares a type, and is written in the shape of that, reports the
values that do not fit the type and no others. -/
theorem mismatches_iff {type : BuiltinType} (hnames : node.rules.typeNames = [])
    (hdeclared : node.header.declared? = some type) (htype : type.jsonType ≠ .mixed)
    (hjson : node.jsonType = type.jsonType)
    (hsuited : ∀ r ∈ node.rules, r.kind.suits node.jsonType = true)
    (hshape : node.IsShapedAs type.jsonType) (hspread : v.IsSpread) (hproper : v.IsProper)
    (hanyway : ¬ node.AcceptsAnyway v) :
    types.Mismatches (levels + 1) node v ↔ v.jsonType.fits type.jsonType = false := by
  have hclosed : node.isOfOpenType = false := by
    rw [Node.isOfOpenType, hjson, hdeclared]
    cases type <;> first | rfl | exact (htype rfl).elim
  cases node with
  | literal header sample? =>
    rw [← hjson] at hshape ⊢
    exact mismatches_iff_of_acceptLiteral rfl hanyway hnames hclosed hshape hsuited hproper
  | mixed header sample? =>
    rw [← hjson] at hshape ⊢
    exact mismatches_iff_of_acceptLiteral rfl hanyway hnames hclosed hshape hsuited hproper
  | reference => exact hshape.elim
  | object header properties =>
    rw [show type.jsonType = .object from hshape]
    cases v with
    | object mark members =>
      refine iff_of_false (not_mismatches_of_pointsFrom hanyway hnames ?_) nofun
      exact Properties.accept_pointsFrom (types.accept_pointsFrom levels) hspread
    | array => exact iff_of_true (mismatches_of_wrongType hanyway hnames rfl) rfl
    | literal mark =>
      refine iff_of_true (mismatches_of_wrongType hanyway hnames rfl) (JsonType.fits_eq_false ?_)
      rw [hproper.isLiteral_jsonType]
      exact nofun
  | array header samples =>
    rw [show type.jsonType = .array from hshape]
    cases v with
    | array mark items =>
      refine iff_of_false (not_mismatches_of_pointsFrom hanyway hnames ?_) nofun
      exact acceptItems_pointsFrom (types.accept_pointsFrom levels) hspread
    | object => exact iff_of_true (mismatches_of_wrongType hanyway hnames rfl) rfl
    | literal mark =>
      refine iff_of_true (mismatches_of_wrongType hanyway hnames rfl) (JsonType.fits_eq_false ?_)
      rw [hproper.isLiteral_jsonType]
      exact nofun

/-- The empty object and the empty array can be written. -/
theorem exists_parse_empty : (∃ source mark, Value.parse source = .ok (.object mark [])) ∧
    ∃ source mark, Value.parse source = .ok (.array mark []) := by
  constructor
  · have hwritable : (Datum.object []).IsWritable 256 :=
      Datum.isWritable_object List.nodup_nil fun _ hmember => (List.not_mem_nil hmember).elim
    obtain ⟨text, v, hparse, hdatum⟩ := hwritable.exists_parse "value"
    cases v with
    | literal | array => cases hdatum
    | object mark members =>
      rw [Value.datum, Value.dataOfMembers_eq] at hdatum
      obtain rfl := List.map_eq_nil_iff.1 (Datum.object.inj hdatum)
      exact ⟨_, mark, hparse⟩
  · have hwritable : (Datum.array []).IsWritable 256 :=
      Datum.isWritable_array fun _ hitem => (List.not_mem_nil hitem).elim
    obtain ⟨text, v, hparse, hdatum⟩ := hwritable.exists_parse "value"
    cases v with
    | literal | object => cases hdatum
    | array mark items =>
      rw [Value.datum, Value.dataOfItems_eq] at hdatum
      obtain rfl := List.map_eq_nil_iff.1 (Datum.array.inj hdatum)
      exact ⟨_, mark, hparse⟩

/-- Reports of a node that is written in another shape than that of its type are not exact: it reports the
empty object or the empty array although that fits, or does not report it although it does not fit. -/
theorem isShapedAs_of_mismatches_iff {type : BuiltinType} (hregular : node.IsRegular)
    (hnames : node.rules.typeNames = []) (hdeclared : node.header.declared? = some type)
    (htype : type.jsonType ≠ .mixed)
    (h : ∀ source v, Value.parse source = .ok v → v.isNull = false →
      (types.Mismatches (levels + 1) node v ↔ v.jsonType.fits type.jsonType = false)) :
    node.IsShapedAs type.jsonType := by
  obtain ⟨⟨_, objectMark, hobject⟩, _, arrayMark, harray⟩ := exists_parse_empty
  have hclosed : ∀ v : Value, v.isNull = false → ¬ node.AcceptsAnyway v := by
    rintro v hv (⟨hnull, -⟩ | ⟨other, hother, hopen⟩)
    · exact nomatch hnull.symm.trans hv
    · obtain rfl := Option.some.inj (hdeclared.symm.trans hother)
      rcases BuiltinType.eq_of_isUnrestricted hopen with rfl | rfl <;> exact htype rfl
  have hobjects := h _ _ hobject rfl
  have harrays := h _ _ harray rfl
  -- a node without parts reports both, so that neither fits
  have hliteral : (∀ v, node.acceptSelf types (types.accept levels) v = node.acceptLiteral v) →
      type.jsonType.isLiteral = true := by
    intro hself
    have hnoObject := hobjects.1 (mismatches_of_wrongType (hclosed _ rfl) hnames (hself _))
    have hnoArray := harrays.1 (mismatches_of_wrongType (hclosed _ rfl) hnames (hself _))
    exact JsonType.isLiteral_of_fits_eq_false hnoObject hnoArray htype
  cases node with
  | literal | mixed => exact hliteral fun _ => rfl
  | reference header names =>
    obtain ⟨hne, hmem⟩ := hregular.names header names rfl
    obtain ⟨name, hname⟩ := List.exists_mem_of_ne_nil names hne
    have hname := hmem name hname
    rw [hnames] at hname
    cases hname
  | object header properties =>
    have hunreported : ¬ types.Mismatches (levels + 1) _ (.object objectMark []) :=
      not_mismatches_of_pointsFrom (hclosed _ rfl) hnames (Properties.accept_pointsFrom
        (types.accept_pointsFrom levels) (Value.isSpread_of_parse_eq_ok hobject))
    exact JsonType.eq_object_of_fits (Bool.not_eq_false _ ▸ mt hobjects.2 hunreported)
  | array header samples =>
    have hunreported : ¬ types.Mismatches (levels + 1) _ (.array arrayMark []) :=
      not_mismatches_of_pointsFrom (hclosed _ rfl) hnames (acceptItems_pointsFrom
        (types.accept_pointsFrom levels) (Value.isSpread_of_parse_eq_ok harray))
    exact JsonType.eq_array_of_fits (Bool.not_eq_false _ ▸ mt harrays.2 hunreported)

end Registry

/-! ## Compiled schemas -/

namespace Session

/-- **Exactly the nodes in the shape of their type report exactly what does not fit it.**  Of a node of a
compiled schema that refers to no types and declares a type that settles the JSON type: at each level, it
reports those values, at the top of a document or inside, that do not fit the type, `null` at a nullable
node aside, if and only if it is written in the shape of the type. -/
theorem Arises.mismatches_iff_iff {s : Session} (hs : s.Arises) {schema : Schema}
    (h : s.compiled = .ok schema) {node : Node} (hnode : node ∈ schema.nodes)
    (hnames : node.rules.typeNames = []) {type : BuiltinType}
    (hdeclared : node.header.declared? = some type) (htype : type ∉ [.any, .mixed, .enum]) (levels : Nat) :
    (∀ source whole v, Value.parse source = .ok whole → v.IsPart whole →
      ¬ (v.isNull = true ∧ node.isNullable = true) →
        (schema.types.Mismatches (levels + 1) node v ↔ v.jsonType.fits type.jsonType = false)) ↔
      node.IsShapedAs type.jsonType := by
  have hregular := hs.isRegular h hnode
  have hmixed : type.jsonType ≠ .mixed := by
    cases type <;> first | decide | exact (htype (by decide)).elim
  constructor
  · intro hexact
    exact Registry.isShapedAs_of_mismatches_iff hregular hnames hdeclared hmixed fun source v hv hnull =>
      hexact source v v hv .self fun h => nomatch h.1.symm.trans hnull
  · intro hshape source whole v hwhole hpart hnull
    have hsuited := (Registry.checkNode_eq_ok_iff.1 (hs.checkNode_eq_ok h hnode)).1
    have hjson := Node.jsonType_eq_of_declared hregular (hs.isStated h hnode) hnames hdeclared hmixed
    refine Registry.mismatches_iff hnames hdeclared hmixed hjson
      (Node.checkSuited_eq_ok_iff.1 hsuited) hshape
      (hpart.isSpread (Value.isSpread_of_parse_eq_ok hwhole))
      (hpart.isProper (Value.isProper_of_parse_eq_ok hwhole)) ?_
    rintro (hisNull | ⟨other, hother, hopen⟩)
    · exact hnull hisNull
    · obtain rfl := Option.some.inj (hdeclared.symm.trans hother)
      rcases BuiltinType.eq_of_isUnrestricted hopen with rfl | rfl <;> exact hmixed rfl

/-- The root of a schema refers to no types and declares one. -/
def declares (schema : Schema) (type : BuiltinType) : Bool :=
  schema.root.rules.typeNames.isEmpty && schema.root.header.declared? == some type

theorem of_declares {schema : Schema} {type : BuiltinType} (h : declares schema type = true) :
    schema.root.rules.typeNames = [] ∧ schema.root.header.declared? = some type := by
  obtain ⟨hnames, hdeclared⟩ := Bool.and_eq_true_iff.1 h
  exact ⟨List.isEmpty_iff.1 hnames, beq_iff_eq.1 hdeclared⟩

/-- Whether the root of a schema is a literal that declares integers. -/
def isNumber : Schema × Value → Bool
  | (⟨.literal header sample?, types⟩, _) => declares ⟨.literal header sample?, types⟩ .integer
  | _ => false

/-- A number that is written as one reports what is no number. -/
theorem number_mismatches : ∃ schema, (ofText "1 // \x7btype: \"integer\"\x7d").compiled = .ok schema ∧
    schema.root.rules.typeNames = [] ∧ schema.root.header.declared? = some .integer ∧
    schema.root.IsShapedAs .integer ∧ ∀ source whole v, Value.parse source = .ok whole →
      v.IsPart whole → ¬ (v.isNull = true ∧ schema.root.isNullable = true) →
        (schema.types.Mismatches (acceptLimit + 1) schema.root v ↔ v.jsonType.fits .integer = false) := by
  obtain ⟨schema, value, hcompiled, -, htest⟩ := exists_of_compiledWith?
    (show (compiledWith? "1 // \x7btype: \"integer\"\x7d" "1").any isNumber = true by decide +kernel)
  unfold isNumber at htest
  split at htest
  · next header sample? types _ htuple =>
    obtain ⟨rfl, -⟩ := Prod.mk.inj htuple
    obtain ⟨hnames, hdeclared⟩ := of_declares htest
    have hnode : Node.literal header sample? ∈ Schema.nodes ⟨.literal header sample?, types⟩ :=
      Schema.mem_nodes_of_mem_roots (List.mem_cons_self ..)
    have hexact := (arises_ofText _).mismatches_iff_iff hcompiled hnode hnames hdeclared (by decide)
      acceptLimit
    exact ⟨_, hcompiled, hnames, hdeclared, rfl, hexact.2 rfl⟩
  · cases htest

/-- Whether the root of a schema declares arrays, and reports an array without items. -/
def reportsList : Schema × Value → Bool
  | (schema, .array mark []) =>
    declares schema .array &&
      match schema.accept (.array mark []) with
      | .ok _ => false
      | .error p => p.code == .typeMismatch && p.location == some mark.location
  | _ => false

/-- A list that is written as `null` reports a list. -/
theorem nullList_mismatches : ∃ schema mark,
    (ofText "null // \x7btype: \"array\", nullable: true\x7d").compiled = .ok schema ∧
    Value.parse (.ofString "value" "[]") = .ok (.array mark []) ∧
    schema.root.rules.typeNames = [] ∧ schema.root.header.declared? = some .array ∧
    (Value.array mark []).jsonType.fits .array = true ∧
    schema.types.Mismatches (acceptLimit + 1) schema.root (.array mark []) := by
  obtain ⟨schema, value, hcompiled, hparse, htest⟩ := exists_of_compiledWith?
    (show (compiledWith? "null // \x7btype: \"array\", nullable: true\x7d" "[]").any reportsList = true by
      decide +kernel)
  unfold reportsList at htest
  split at htest
  · next schema mark htuple =>
    obtain ⟨rfl, rfl⟩ := Prod.mk.inj htuple
    obtain ⟨hdeclares, hreports⟩ := Bool.and_eq_true_iff.1 htest
    obtain ⟨hnames, hdeclared⟩ := of_declares hdeclares
    refine ⟨schema, mark, hcompiled, hparse, hnames, hdeclared, rfl, ?_⟩
    split at hreports
    · cases hreports
    · next p hp =>
      obtain ⟨hcode, hlocation⟩ := Bool.and_eq_true_iff.1 hreports
      exact ⟨p, hp, beq_iff_eq.1 hcode, beq_iff_eq.1 hlocation⟩
  · cases htest

end Session

end ExampleSchema
