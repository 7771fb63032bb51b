import ExampleSchema.Proofs.Accept.Resemblance
import ExampleSchema.Proofs.Json.Building

/-!
# Validation does not look at marks

A value keeps marks of where its parts are written.  Problems point at them, but whether a value is accepted is
a matter of its data: the bytes of its literals, the items of its arrays and the members of its objects.  So
the same data may be written somewhere else, with other blanks, and be accepted all the same.

A literal has no parts, so validating one leads from types to types and nowhere else.  How many levels that
takes is a matter of the references alone, and what comes of it depends on the bytes of the literal and not
on where they are written.

* `Value.resembles_of_datum_eq`: values with the same data are alike at one level.
* `Registry.accept_congr`, `Schema.accept_congr`, `Schema.acceptMember_congr`: all levels.
* `Registry.RefersWithin`: the references from a node on nest at most so deep.
* `Registry.RefersWithin.visitsWithin`: so does the validation of a literal.
* `Registry.accept_literal_congr`: a validation of a literal with levels enough does not depend on how many
  there are.
-/

namespace ExampleSchema
namespace Value

/-- Two values have the same data. -/
def HasDatumOf (v w : Value) : Prop := v.datum = w.datum

/-- What is found under a name has the same data. -/
theorem find?_rel_of_datum_eq {members others : List (String × Mark × Value)}
    (h : dataOfMembers members = dataOfMembers others) (name : String) :
    Option.Rel (fun entry entry' : Mark × Value => entry.2.HasDatumOf entry'.2)
      (Catalog.find? members name) (Catalog.find? others name) := by
  have hfind := Catalog.find?_map (fun entry : Mark × Value => entry.2.datum)
  have hdata := congrArg (Catalog.find? · name) h
  simp only [dataOfMembers_eq, hfind] at hdata
  cases hmember : Catalog.find? members name <;> cases hother : Catalog.find? others name <;>
    rw [hmember, hother] at hdata
  · exact .none
  · cases hdata
  · cases hdata
  · exact .some (Option.some.inj hdata)

/-- **Values with the same data** are of one kind, and their parts have the same data. -/
theorem resembles_of_datum_eq {v w : Value} (h : v.datum = w.datum) : v.Resembles HasDatumOf w := by
  cases v with
  | literal mark =>
    cases w with
    | literal mark' => exact .literal (.inl (Datum.literal.inj h))
    | array | object => cases h
  | array mark items =>
    cases w with
    | array mark' others =>
      have hdata := Datum.array.inj h
      rw [dataOfItems_eq, dataOfItems_eq, ← List.forall₂_eq_eq_eq, List.forall₂_map_left_iff,
        List.forall₂_map_right_iff] at hdata
      exact .array hdata
    | literal | object => cases h
  | object mark members =>
    cases w with
    | object mark' others =>
      have hdata := Datum.object.inj h
      refine .object (find?_rel_of_datum_eq hdata) (.of_forall₂ ?_)
      rw [dataOfMembers_eq, dataOfMembers_eq, ← List.forall₂_eq_eq_eq, List.forall₂_map_left_iff,
        List.forall₂_map_right_iff] at hdata
      simp only [Prod.mk.injEq] at hdata
      exact hdata
    | literal | array => cases h

end Value

/-- Marks are never told apart. -/
theorem Registry.simulates_hasDatumOf (types : Registry) : types.Simulates types Eq Value.HasDatumOf :=
  types.simulates_self (fun _ _ => Value.resembles_of_datum_eq) fun _ => rfl

/-- **Validation does not look at marks.** -/
theorem Registry.accept_congr (types : Registry) (levels : Nat) (node : Node) (v w : Value)
    (h : v.datum = w.datum) : types.accept levels node v = .ok () ↔ types.accept levels node w = .ok () :=
  types.simulates_hasDatumOf.accept_iff levels node node v w rfl h

/-- A schema accepts data, wherever they are written. -/
theorem Schema.accept_congr (schema : Schema) {v w : Value} (h : v.datum = w.datum) :
    schema.accept v = .ok () ↔ schema.accept w = .ok () :=
  accept_iff_of_simulates schema.types.simulates_hasDatumOf rfl h

/-- So does a member of the object that a schema describes. -/
theorem Schema.acceptMember_congr (schema : Schema) {name : String} {v w : Value} (h : v.datum = w.datum) :
    schema.acceptMember name v = .ok () ↔ schema.acceptMember name w = .ok () :=
  acceptMember_iff_of_simulates schema.types.simulates_hasDatumOf rfl h name

/-! ## Literals -/

namespace Registry

variable {types : Registry} {node : Node} {levels more : Nat} {mark mark' : Mark}

/-- The references from a node on nest at most so deep. -/
def RefersWithin (types : Registry) : Nat → Node → Prop
  | 0, node => node.rules.typeNames = []
  | levels + 1, node => ∀ name ∈ node.rules.typeNames, ∀ root, types.root? name = some root →
      types.RefersWithin levels root

theorem refersWithin_of_typeNames_eq_nil (h : node.rules.typeNames = []) (levels : Nat) :
    types.RefersWithin levels node := by
  cases levels with
  | zero => exact h
  | succ levels =>
    rw [RefersWithin, h]
    exact nofun

/-- Validating a literal leads to the types of a node. -/
theorem Visits.of_literal_value {y : Node × Value} (h : types.Visits (node, .literal mark) y) :
    (∃ name ∈ node.rules.typeNames, types.root? name = some y.1) ∧ y.2 = .literal mark := by
  cases h with
  | @type _ root _ before after name hopen hnames hbefore hroot =>
    refine ⟨⟨name, ?_, hroot⟩, rfl⟩
    rw [hnames]
    simp

/-- Validating a literal takes no more levels than the references nest deep. -/
theorem RefersWithin.visitsWithin (h : types.RefersWithin levels node) (mark : Mark) :
    types.VisitsWithin levels (node, .literal mark) := by
  induction levels generalizing node with
  | zero =>
    refine visitsWithin_zero_iff.2 fun y hvisit => ?_
    obtain ⟨⟨name, hname, -⟩, -⟩ := hvisit.of_literal_value
    rw [show node.rules.typeNames = [] from h] at hname
    cases hname
  | succ levels ih =>
    refine visitsWithin_succ_iff.2 fun ⟨root, value⟩ hvisit => ?_
    obtain ⟨⟨name, hname, hroot⟩, rfl⟩ := hvisit.of_literal_value
    exact ih (h name hname root hroot)

/-- **How many levels there are does not matter** to a literal, if they last for the references, nor does
where it is written. -/
theorem accept_literal_congr (h : types.RefersWithin levels node) (hle : levels ≤ more)
    (hbytes : mark.bytes = mark'.bytes)
    (haccept : types.accept (more + 1) node (.literal mark) = .ok ()) {others : Nat} (hothers : levels ≤ others) :
    types.accept (others + 1) node (.literal mark') = .ok () := by
  have haccepts := (accept_eq_ok_iff ((h.visitsWithin mark).mono hle)).1 haccept
  have hmark := (accept_eq_ok_iff ((h.visitsWithin mark).mono hothers)).2 haccepts
  have hdatum : (Value.literal mark).datum = (Value.literal mark').datum := congrArg Datum.literal hbytes
  exact (types.accept_congr _ node _ _ hdatum).1 hmark

end Registry

end ExampleSchema
