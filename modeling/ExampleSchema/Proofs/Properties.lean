import ExampleSchema.Proofs.Outcome
import ExampleSchema.Schema.Accept
import ExampleSchema.Schema.Inherit
import Mathlib.Data.List.Nodup

/-!
# The names of properties

The properties of an object have distinct names, so a property that is declared by its name is the one that is
found when the name is looked up.  Properties are added one by one, under names that are new.

* `Properties.AreDistinct`: no two properties have one name.
* `Properties.declared?_eq_some_of_mem`: each property declares its name.
* `Properties.foldlM_add_eq_ok_iff`: adding properties one after another.
-/

namespace ExampleSchema
namespace Properties

/-- No two properties have one name. -/
def AreDistinct (properties : Properties) : Prop := (properties.map fun p => p.1.name).Nodup

/-- Adding a property never repeats a name. -/
theorem AreDistinct.add {properties : Properties} (h : properties.AreDistinct) (p : PropertyKey × Node)
    (blamed : Mark) : (properties.add p blamed).Meets AreDistinct fun _ => True := by
  unfold Properties.add
  split
  · trivial
  · next hnew =>
    rw [Except.meets_ok, AreDistinct, List.map_append, List.map_singleton, ← List.concat_eq_append]
    refine List.Nodup.concat (fun hname => hnew ?_) h
    obtain ⟨q, hq, heq⟩ := List.mem_map.1 hname
    exact List.any_eq_true.2 ⟨q, hq, beq_iff_eq.2 heq⟩

/-- The node of a property that is declared by its name. -/
theorem exists_of_declared?_eq_some {properties : Properties} {name : String} {node : Node}
    (h : properties.declared? name = some node) :
    ∃ key, (key, node) ∈ properties ∧ key.name = name ∧ key.isShortcut = false := by
  obtain ⟨⟨key, node⟩, hfind, rfl⟩ := Option.map_eq_some_iff.1 h
  have hfound := List.find?_some hfind
  rw [Bool.and_eq_true, beq_iff_eq, Bool.not_eq_true'] at hfound
  exact ⟨key, List.mem_of_find?_eq_some hfind, hfound⟩

/-- Where no name comes twice, each property declares its name. -/
theorem declared?_eq_some_of_mem {properties : Properties} (hdistinct : properties.AreDistinct)
    {p : PropertyKey × Node} (hp : p ∈ properties) (hkey : p.1.isShortcut = false) :
    properties.declared? p.1.name = some p.2 := by
  cases hdeclared : properties.declared? p.1.name with
  | none =>
    rw [declared?, Option.map_eq_none_iff, List.find?_eq_none] at hdeclared
    have hnot := hdeclared p hp
    simp [hkey] at hnot
  | some node =>
    obtain ⟨key, hmem, hname, -⟩ := exists_of_declared?_eq_some hdeclared
    have hsame := List.inj_on_of_nodup_map hdistinct hmem hp hname
    rw [← hsame]

/-- A property is added under a name that is new. -/
theorem add_eq_ok_iff {properties all : Properties} (h : properties.AreDistinct) {p : PropertyKey × Node}
    {blamed : Mark} :
    properties.add p blamed = .ok all ↔ all = properties ++ [p] ∧ AreDistinct (properties ++ [p]) := by
  have hnames : AreDistinct (properties ++ [p]) ↔ ¬ properties.any fun q => q.1.name == p.1.name := by
    rw [AreDistinct, List.map_append, List.map_singleton, List.nodup_append]
    simp only [List.nodup_singleton, List.mem_singleton, true_and, forall_eq, List.any_eq_true, beq_iff_eq,
      List.mem_map]
    constructor
    · rintro ⟨-, hnew⟩ ⟨q, hq, heq⟩
      exact hnew q.1.name ⟨q, hq, rfl⟩ heq
    · refine fun hnew => ⟨h, ?_⟩
      rintro _ ⟨q, hq, rfl⟩ heq
      exact hnew ⟨q, hq, heq⟩
  rw [hnames, add]
  split
  · next hold => exact iff_of_false nofun fun hall => hall.2 hold
  · next hnew => exact ⟨fun hall => ⟨(Except.ok.inj hall).symm, hnew⟩, fun hall => congrArg _ hall.1.symm⟩

/-- **Properties are added one after another** if all names are new, whichever mark is blamed otherwise. -/
theorem foldlM_add_eq_ok_iff {properties added all : Properties} (h : properties.AreDistinct)
    (blamed : PropertyKey × Node → Mark) :
    added.foldlM (fun (properties : Properties) p => properties.add p (blamed p)) properties = .ok all ↔
      all = properties ++ added ∧ AreDistinct (properties ++ added) := by
  induction added generalizing properties with
  | nil =>
    rw [List.append_nil]
    exact ⟨fun hall => ⟨(Except.ok.inj hall).symm, h⟩, fun hall => congrArg _ hall.1.symm⟩
  | cons p rest ih =>
    rw [List.foldlM_cons, Except.bind_eq_ok_iff, List.append_cons]
    constructor
    · rintro ⟨next, hnext, hall⟩
      obtain ⟨rfl, hdistinct⟩ := (add_eq_ok_iff h).1 hnext
      exact (ih hdistinct).1 hall
    · rintro ⟨rfl, hdistinct⟩
      have hfirst : AreDistinct (properties ++ [p]) := by
        rw [AreDistinct, List.map_append] at hdistinct
        exact (List.nodup_append.1 hdistinct).1
      exact ⟨_, (add_eq_ok_iff h).2 ⟨rfl, hfirst⟩, (ih hfirst).2 ⟨rfl, hdistinct⟩⟩

end Properties
end ExampleSchema
