import ExampleSchema.Catalog
import ExampleSchema.Node.Basic

/-!
# Schemas

A schema is a tree and the types that its nodes refer to by name: those that the user registers, and
those of union members, which are written in place and get a name of their own.
-/

namespace ExampleSchema

/-- A type that nodes refer to by name. -/
structure TypeEntry where
  root : Node
  /-- The document of the type, and where in it the type begins. -/
  source : Source
  start : Nat
  deriving Inhabited

/-- Types by name, in the order in which they were registered. -/
abbrev Registry := List (String × TypeEntry)

namespace Registry

/-- The root of a registered type. -/
def root? (types : Registry) (name : String) : Option Node :=
  (Catalog.find? types name).map TypeEntry.root

/-- The root of a type that has to be registered. -/
def root (types : Registry) (name : String) : Outcome Node :=
  match types.root? name with
  | some root => .ok root
  | none => .error (Cause.typeNotFound name).anywhere

/-- The types under other names than one. -/
def without (types : Registry) (name : String) : Registry := types.filter fun e => e.1 != name

/-- What follows the references of types goes on without each type that it has entered, and so comes
to an end. -/
theorem length_without_lt {types : Registry} {name : String} {node : Node}
    (h : types.root? name = some node) : (types.without name).length < types.length := by
  obtain ⟨entry, he, -⟩ := Option.map_eq_some_iff.1 h
  have hmem : (name, entry) ∈ types := by
    clear h
    induction types with
    | nil => simp [Catalog.find?_nil] at he
    | cons e rest ih =>
      obtain ⟨key, old⟩ := e
      rw [Catalog.find?_cons] at he
      split at he
      · simp_all
      · exact List.mem_cons_of_mem _ (ih he)
  exact List.length_filter_lt_length_iff_exists.2 ⟨_, hmem, by simp⟩

end Registry

/-- A tree and the types that it refers to. -/
structure Schema where
  root : Node
  types : Registry := []
  deriving Inhabited

end ExampleSchema
