/-!
# Catalogs

A catalog lists things under names, in the order in which the names first came.  The members of an
object, the properties of a node, the registered types and the named rules are catalogs.

* `Catalog.insert`: a thing under a name, in place of what had the name before.
* `Catalog.insertNew`: a thing under a name that nothing has yet.
* `keys_insert`, `find?_insert`: what inserting does to the names and to looking up.
-/

namespace ExampleSchema
namespace Catalog

variable {α : Type}

/-- The names, in order. -/
def keys (entries : List (String × α)) : List String := entries.map (·.1)

/-- What is listed under a name. -/
def find? (entries : List (String × α)) (name : String) : Option α := entries.lookup name

/-- Whether something is listed under a name. -/
def contains (entries : List (String × α)) (name : String) : Bool := (find? entries name).isSome

/-- Lists something under a name.  It takes the place of what had the name before, or comes last. -/
def insert : List (String × α) → String → α → List (String × α)
  | [], name, value => [(name, value)]
  | (key, old) :: rest, name, value =>
    if name == key then (key, value) :: rest else (key, old) :: insert rest name value

/-- Lists something under a name, unless something has the name already. -/
def insertNew (entries : List (String × α)) (name : String) (value : α) : List (String × α) :=
  if contains entries name then entries else entries ++ [(name, value)]

@[simp] theorem find?_nil (name : String) : find? ([] : List (String × α)) name = none := rfl

theorem find?_cons (key : String) (old : α) (rest : List (String × α)) (name : String) :
    find? ((key, old) :: rest) name = if name == key then some old else find? rest name := by
  cases h : name == key <;> simp [find?, List.lookup_cons, h]

/-- After an insertion the name has the new value, and every other name what it had. -/
theorem find?_insert (entries : List (String × α)) (name other : String) (value : α) :
    find? (insert entries name value) other
      = if other == name then some value else find? entries other := by
  induction entries with
  | nil => simp [insert, find?_cons]
  | cons e rest ih =>
    obtain ⟨key, old⟩ := e
    by_cases h : name = key
    · subst h
      by_cases ho : other = name <;> simp [insert, find?_cons, ho]
    · by_cases ho : other = key
      · subst ho
        simp [insert, find?_cons, h, Ne.symm h]
      · simp [insert, find?_cons, h, ho, ih]

/-- An insertion adds its name at the end, or leaves the names as they were. -/
theorem keys_insert (entries : List (String × α)) (name : String) (value : α) :
    keys (insert entries name value)
      = if name ∈ keys entries then keys entries else keys entries ++ [name] := by
  induction entries with
  | nil => simp [insert, keys]
  | cons e rest ih =>
    obtain ⟨key, old⟩ := e
    by_cases h : name = key
    · subst h
      simp [insert, keys]
    · simp only [keys] at ih ⊢
      simp only [insert, beq_iff_eq, h, if_false, List.map_cons, ih, List.mem_cons, false_or]
      split <;> simp_all

end Catalog
end ExampleSchema
