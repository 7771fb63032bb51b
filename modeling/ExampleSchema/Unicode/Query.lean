import ExampleSchema.Unicode.Age
import ExampleSchema.Unicode.Break
import ExampleSchema.Unicode.Fold

/-!
# Asking for characters by name

A pattern names a set of characters by a property, a general category or a script, or by the value
that a property has.  Names are compared loosely: case, spaces, `_` and `-` do not count, nor does an
`is` at the start, nor anything that is not ASCII.

* `named?`: a property, a category or a script.
* `valued?`: the value of a property.
* `foldCase`: a set with everything that differs from a member only in case.
-/

namespace ExampleSchema
namespace Unicode

/-- Whether a text starts with `is`, in any case. -/
def startsWithIs : List Char → Bool
  | a :: b :: _ => a.toLower == 'i' && b.toLower == 's'
  | _ => false

/-- A name in loose form.  `isc` is a name of its own and not the name `c` after `is`. -/
def looseName (name : String) : String :=
  let chars := name.toList
  let kept (cs : List Char) : List Char :=
    (cs.filter fun c => c.toNat < 0x80 && c != ' ' && c != '_' && c != '-').map Char.toLower
  if startsWithIs chars then
    match kept (chars.drop 2) with
    | ['c'] => "isc"
    | cs => String.ofList cs
  else String.ofList (kept chars)

/-- The characters of a general category, a class of categories, or one of three sets that are named
like them. -/
def categoryLike? (name : String) : Option CharSet :=
  match name with
  | "any" => some .all
  | "ascii" => some (.range 0 0x7F)
  | "assigned" => some Category.unassigned.set.complement
  | name => category? name

/-- The characters that a single name means.  Three names are both a property and a category, and
mean the category. -/
def named? (name : String) : Option CharSet :=
  let name := looseName name
  let property := if ["cf", "sc", "lc"].contains name then none else property? name
  property.or ((categoryLike? name).or ((script? name).map ScriptTable.set))

/-- The characters that have a value of a property. -/
def valued? (property value : String) : Option CharSet :=
  let value := looseName value
  match looseName property with
  | "gc" | "generalcategory" => categoryLike? value
  | "sc" | "script" => (script? value).map ScriptTable.set
  | "scx" | "scriptextensions" => (script? value).map ScriptTable.extended
  | "age" => age? value
  | "gcb" | "graphemeclusterbreak" => clusterBreak? value
  | "wb" | "wordbreak" => wordBreak? value
  | "sb" | "sentencebreak" => sentenceBreak? value
  | _ => none

/-- A set with everything that differs from a member only in case. -/
def foldCase (s : CharSet) : CharSet :=
  let added := caseGroups.flatMap fun group =>
    if group.any s.contains then group.map fun c => (c, c) else []
  .normalize (s.ranges ++ added)

end Unicode
end ExampleSchema
