import ExampleSchema.Proofs.Accept.Acceptance
import ExampleSchema.Proofs.Catalog
import Mathlib.Data.List.Chain

/-!
# The visits of a validation

Validating a value against a node leads to visits of further nodes, each with a value of its own: a part of
the value, the value itself, or the name of one of its members.  `Registry.Visits` says which ones, in the
order in which they come: a visit is made only if those before it did not settle the matter.  What they
settled is said by `Registry.Accepts`, so nothing here depends on how many levels a validation may take.
-/

namespace ExampleSchema
namespace Registry

/-- The visits for a member that no property declares by its name: its name is tried with the types of the
shortcuts, up to the first that takes it, and then its value is visited. -/
inductive VisitsOther (types : Registry) (header : Header) (properties : Properties) (name : String)
    (value : Value) : Node × Value → Prop
  | name {before after : Properties} {key : PropertyKey} {node root : Node}
      (hproperties : properties = before ++ (key, node) :: after)
      (hbefore : ∀ p ∈ before, ¬ p.1.Takes types types.Reads name) (hkey : key.isShortcut = true)
      (hroot : types.root? key.name = some root) :
    VisitsOther types header properties name value (root, .ofText "key" name)
  | shortcut {node : Node} (hfirst : properties.IsFirst types types.Reads name node) :
    VisitsOther types header properties name value (node, value)
  | user {type : String} {root : Node} (hnone : ∀ p ∈ properties, ¬ p.1.Takes types types.Reads name)
      (hrule : header.rules.constraint? .additionalProperties =
        some (.additionalProperties (.user type)))
      (hroot : types.root? type = some root) :
    VisitsOther types header properties name value (root, value)

/-- The visits that a validation makes from one node and value. -/
inductive Visits (types : Registry) : Node × Value → Node × Value → Prop
  /-- A type of the node, if no earlier one accepts the value. -/
  | type {node root : Node} {value : Value} {before after : List String} {name : String}
      (hopen : ¬ node.AcceptsAnyway value) (hnames : node.rules.typeNames = before ++ name :: after)
      (hbefore : ∀ earlier ∈ before, ¬ ∃ root ∈ types.root? earlier, types.Accepts root value)
      (hroot : types.root? name = some root) :
    Visits types (node, value) (root, value)
  /-- A declared property with its member, if all earlier ones are met. -/
  | declared {header : Header} {properties before after : Properties} {mark m : Mark}
      {members : List (String × Mark × Value)} {key : PropertyKey} {node : Node} {value : Value}
      (hopen : ¬ (Node.object header properties).AcceptsAnyway (.object mark members))
      (hnames : header.rules.typeNames = [])
      (hproperties : properties = before ++ (key, node) :: after)
      (hbefore : ∀ p ∈ before, types.IsMet members p) (hkey : key.isShortcut = false)
      (hmember : Catalog.find? members key.name = some (m, value)) :
    Visits types (.object header properties, .object mark members) (node, value)
  /-- What an undeclared member leads to, if all properties are met and all earlier members are let be. -/
  | other {header : Header} {properties : Properties} {mark m : Mark}
      {members before after : List (String × Mark × Value)} {name : String} {value : Value}
      {visit : Node × Value}
      (hopen : ¬ (Node.object header properties).AcceptsAnyway (.object mark members))
      (hnames : header.rules.typeNames = []) (hmet : ∀ p ∈ properties, types.IsMet members p)
      (hmembers : members = before ++ (name, m, value) :: after)
      (hbefore : ∀ member ∈ before, types.IsLet header properties member)
      (hother : properties.declared? name = none)
      (h : types.VisitsOther header properties name value visit) :
    Visits types (.object header properties, .object mark members) visit
  /-- An item with a sample, if all earlier items are accepted and the item is by no earlier sample. -/
  | item {header : Header} {samples before after : List Node} {mark : Mark}
      {items first more : List Value} {sample : Node} {item : Value}
      (hopen : ¬ (Node.array header samples).AcceptsAnyway (.array mark items))
      (hnames : header.rules.typeNames = []) (hcount : header.AllowsCount items.length)
      (hitems : items = first ++ item :: more)
      (hfirst : ∀ earlier ∈ first, ∃ sample ∈ samples, types.Accepts sample earlier)
      (hsamples : samples = before ++ sample :: after)
      (hbefore : ∀ earlier ∈ before, ¬ types.Accepts earlier item) :
    Visits types (.array header samples, .array mark items) (sample, item)

variable {types : Registry} {levels : Nat} {x y : Node × Value}

/-- A literal without types leads nowhere, and one with types leads to their roots. -/
theorem Visits.of_literal {header : Header} {sample? : Option Mark} {value : Value}
    (h : types.Visits (.literal header sample?, value) y) :
    ∃ name ∈ header.rules.typeNames, types.root? name = some y.1 := by
  cases h with
  | type hopen hnames hbefore hroot =>
    refine ⟨_, ?_, hroot⟩
    change _ ∈ (Node.literal header sample?).rules.typeNames
    rw [hnames]
    simp

/-- An array without types leads to its samples. -/
theorem Visits.of_array {header : Header} {samples : List Node} {value : Value}
    (hnames : header.rules.typeNames = []) (h : types.Visits (.array header samples, value) y) :
    y.1 ∈ samples := by
  cases h with
  | type hopen hnames' hbefore hroot =>
    rw [show (Node.array header samples).rules.typeNames = [] from hnames] at hnames'
    exact (List.cons_ne_nil _ _ (List.append_eq_nil_iff.1 hnames'.symm).2).elim
  | item hopen hnames hcount hitems hfirst hsamples hbefore =>
    rw [hsamples]
    simp

/-- A node with types leads to their roots, with the value itself. -/
theorem Visits.of_typeNames_ne_nil {node : Node} {value : Value} (hnames : node.rules.typeNames ≠ [])
    (h : types.Visits (node, value) y) :
    (∃ name ∈ node.rules.typeNames, types.root? name = some y.1) ∧ y.2 = value := by
  cases h with
  | @type node root value before after name hopen hnames hbefore hroot =>
    refine ⟨⟨name, ?_, hroot⟩, rfl⟩
    rw [hnames]
    simp
  | declared hopen hnone | other hopen hnone | item hopen hnone => exact (hnames hnone).elim

/-- An object without types, shortcuts and a rule on other members leads from its properties to the members. -/
theorem Visits.of_object {header : Header} {properties : Properties} {mark : Mark}
    {members : List (String × Mark × Value)} (hnames : header.rules.typeNames = [])
    (hkeys : ∀ p ∈ properties, p.1.isShortcut = false)
    (hrule : header.rules.constraint? .additionalProperties = none)
    (h : types.Visits (.object header properties, .object mark members) y) :
    ∃ p ∈ properties, ∃ member ∈ members, y = (p.2, member.2.2) := by
  cases h with
  | type hopen hnames' hbefore hroot =>
    rw [show (Node.object header properties).rules.typeNames = [] from hnames] at hnames'
    exact (List.cons_ne_nil _ _ (List.append_eq_nil_iff.1 hnames'.symm).2).elim
  | @declared header properties before after mark m members key node value hopen hnames hproperties hbefore hkey
      hmember =>
    exact ⟨(key, node), by rw [hproperties]; simp, _, Catalog.mem_of_find?_eq_some hmember, rfl⟩
  | other hopen hnames hmet hmembers hbefore hother hvisit =>
    cases hvisit with
    | @name before after key node root hproperties hbefore hkey hroot =>
      have hplain := hkeys (key, node) (by rw [hproperties]; simp)
      cases hkey.symm.trans hplain
    | @shortcut node hfirst =>
      obtain ⟨before, key, after, hproperties, ⟨hkey, -⟩, -⟩ := hfirst
      have hplain := hkeys (key, node) (by rw [hproperties]; simp)
      cases hkey.symm.trans hplain
    | user hnone hrule' hroot => cases hrule.symm.trans hrule'

/-- A node without types, parts and a rule on other members leads nowhere. -/
theorem not_visits {node : Node} {value : Value} (hnames : node.rules.typeNames = []) (hchildren : node.children = [])
    (hrule : node.rules.constraint? .additionalProperties = none) : ¬ types.Visits (node, value) y := by
  intro h
  cases h with
  | type hopen hnames' hbefore hroot =>
    rw [hnames] at hnames'
    exact (List.cons_ne_nil _ _ (List.append_eq_nil_iff.1 hnames'.symm).2).elim
  | declared hopen hnames' hproperties hbefore hkey hmember =>
    rw [Node.children, hproperties] at hchildren
    simp at hchildren
  | item hopen hnames' hcount hitems hfirst hsamples hbefore =>
    rw [Node.children, hsamples] at hchildren
    simp at hchildren
  | other hopen hnames' hmet hmembers hbefore hother hvisit =>
    obtain rfl := List.map_eq_nil_iff.1 hchildren
    cases hvisit with
    | name hproperties hbefore hkey hroot => simp at hproperties
    | shortcut hfirst =>
      obtain ⟨before, key, after, hproperties, -⟩ := hfirst
      simp at hproperties
    | user hnone hrule' hroot => cases hrule.symm.trans hrule'

/-- The visits from some node and value on nest at most so deep. -/
def VisitsWithin (types : Registry) (levels : Nat) (x : Node × Value) : Prop :=
  ∀ path, List.IsChain types.Visits (x :: path) → path.length ≤ levels

/-- Where no level is left, there are no visits. -/
theorem visitsWithin_zero_iff : types.VisitsWithin 0 x ↔ ∀ y, ¬ types.Visits x y := by
  constructor
  · intro h y hvisit
    have hlength := h [y] (.cons_cons hvisit (.singleton y))
    cases hlength
  · intro h path hpath
    cases path with
    | nil => exact Nat.le_refl 0
    | cons y path => exact (h y (List.isChain_cons_cons.1 hpath).1).elim

/-- Each visit takes one level. -/
theorem visitsWithin_succ_iff :
    types.VisitsWithin (levels + 1) x ↔ ∀ y, types.Visits x y → types.VisitsWithin levels y := by
  constructor
  · intro h y hvisit path hpath
    have hlength := h (y :: path) (.cons_cons hvisit hpath)
    rw [List.length_cons] at hlength
    omega
  · intro h path hpath
    cases path with
    | nil => exact Nat.zero_le _
    | cons y path =>
      obtain ⟨hvisit, hpath⟩ := List.isChain_cons_cons.1 hpath
      have hlength := h y hvisit path hpath
      rw [List.length_cons]
      omega

theorem VisitsWithin.mono {more : Nat} (h : types.VisitsWithin levels x) (hle : levels ≤ more) :
    types.VisitsWithin more x := fun path hpath => Nat.le_trans (h path hpath) hle

end Registry
end ExampleSchema
