import ExampleSchema.Proofs.Accept.Levels
import ExampleSchema.Proofs.Containment
import ExampleSchema.Proofs.References
import ExampleSchema.Proofs.Tree
import ExampleSchema.Schema.Compile
import ExampleSchema.Schema.Load

/-!
# Types with finite values

The search for endless types is meant to refuse the registries in which some type has no finite value.
It is at once stricter and more lenient than that.  Stricter, since it follows all members of a union where
one with a finite value would do, and the properties of an object beside the types that the object refers
to.  More lenient, since it never looks into arrays, also not where `minItems` asks for an item.

* `Registry.Satisfiable`: some finite value meets what a node asks, as far as references go.
* `Registry.Finitary`: what a node asks comes to an end whichever members of unions are chosen, arrays
  being left out of account.
* `Registry.checkEndless_iff_finitary`: the search accepts exactly the registries all of whose types are
  finitary, and how that compares with having finite values.
* `Registry.ring_chain_differ`: registries in which the two differ.
-/

namespace ExampleSchema
namespace Registry

/-- Something holds of all nodes of all types. -/
def AllNodes (types : Registry) (P : Node → Prop) : Prop :=
  ∀ e ∈ types, ∀ node ∈ e.2.root.subnodes, P node

instance {types : Registry} {P : Node → Prop} [DecidablePred P] : Decidable (types.AllNodes P) :=
  inferInstanceAs (Decidable (∀ e ∈ types, ∀ node ∈ e.2.root.subnodes, P node))

/-- The types that nodes refer to are registered. -/
def Resolves (types : Registry) : Prop :=
  types.AllNodes fun node => ∀ name ∈ node.rules.typeNames, name ∈ Catalog.keys types

instance {types : Registry} : Decidable types.Resolves :=
  inferInstanceAs (Decidable (types.AllNodes _))

/-- **Some finite value meets what a node asks**: it is `null`, or it is a value of one of the types that
the node refers to, or there is none and what has to be in the value can be. -/
inductive Satisfiable (types : Registry) : Node → Prop where
  | nullable {node : Node} (hnull : node.isNullable = true) : Satisfiable types node
  | type {node root : Node} {name : String} (hname : name ∈ node.rules.typeNames)
      (hroot : types.root? name = some root) (h : Satisfiable types root) : Satisfiable types node
  | literal {header : Header} {sample? : Option Mark} (hnames : header.rules.typeNames = []) :
      Satisfiable types (.literal header sample?)
  | mixed {header : Header} {sample? : Option Mark} (hnames : header.rules.typeNames = []) :
      Satisfiable types (.mixed header sample?)
  | reference {header : Header} {names : List String} (hnames : header.rules.typeNames = []) :
      Satisfiable types (.reference header names)
  /-- An array that may be empty. -/
  | empty {header : Header} {samples : List Node} (hnames : header.rules.typeNames = [])
      (hempty : samples = [] ∨ header.rules.count? .minItems ∈ [none, some 0]) :
      Satisfiable types (.array header samples)
  /-- An array with an item. -/
  | item {header : Header} {samples : List Node} {sample : Node} (hnames : header.rules.typeNames = [])
      (hsample : sample ∈ samples) (h : Satisfiable types sample) :
      Satisfiable types (.array header samples)
  | object {header : Header} {properties : Properties} (hnames : header.rules.typeNames = [])
      (hparts : ∀ part ∈ (Node.object header properties).requiredParts, Satisfiable types part) :
      Satisfiable types (.object header properties)

/-- **What a node asks comes to an end** whichever of its types are chosen: it may be `null`, or all types that
it refers to come to an end, and so do its required parts, of which an array has none. -/
inductive Finitary (types : Registry) : Node → Prop where
  | nullable {node : Node} (hnull : node.isNullable = true) : Finitary types node
  | whole {node : Node} (hnames : ∀ name ∈ node.rules.typeNames, name ∈ Catalog.keys types)
      (htypes : ∀ name ∈ node.rules.typeNames, ∀ root, types.root? name = some root → Finitary types root)
      (hparts : ∀ part ∈ node.requiredParts, Finitary types part) : Finitary types node

/-- A type is registered, and its root is as said. -/
def HasType (types : Registry) (P : Node → Prop) (name : String) : Prop :=
  ∃ root, types.root? name = some root ∧ P root

/-- A value of the node may be an empty array, if it is an array at all. -/
def MayBeEmpty : Node → Prop
  | .array header samples => samples = [] ∨ header.rules.count? .minItems ∈ [none, some 0]
  | _ => True

instance : DecidablePred MayBeEmpty
  | .array header samples =>
    inferInstanceAs (Decidable (samples = [] ∨ header.rules.count? .minItems ∈ [none, some 0]))
  | .literal .. | .object .. | .mixed .. | .reference .. => isTrue trivial

/-- A node refers to at most one type, and if to one, then it has no required parts. -/
def IsSingle (node : Node) : Prop :=
  node.rules.typeNames = [] ∨ node.rules.typeNames.length = 1 ∧ node.requiredParts = []

instance : DecidablePred IsSingle := fun node =>
  inferInstanceAs (Decidable (node.rules.typeNames = [] ∨ node.rules.typeNames.length = 1 ∧ node.requiredParts = []))

section

variable {types : Registry} {P : Node → Prop} {node part root : Node} {name : String}

theorem AllNodes.of_root? (h : types.AllNodes P) (hroot : types.root? name = some root) :
    ∀ node ∈ root.subnodes, P node := by
  obtain ⟨entry, hentry, rfl⟩ := Option.map_eq_some_iff.1 hroot
  exact h _ (Catalog.mem_of_find?_eq_some hentry)

theorem mem_children_of_mem_requiredParts (h : part ∈ node.requiredParts) : part ∈ node.children := by
  cases node with
  | object header properties =>
    obtain ⟨p, hp, rfl⟩ := List.mem_map.1 h
    exact List.mem_map_of_mem (List.mem_of_mem_filter hp)
  | literal | array | mixed | reference => cases h

/-- The types that a value has to contain: those of its node and those of its required parts. -/
theorem mem_strictReferences_iff {target : String} : target ∈ node.strictReferences.map Prod.fst ↔
    node.isNullable = false ∧ (target ∈ node.rules.typeNames ∨
      ∃ part ∈ node.requiredParts, target ∈ part.strictReferences.map Prod.fst) := by
  rw [Node.strictReferences_eq]
  cases node.isNullable with
  | true => simp
  | false => simp [exists_comm (α := Mark)]

/-! ## What the search accepts -/

/-- What a finitary node has to contain is grounded. -/
theorem Finitary.isGrounded (h : types.Finitary node) :
    ∀ target ∈ node.strictReferences.map Prod.fst, types.IsGrounded target := by
  induction h with
  | nullable hnull =>
    intro target htarget
    rw [(mem_strictReferences_iff.1 htarget).1] at hnull
    cases hnull
  | whole hnames _ _ ihtypes ihparts =>
    intro target htarget
    rcases (mem_strictReferences_iff.1 htarget).2 with hname | ⟨part, hpart, htarget⟩
    · obtain ⟨root, hroot⟩ := exists_root?_of_mem_keys (hnames target hname)
      exact isGrounded_of_root? hroot (ihtypes target hname root hroot)
    · exact ihparts part hpart target htarget

/-- A node is finitary if all that it has to contain is. -/
theorem finitary_of_strictReferences
    (hresolves : ∀ part ∈ node.subnodes, ∀ name ∈ part.rules.typeNames, name ∈ Catalog.keys types)
    (h : ∀ target ∈ node.strictReferences.map Prod.fst, ∀ root, types.root? target = some root →
      types.Finitary root) : types.Finitary node := by
  induction node using Node.inductionOn with
  | step node ih =>
    cases hnull : node.isNullable with
    | true => exact .nullable hnull
    | false =>
      refine .whole (hresolves node (Node.mem_subnodes_self node)) (fun name hname => ?_) fun part hpart => ?_
      · exact h name (mem_strictReferences_iff.2 ⟨hnull, Or.inl hname⟩)
      · have hchild := mem_children_of_mem_requiredParts hpart
        refine ih part hchild (fun inner hinner => hresolves inner ?_) fun target htarget => ?_
        · exact Node.mem_subnodes_iff.2 (Or.inr ⟨part, hchild, hinner⟩)
        · exact h target (mem_strictReferences_iff.2 ⟨hnull, Or.inr ⟨part, hpart, htarget⟩⟩)

/-- The root of a grounded type is finitary. -/
theorem Resolves.finitary (hresolves : types.Resolves) (h : types.IsGrounded name)
    (hroot : types.root? name = some root) : types.Finitary root := by
  induction h generalizing root with
  | intro name _ ih =>
    refine finitary_of_strictReferences (AllNodes.of_root? hresolves hroot) ?_
    intro target htarget root' hroot'
    exact ih target ⟨root, hroot, htarget⟩ hroot'

theorem Resolves.checkEndless_eq_ok_iff_finitary (h : types.Resolves) :
    types.checkEndless = .ok () ↔ ∀ name ∈ Catalog.keys types, types.HasType types.Finitary name := by
  rw [checkEndless_eq_ok_iff]
  constructor
  · intro hgrounded name hname
    obtain ⟨root, hroot⟩ := exists_root?_of_mem_keys hname
    exact ⟨root, hroot, h.finitary (hgrounded name) hroot⟩
  · intro hfinitary name
    cases hroot : types.root? name with
    | none => exact isGrounded_of_root?_eq_none hroot
    | some root =>
      obtain ⟨root', hroot', hfin⟩ := hfinitary name (mem_keys_of_root?_eq_some hroot)
      exact isGrounded_of_root? hroot' hfin.isGrounded

/-! ## How that compares with having finite values -/

/-- Where arrays may be empty, a finitary node has a finite value. -/
theorem Finitary.satisfiable (harrays : types.AllNodes MayBeEmpty) (h : types.Finitary node)
    (hnode : ∀ part ∈ node.subnodes, MayBeEmpty part) : types.Satisfiable node := by
  induction h with
  | nullable hnull => exact .nullable hnull
  | @whole node hnames _ _ ihtypes ihparts =>
    cases hlist : node.rules.typeNames with
    | cons name rest =>
      have hname : name ∈ node.rules.typeNames := by rw [hlist]; exact List.mem_cons_self ..
      obtain ⟨root, hroot⟩ := exists_root?_of_mem_keys (hnames name hname)
      exact .type hname hroot (ihtypes name hname root hroot (harrays.of_root? hroot))
    | nil =>
      cases node with
      | literal => exact .literal hlist
      | mixed => exact .mixed hlist
      | reference => exact .reference hlist
      | array => exact .empty hlist (hnode _ (Node.mem_subnodes_self _))
      | object header properties =>
        refine .object hlist fun part hpart => ihparts part hpart fun inner hinner => hnode inner ?_
        exact Node.mem_subnodes_iff.2 (Or.inr ⟨part, mem_children_of_mem_requiredParts hpart, hinner⟩)

/-- Where nodes refer to single types, a node with a finite value is finitary. -/
theorem Satisfiable.finitary (hsingle : types.AllNodes IsSingle) (h : types.Satisfiable node)
    (hnode : ∀ part ∈ node.subnodes, IsSingle part) : types.Finitary node := by
  induction h with
  | nullable hnull => exact .nullable hnull
  | @type node root name hname hroot _ ih =>
    rcases hnode node (Node.mem_subnodes_self node) with hnone | ⟨hone, hparts⟩
    · rw [hnone] at hname
      cases hname
    · obtain ⟨only, honly⟩ := List.length_eq_one_iff.1 hone
      obtain rfl : name = only := by simpa [honly] using hname
      refine .whole ?_ ?_ (by simp [hparts])
      · simpa [honly] using mem_keys_of_root?_eq_some hroot
      · simpa [honly, hroot] using ih (hsingle.of_root? hroot)
  | literal hnames | mixed hnames | reference hnames | empty hnames | item hnames =>
    refine .whole ?_ ?_ nofun <;>
    · intro name hname
      exact nomatch hnames ▸ hname
  | @object header properties hnames _ ih =>
    refine .whole (fun name hname => nomatch hnames ▸ hname) (fun name hname => nomatch hnames ▸ hname)
      fun part hpart => ih part hpart fun inner hinner => hnode inner ?_
    exact Node.mem_subnodes_iff.2 (Or.inr ⟨part, mem_children_of_mem_requiredParts hpart, hinner⟩)

end

/-- The registry of types that are given by their names and texts. -/
def ofTexts (texts : List (String × String)) : Outcome Registry := do
  let named ← texts.mapM fun (name, text) => do
    let source := Source.ofString name text
    return (name, { schema := ← Schema.load source name, source : RegisteredType })
  return ((← Schema.load (.ofString "root" "1") "root").register named).types

/-- Whether the types that nodes refer to are registered and the search accepts them, and what they are called. -/
def verdict (types : Registry) : Bool × Bool × List String :=
  (decide types.Resolves, types.checkEndless.isOk, Catalog.keys types)

theorem verdict_eq_iff {types : Registry} {accepted : Bool} {names : List String} :
    types.verdict = (true, accepted, names) ↔
      types.Resolves ∧ (types.checkEndless = .ok () ↔ accepted = true) ∧ Catalog.keys types = names := by
  simp only [verdict, Prod.mk.injEq, decide_eq_true_eq, ← isOk_iff, Bool.coe_iff_coe]

/-- Types that go on through what may be missing. -/
def open? : Option Registry :=
  (ofTexts [("@List", "\x7b\"next\": @List // \x7boptional: true\x7d\n\x7d"), ("@Tree", "[@Tree]")]).toOption

/-- Nodes that lead only to each other, by their types or as arrays that need an item, have no finite values. -/
theorem Satisfiable.not_of_closed {types : Registry} {S : Node → Prop}
    (hS : ∀ node, S node → node.isNullable = false ∧
      (∀ name ∈ node.rules.typeNames, ∀ root, types.root? name = some root → S root) ∧
      (node.rules.typeNames = [] → ∃ header samples, node = .array header samples ∧ ¬ MayBeEmpty node ∧
        ∀ sample ∈ samples, S sample))
    {node : Node} (h : types.Satisfiable node) : ¬ S node := by
  induction h with
  | nullable hnull => exact fun h => nomatch hnull.symm.trans (hS _ h).1
  | type hname hroot _ ih => exact fun h => ih ((hS _ h).2.1 _ hname _ hroot)
  | literal hnames | mixed hnames | reference hnames | object hnames =>
    intro h
    obtain ⟨_, _, harray, -⟩ := (hS _ h).2.2 hnames
    cases harray
  | empty hnames hempty =>
    intro h
    obtain ⟨_, _, -, hnot, -⟩ := (hS _ h).2.2 hnames
    exact hnot hempty
  | item hnames hsample _ ih =>
    intro h
    obtain ⟨_, _, harray, -, hsamples⟩ := (hS _ h).2.2 hnames
    obtain ⟨-, rfl⟩ := Node.array.inj harray
    exact ih (hsamples _ hsample)

/-- An array that has to have an item, and the item is such an array again. -/
def ring? : Option Registry := (ofTexts [("@T", "[@T] // \x7bminItems: 1\x7d")]).toOption

/-- What the array and its item are like: whether they may be `null`, their types, and the least number of items. -/
def ringShape? (types : Registry) : Option ((Bool × List String × Option Nat) × Bool × List String) :=
  match types.root? "@T" with
  | some (.array header [item]) => some
    ((header.rules.flag .nullable, header.rules.typeNames, header.rules.count? .minItems),
      item.isNullable, item.rules.typeNames)
  | _ => none

theorem not_satisfiable_of_ringShape? {types : Registry}
    (h : ringShape? types = some ((false, [], some 1), false, ["@T"])) :
    ¬ types.HasType types.Satisfiable "@T" := by
  rw [ringShape?] at h
  split at h
  · next header item hroot =>
    simp only [Option.some.injEq, Prod.mk.injEq] at h
    obtain ⟨⟨hnull, hnames, hleast⟩, hnull', hnames'⟩ := h
    rintro ⟨root, hroot', hsat⟩
    obtain rfl := Option.some.inj (hroot.symm.trans hroot')
    refine hsat.not_of_closed (S := fun node => node = .array header [item] ∨ node = item) ?_ (Or.inl rfl)
    rintro node (rfl | rfl)
    · refine ⟨hnull, ?_, fun _ => ⟨header, [item], rfl, ?_, ?_⟩⟩
      · intro name hname
        exact absurd (hnames ▸ hname : name ∈ []) List.not_mem_nil
      · simp [MayBeEmpty, hleast]
      · exact fun sample hsample => Or.inr (List.mem_singleton.1 hsample)
    · refine ⟨hnull', fun name hname root hroot' => Or.inl ?_, fun hnone => nomatch hnames'.symm.trans hnone⟩
      obtain rfl : name = "@T" := by simpa [hnames'] using hname
      exact Option.some.inj (hroot'.symm.trans hroot)
  · cases h

/-- An object that needs an object like it or a number. -/
def chain? : Option Registry :=
  (ofTexts [("@Node", "\x7b\"next\": @Node | @End\x7d"), ("@End", "1")]).toOption

/-- An object that needs an object like it, and for which a number would do. -/
def beside? : Option Registry :=
  (ofTexts [("@Node", "\x7b\"next\": @Node\x7d // \x7btype: \"@End\"\x7d"), ("@End", "1")]).toOption

/-- The types of the number, of the object and of each part that the object needs. -/
def chainShape? (types : Registry) : Option (List String × List String × List (List String)) :=
  match types.root? "@End", types.root? "@Node" with
  | some (.literal header _), some (.object header' properties) => some
    (header.rules.typeNames, header'.rules.typeNames,
      (Node.object header' properties).requiredParts.map fun part => part.rules.typeNames)
  | _, _ => none

theorem exists_of_chainShape? {types? : Option Registry} {names : List String} {parts : List (List String)}
    (hverdict : types?.map verdict = some (true, false, ["@Node", "@End"]))
    (hshape : types?.bind chainShape? = some ([], names, parts))
    (hend : "@End" ∈ names ∨ names = [] ∧ ∀ part ∈ parts, "@End" ∈ part) :
    ∃ types, types? = some types ∧ types.Resolves ∧ types.checkEndless ≠ .ok () ∧
      ∀ name ∈ Catalog.keys types, types.HasType types.Satisfiable name := by
  obtain ⟨types, rfl, htypes⟩ := Option.map_eq_some_iff.1 hverdict
  obtain ⟨hresolves, hrefused, hkeys⟩ := verdict_eq_iff.1 htypes
  refine ⟨types, rfl, hresolves, fun hok => Bool.false_ne_true (hrefused.1 hok), ?_⟩
  rw [Option.bind_some, chainShape?] at hshape
  split at hshape
  · next header _ header' properties hroot hroot' =>
    simp only [Option.some.injEq, Prod.mk.injEq] at hshape
    obtain ⟨hnames, rfl, rfl⟩ := hshape
    have hstop : types.HasType types.Satisfiable "@End" := ⟨_, hroot, .literal hnames⟩
    have hthrough : ∀ node : Node, "@End" ∈ node.rules.typeNames → types.Satisfiable node :=
      fun node hname => .type hname hroot (.literal hnames)
    rw [hkeys]
    refine List.forall_mem_cons.2 ⟨⟨_, hroot', ?_⟩, List.forall_mem_singleton.2 hstop⟩
    rcases hend with hend | ⟨hnone, hparts⟩
    · exact hthrough _ hend
    · exact .object hnone fun part hpart => hthrough part (hparts _ (List.mem_map_of_mem hpart))
  · cases hshape

end Registry
end ExampleSchema
