import ExampleSchema.Proofs.Accept.Unlimited
import ExampleSchema.Proofs.Types
import Mathlib.Data.List.Chain

/-!
# Following references

A node that refers to types leads to their roots, each of which may refer to types again, and no value is used up on
the way.  The check of a schema works out the JSON types of each node, along every path of references, and fails where
a path comes back to a type that it has entered.  So in a compiled schema no path passes a type twice, and there are
at most as many references in a row as there are types.

Everything else that validation goes on to is a part of the value, or the name of a member.  Hence a validation comes
to an end without the limit on its levels: it visits nothing more than a number of levels deep that the number of
types and the depth of the value give.

* `Registry.Hops`: the names along a path of references.
* `Registry.Hops.nodup`: if the references of all types come to an end, then the names are distinct.
* `Registry.rootsReferWithin_length`: then references nest at most as deep as there are types.
* `Registry.RootsReferWithin.visitsWithin`: the visits of a validation come to an end.
* `Session.Arises.hops_nodup`: all of this for compiled schemas.
-/

namespace ExampleSchema
namespace Registry

variable {types : Registry} {bound references depth levels : Nat} {node root : Node} {value : Value}
  {name : String} {names : List String}

/-! ## Paths of references -/

/-- The names along a path of references: from a node to the root of a type that it refers to, and on from there. -/
inductive Hops (types : Registry) : Node → List String → Prop
  | nil (node : Node) : Hops types node []
  | cons {node root : Node} {name : String} {names : List String} (hname : name ∈ node.rules.typeNames)
      (hroot : types.root? name = some root) (h : Hops types root names) : Hops types node (name :: names)

/-- Each name along a path is one that the type before it refers to. -/
theorem Hops.isChain (hroot : types.root? name = some root) (h : types.Hops root names) :
    (name :: names).IsChain types.Names := by
  induction h generalizing name with
  | nil => exact .singleton name
  | @cons node root next names hname hnext h ih => exact .cons_cons ⟨node, hroot, hname⟩ (ih hnext)

theorem Hops.isSome_root? (h : types.Hops node names) : ∀ name ∈ names, (types.root? name).isSome := by
  induction h with
  | nil => exact List.forall_mem_nil _
  | cons hname hroot h ih => exact List.forall_mem_cons.2 ⟨Option.isSome_of_eq_some hroot, ih⟩

/-- If the references of all types come to an end, no type leads back to itself. -/
theorem not_transGen_of_settles (hsettles : ∀ name root, types.root? name = some root → types.Settles name) :
    ¬ Relation.TransGen types.Names name name := by
  intro hback
  obtain ⟨other, ⟨root, hroot, -⟩, -⟩ := Relation.TransGen.head'_iff.1 hback
  exact (hsettles name root hroot).not_transGen hback

/-- **The names along a path of references are distinct**, also from the type that it starts from. -/
theorem Hops.nodup_cons (hsettles : ∀ name root, types.root? name = some root → types.Settles name)
    (hroot : types.root? name = some root) (h : types.Hops root names) : (name :: names).Nodup := by
  have hchain : (name :: names).IsChain (Relation.TransGen types.Names) := (h.isChain hroot).imp fun _ _ => .single
  refine (List.isChain_iff_pairwise.1 hchain).imp fun {first second} hleads heq => ?_
  rw [heq] at hleads
  exact not_transGen_of_settles hsettles hleads

theorem Hops.nodup (hsettles : ∀ name root, types.root? name = some root → types.Settles name)
    (h : types.Hops node names) : names.Nodup := by
  cases h with
  | nil => exact List.nodup_nil
  | cons hname hroot h => exact h.nodup_cons hsettles hroot

/-- A path of references is no longer than there are types. -/
theorem Hops.length_le (hsettles : ∀ name root, types.root? name = some root → types.Settles name)
    (h : types.Hops node names) : names.length ≤ types.length := by
  have hkeys : names ⊆ Catalog.keys types := fun name hname => by
    obtain ⟨root, hroot⟩ := Option.isSome_iff_exists.1 (h.isSome_root? name hname)
    exact mem_keys_of_root?_eq_some hroot
  have hle := ((h.nodup hsettles).subperm hkeys).length_le
  rwa [Catalog.keys, List.length_map] at hle

/-- References nest as deep as the longest path of them, if they lead to registered types only. -/
theorem Settles.refersWithin (h : types.Settles name) (hroot : types.root? name = some root)
    (hlength : ∀ names, types.Hops root names → names.length ≤ bound) : types.RefersWithin bound root := by
  induction bound generalizing name root with
  | zero =>
    refine List.eq_nil_iff_forall_not_mem.2 fun other hother => ?_
    cases h with
    | intro hroot' hnames =>
      obtain rfl := Option.some.inj (hroot'.symm.trans hroot)
      cases hnames other hother with
      | @intro _ next hnext _ =>
        have hpath := hlength [other] (.cons hother hnext (.nil next))
        cases hpath
  | succ bound ih =>
    intro other hother next hnext
    cases h with
    | intro hroot' hnames =>
      obtain rfl := Option.some.inj (hroot'.symm.trans hroot)
      exact ih (hnames other hother) hnext fun names hnames =>
        Nat.le_of_succ_le_succ (hlength (other :: names) (.cons hother hnext hnames))

/-- **References nest at most as deep as there are types**, if those of all types come to an end. -/
theorem rootsReferWithin_length (hsettles : ∀ name root, types.root? name = some root → types.Settles name) :
    types.RootsReferWithin types.length := fun name root hroot =>
  (hsettles name root hroot).refersWithin hroot fun _ hnames => hnames.length_le hsettles

/-! ## The visits of a validation -/

/-- A visit leads to the root of a type that the node refers to, with the same value, or to a part of the value, or
to the root of some type, with the name of a member. -/
theorem Visits.refers_or_consumes {y : Node × Value} (h : types.Visits (node, value) y) :
    (∃ name ∈ node.rules.typeNames, types.root? name = some y.1 ∧ y.2 = value) ∨ y.2 ∈ value.parts ∨
      value.parts ≠ [] ∧ ∃ key text, types.root? key = some y.1 ∧ y.2 = .ofText "key" text := by
  cases h with
  | @type node root value before after name hopen hnames hbefore hroot =>
    refine Or.inl ⟨name, ?_, hroot, rfl⟩
    rw [hnames]
    exact List.mem_append_right _ (List.mem_cons_self ..)
  | declared hopen hnames hproperties hbefore hkey hmember =>
    exact Or.inr (Or.inl (List.mem_map_of_mem (Catalog.mem_of_find?_eq_some hmember)))
  | @other header properties mark m members before after text value visit hopen hnames hmet hmembers hbefore hother
      hvisit =>
    have hmember : (text, m, value) ∈ members := by
      rw [hmembers]
      exact List.mem_append_right _ (List.mem_cons_self ..)
    have hpart : value ∈ (Value.object mark members).parts := List.mem_map_of_mem hmember
    cases hvisit with
    | name hproperties hbefore hkey hroot => exact Or.inr (Or.inr ⟨List.ne_nil_of_mem hpart, _, _, hroot, rfl⟩)
    | shortcut hfirst => exact Or.inr (Or.inl hpart)
    | user hnone hrule hroot => exact Or.inr (Or.inl hpart)
  | @item header samples before after mark items first more sample item hopen hnames hcount hitems hfirst hsamples
      hbefore =>
    refine Or.inr (Or.inl ?_)
    change item ∈ items
    rw [hitems]
    exact List.mem_append_right _ (List.mem_cons_self ..)

/-- Each visit leads to where fewer are left: a reference to where references nest less deep, and all others to where
values do. -/
theorem RootsReferWithin.exists_lt_of_visits (hroots : types.RootsReferWithin bound)
    (hnode : types.RefersWithin references node) (hvalue : value.NestsWithin depth) {y : Node × Value}
    (h : types.Visits (node, value) y) : ∃ references' depth', types.RefersWithin references' y.1 ∧
      y.2.NestsWithin depth' ∧ (bound + 2) * depth' + references' < (bound + 2) * depth + references := by
  rcases h.refers_or_consumes with ⟨name, hname, hroot, hsame⟩ | hpart | ⟨hparts, key, text, hroot, htext⟩
  · cases references with
    | zero =>
      rw [show node.rules.typeNames = [] from hnode] at hname
      cases hname
    | succ references => exact ⟨references, depth, hnode name hname _ hroot, hsame ▸ hvalue, by omega⟩
  · cases depth with
    | zero =>
      rw [show value.parts = [] from hvalue] at hpart
      cases hpart
    | succ depth =>
      refine ⟨bound + 1, depth, hroots.refersWithin_succ y.1, hvalue _ hpart, ?_⟩
      rw [Nat.mul_succ]
      omega
  · cases depth with
    | zero => exact (hparts hvalue).elim
    | succ depth =>
      have hliteral : y.2.NestsWithin 0 := by rw [htext]; exact rfl
      refine ⟨bound, 0, hroots key _ hroot, hliteral, ?_⟩
      rw [Nat.mul_succ]
      omega

/-- **The visits of a validation come to an end**, after so many levels for each level of the value as references
nest deep. -/
theorem RootsReferWithin.visitsWithin (hroots : types.RootsReferWithin bound)
    (hnode : types.RefersWithin references node) (hvalue : value.NestsWithin depth)
    (hlevels : (bound + 2) * depth + references ≤ levels) : types.VisitsWithin levels (node, value) := by
  induction levels generalizing node value references depth with
  | zero =>
    refine visitsWithin_zero_iff.2 fun y hvisit => ?_
    obtain ⟨references', depth', -, -, hlt⟩ := hroots.exists_lt_of_visits hnode hvalue hvisit
    omega
  | succ levels ih =>
    refine visitsWithin_succ_iff.2 fun y hvisit => ?_
    obtain ⟨references', depth', hnode', hvalue', hlt⟩ := hroots.exists_lt_of_visits hnode hvalue hvisit
    exact ih hnode' hvalue' (by omega)

end Registry

namespace Session

/-! ## Compiled schemas -/

/-- **References of a compiled schema come to an end.**  Along every path of references the names are distinct: from
any node of the schema, and from any type, with the name of that type.  Hence validation needs no limit: there is one
that goes on as long as it takes, and for a value that nests so deep, the visits from any node on nest no deeper than
`(n + 2) * (depth + 1)` levels, where `n` is the number of types; over that many levels or more, the validation by
levels has its outcome.  (Each value nests within some depth, by `Value.nestsWithin_sizeOf`.) -/
theorem Arises.hops_nodup {s : Session} (hs : s.Arises) {schema : Schema} (h : s.compiled = .ok schema) :
    (∀ node ∈ schema.nodes, ∀ names, schema.types.Hops node names → names.Nodup) ∧
    (∀ name root, schema.types.root? name = some root →
      ∀ names, schema.types.Hops root names → (name :: names).Nodup) ∧
    ∃ visit, (∀ other, schema.types.IsUnlimited other ↔ other = visit) ∧
      ∀ node value depth, value.NestsWithin depth → ∀ levels, (schema.types.length + 2) * (depth + 1) ≤ levels →
        schema.types.VisitsWithin levels (node, value) ∧
        schema.types.accept levels node value = visit node value := by
  have hsettles : ∀ name root, schema.types.root? name = some root → schema.types.Settles name :=
    fun name root hroot => hs.settles h hroot
  have hroots := Registry.rootsReferWithin_length hsettles
  obtain ⟨visit, hvisit, hunique⟩ := Registry.existsUnique_isUnlimited hroots
  refine ⟨fun node _ names hnames => hnames.nodup hsettles,
    fun name root hroot names hnames => hnames.nodup_cons hsettles hroot, visit,
    fun other => ⟨hunique other, fun hother => hother ▸ hvisit⟩, fun node value depth hvalue levels hlevels => ?_⟩
  rw [Nat.mul_succ] at hlevels
  have hnode := hroots.refersWithin_succ node
  exact ⟨hroots.visitsWithin hnode hvalue (by omega),
    hvisit.accept_eq_of_refersWithin hroots hnode hvalue (by omega)⟩

/-- A document that is written as the name of a type, which is another name for a type of strings. -/
def relay : Outcome Session := do
  let s ← addType { source := .ofString "root" "@Pet" } "@Pet" (.ofString "@Pet" "@Cat")
  s.addType "@Cat" (.ofString "@Cat" "\"Tom\"")

/-- What the root of that schema, its first type and its second one refer to, if it compiles. -/
def relayNames? : Option (List (List String)) :=
  match relay >>= compiled with
  | .ok schema => do
    let pet ← schema.types.root? "@Pet"
    let cat ← schema.types.root? "@Cat"
    return [schema.root, pet, cat].map fun node => node.rules.typeNames
  | .error _ => none

/-- Two references in a row, and a validation of a string that takes no more levels than it may. -/
theorem hops_of_relay : ∃ s schema, ∃ visit : Node → Value → Outcome Unit, relay = .ok s ∧ s.Arises ∧
    s.compiled = .ok schema ∧ schema.types.Hops schema.root ["@Pet", "@Cat"] ∧ ["@Pet", "@Cat"].Nodup ∧
    schema.types.VisitsWithin (schema.types.length + 2) (schema.root, kitty) ∧
    schema.types.accept (schema.types.length + 2) schema.root kitty = visit schema.root kitty := by
  have hnames : relayNames? = some [["@Pet"], ["@Cat"], []] := by decide +kernel
  rw [relayNames?] at hnames
  split at hnames
  · next schema hcompiled =>
    obtain ⟨s, hs, hcompiled⟩ := Except.bind_eq_ok_iff.1 hcompiled
    obtain ⟨pet, hpet, hnames⟩ := Option.bind_eq_some_iff.1 hnames
    obtain ⟨cat, hcat, hnames⟩ := Option.bind_eq_some_iff.1 hnames
    simp only [List.map_cons, List.map_nil, Option.pure_def, Option.some.injEq, List.cons.injEq, and_true] at hnames
    obtain ⟨hroot, hpetNames, -⟩ := hnames
    have harises : s.Arises := by
      obtain ⟨first, hfirst, hs⟩ := Except.bind_eq_ok_iff.1 hs
      exact .addType (.addType (.start _) hfirst) hs
    obtain ⟨hnodup, -, visit, -, hends⟩ := harises.hops_nodup hcompiled
    have hpath : schema.types.Hops schema.root ["@Pet", "@Cat"] :=
      .cons (by rw [hroot]; exact List.mem_singleton.2 rfl) hpet
        (.cons (by rw [hpetNames]; exact List.mem_singleton.2 rfl) hcat (.nil cat))
    have hkitty : kitty.NestsWithin 0 := rfl
    obtain ⟨hvisits, haccept⟩ := hends schema.root kitty 0 hkitty (schema.types.length + 2) (by omega)
    have hmem : schema.root ∈ schema.nodes := Schema.mem_nodes_of_mem_roots (List.mem_cons_self ..)
    exact ⟨s, schema, visit, hs, harises, hcompiled, hpath, hnodup _ hmem _ hpath, hvisits, haccept⟩
  · cases hnames

end Session
end ExampleSchema
