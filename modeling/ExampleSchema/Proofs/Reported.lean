import ExampleSchema.Proofs.Faults
import ExampleSchema.Proofs.Load.Names
import ExampleSchema.Proofs.Load.Owner

/-!
# The types that are reported

A document can be asked which types of the user it refers to, before anything is registered for it.  Compiling
follows references in many places: it inherits from objects, tells the types of nodes and of the names of
properties, looks for references without end, and compares samples.  None of these meets a name that is not
registered, if all types have been registered that the documents report.

* `Session.IsComplete`: all types are registered that the documents of a session report.
* `Session.Arises.code_ne_typeNotFound`: compiling such a session does not fail because a type is missing.
-/

namespace ExampleSchema

namespace Session

variable {s : Session} {types : List String}

/-! ## Reports -/

/-- The document of a session refers to no types of the user but some, or is not a document. -/
def ReportsOnly (s : Session) (types : List String) : Prop := ∀ names, s.userTypes = .ok names → names ⊆ types

/-- A report is read off the nodes of the document. -/
theorem reportsOnly_iff : s.ReportsOnly types ↔ ∀ loaded, s.load = .ok loaded →
    ∀ node ∈ loaded.nodes, ∀ name ∈ node.referredNames, isUserTypeName name = true → name ∈ types := by
  constructor
  · intro h loaded hload node hnode name hname huser
    have hreport : s.userTypes = .ok loaded.userTypes := by
      rw [userTypes, hload]
      rfl
    exact h _ hreport (Schema.mem_userTypes_iff.2 ⟨huser, node, hnode, hname⟩)
  · intro h names hreport name hname
    obtain ⟨loaded, hload, rfl⟩ := Except.map_eq_ok_iff.1 hreport
    obtain ⟨huser, node, hnode, hnames⟩ := Schema.mem_userTypes_iff.1 hname
    exact h loaded hload node hnode name hnames huser

instance (s : Session) (types : List String) : Decidable (s.ReportsOnly types) :=
  match hload : s.load with
  | .ok loaded =>
    decidable_of_iff (∀ node ∈ loaded.nodes, ∀ name ∈ node.referredNames, isUserTypeName name = true → name ∈ types)
      (by rw [reportsOnly_iff, hload]; simp)
  | .error _ => isTrue (by rw [reportsOnly_iff, hload]; simp)

/-- **All types are registered that a session reports**: those of its document, and those of the document of each
type that is registered. -/
structure IsComplete (s : Session) : Prop where
  document : s.ReportsOnly (Catalog.keys s.types)
  types : ∀ e ∈ s.types, ReportsOnly { source := e.2.source } (Catalog.keys s.types)

instance (s : Session) : Decidable s.IsComplete :=
  decidable_of_iff (s.ReportsOnly (Catalog.keys s.types) ∧
      ∀ e ∈ s.types, ReportsOnly { source := e.2.source } (Catalog.keys s.types))
    ⟨fun h => ⟨h.1, h.2⟩, fun h => ⟨h.document, h.types⟩⟩

/-! ## Compiling -/

/-- Where all types are registered that a document reports, all names in it are known after registration. -/
theorem finds_of_reported {loaded schema : Schema} {source : Source} {owner : String}
    (hload : Schema.load source owner = .ok schema)
    (hreported : ∀ name ∈ schema.userTypes, name ∈ Catalog.keys s.types)
    (hunnamed : ∀ name ∈ Catalog.keys schema.types, name ∈ Catalog.keys (loaded.register s.types).types) :
    schema.Finds fun name => name ∈ Catalog.keys (loaded.register s.types).types := by
  refine (Schema.finds_of_load_eq_ok hload).reported.mono fun name hname => ?_
  rcases hname with hname | hname
  · exact Schema.mem_keys_register_iff.2 (Or.inl (hreported name hname))
  · exact hunnamed name hname

/-- **The types that are reported are enough.**  If they are all registered, compiling does not fail because a type
is missing. -/
theorem Arises.code_ne_typeNotFound (hs : s.Arises) (h : s.IsComplete) :
    ∀ p, s.compiled = .error p → p.code ≠ .typeNotFound := by
  intro p hp
  rw [hs.compiled_eq] at hp
  rcases Except.bind_eq_error_iff.1 hp with hp | ⟨loaded, hload, hp⟩
  · -- Loading does not look names up.
    have hreading := (Schema.load_ofReading s.source s.source.name).of_error hp
    intro hcode
    rw [Problem.IsOfReading, hcode] at hreading
    cases hreading
  · have hdocument : loaded.Finds fun name => name ∈ Catalog.keys (loaded.register s.types).types := by
      refine finds_of_reported hload (h.document _ ?_) fun name hname => ?_
      · rw [userTypes, hload]
        rfl
      · exact Schema.mem_keys_register_iff.2 (Or.inr (Or.inl hname))
    have htypes : ∀ e ∈ s.types,
        e.2.schema.Finds fun name => name ∈ Catalog.keys (loaded.register s.types).types := by
      intro e he
      obtain ⟨-, htype⟩ := hs.load_of_mem_types he
      refine finds_of_reported htype (h.types e he _ ?_) fun name hname => ?_
      · -- The document of a type has been loaded under another owner, which is not to be seen.
        have howner := Schema.userTypes_load e.2.source e.2.source.name e.1
        rw [htype] at howner
        exact howner
      · exact Schema.mem_keys_register_iff.2 (Or.inr (Or.inr ⟨e, he, hname⟩))
    exact (Schema.compile_missesNone hdocument htypes (fun _ => id) s.rules).of_error hp

/-- A document that refers to types in each way there is, and the types.  The sample of a toy is too short. -/
def household : Outcome Session :=
  let living := "\x7b\"age\": 3\x7d"
  let person := "\x7b\"toy\": 1 // \x7bor: [\"@Toy\", \"integer\"]\x7d\n\x7d"
  let root := "\x7b // \x7ballOf: \"@Living\", additionalProperties: \"@Note\"\x7d\n" ++
    "\"owner\": @Person,\n@Name: 1\n\x7d"
  addAll { source := .ofString "root" root }
    [.type "@Living" (.ofString "@Living" living), .type "@Person" (.ofString "@Person" person),
      .type "@Toy" (.ofString "@Toy" "\"ball\" // \x7bminLength: 5\x7d"),
      .type "@Name" (.ofString "@Name" "\"Tom\""), .type "@Note" (.ofString "@Note" "\"old\"")]

/-- Whether all types are registered that are reported there, and how compiling fails. -/
def householdVerdict? : Option (Bool × ErrorCode) :=
  match household with
  | .ok s =>
    match s.compiled with
    | .ok _ => none
    | .error p => some (decide s.IsComplete, p.code)
  | .error _ => none

/-- All types are there, and what fails is something else. -/
theorem code_of_household : ∃ s p, household = .ok s ∧ s.Arises ∧ s.IsComplete ∧ s.compiled = .error p ∧
    p.code ≠ .typeNotFound := by
  have hverdict : householdVerdict? = some (true, .stringTooShort) := by decide +kernel
  rw [householdVerdict?] at hverdict
  split at hverdict
  · next s hs =>
    split at hverdict
    · cases hverdict
    · next p hp =>
      obtain ⟨hcomplete, -⟩ := Prod.mk.inj (Option.some.inj hverdict)
      have harises : s.Arises := (Arises.start _).addAll hs
      have hcomplete : s.IsComplete := of_decide_eq_true hcomplete
      exact ⟨s, p, hs, harises, hcomplete, hp, harises.code_ne_typeNotFound hcomplete p hp⟩
  · cases hverdict

end Session
end ExampleSchema
