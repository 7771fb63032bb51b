import ExampleSchema.Proofs.Catalog
import ExampleSchema.Proofs.Outcome
import ExampleSchema.Session

/-!
# The sessions that arise

A session starts with a document and nothing else; types and rules are registered, and at some point it
is compiled.  Registering refuses what would spoil the session, so every session that arises in this way
is in order: each registered type is what its document loads as, under a well-formed name of its own, and
a remembered outcome is the outcome of compiling.

* `Session.Arises`: the sessions that come from a document by registering and compiling.
* `Session.Loads`: the documents of a session, each with the name that its unnamed types are called after
  and with what it loads as.
* `Arises.load_of_mem_types`, `Arises.nodup_types`: what is registered.
* `Arises.exists_of_compiled_eq_ok`: a compiled schema has been loaded and compiled.
* `Session.compiledWith?`: a schema and a value by their texts.
-/

namespace ExampleSchema
namespace Session

/-- A session that comes from a document by registering types and rules and by compiling. -/
inductive Arises : Session → Prop where
  | start (source : Source) : Arises { source }
  | addType {s s' : Session} {name : String} {source : Source} :
      Arises s → s.addType name source = .ok s' → Arises s'
  | addRule {s s' : Session} {name : String} {rule : Enumeration} :
      Arises s → s.addRule name rule = .ok s' → Arises s'
  | compile {s : Session} : Arises s → Arises s.compile

/-- A document of a session, the name that its unnamed types are called after, and what it loads as:
the document that the session is about, or that of a registered type. -/
inductive Loads (s : Session) : String → Source → Schema → Prop where
  | document {schema : Schema} : s.load = .ok schema → Loads s s.source.name s.source schema
  | type {name : String} {type : RegisteredType} :
      (name, type) ∈ s.types → Loads s name type.source type.schema

/-! ## Registering -/

theorem checkNew_eq_ok_iff {s : Session} {wellFormed isNew : Bool} {malformed taken : Cause} :
    s.checkNew wellFormed isNew malformed taken = .ok () ↔
      s.compiled? = none ∧ wellFormed = true ∧ isNew = true := by
  cases hc : s.compiled? <;> cases wellFormed <;> cases isNew <;> simp [checkNew, hc]

/-- A type is registered under a new and well-formed name, as what its document loads as. -/
theorem addType_eq_ok_iff {s s' : Session} {name : String} {source : Source} :
    s.addType name source = .ok s' ↔
      s.compiled? = none ∧ isUserTypeName name = true ∧ name ∉ Catalog.keys s.types ∧
      ∃ schema, Schema.load source name = .ok schema ∧
        s' = { s with types := s.types ++ [(name, { schema, source })] } := by
  have hnew : (!Catalog.contains s.types name) = true ↔ name ∉ Catalog.keys s.types :=
    Catalog.not_contains_eq_true_iff
  rw [addType, Except.bind_eq_ok_iff]
  constructor
  · rintro ⟨⟨⟩, hcheck, h⟩
    obtain ⟨hcompiled, hname, hisNew⟩ := checkNew_eq_ok_iff.1 hcheck
    obtain ⟨schema, hload, h⟩ := Except.bind_eq_ok_iff.1 h
    rw [Catalog.insert_of_notMem (hnew.1 hisNew)] at h
    exact ⟨hcompiled, hname, hnew.1 hisNew, schema, hload, (Except.ok.inj h).symm⟩
  · rintro ⟨hcompiled, hname, hisNew, schema, hload, rfl⟩
    refine ⟨(), checkNew_eq_ok_iff.2 ⟨hcompiled, hname, hnew.2 hisNew⟩, ?_⟩
    rw [hload, Except.ok_bind, Catalog.insert_of_notMem hisNew]
    rfl

/-- Registering a rule changes the rules, in a session that is not compiled. -/
theorem exists_of_addRule_eq_ok {s s' : Session} {name : String} {rule : Enumeration}
    (h : s.addRule name rule = .ok s') :
    s.compiled? = none ∧ ∃ rules, s' = { s with rules } := by
  rw [addRule, Except.bind_eq_ok_iff] at h
  obtain ⟨⟨⟩, hcheck, h⟩ := h
  exact ⟨(checkNew_eq_ok_iff.1 hcheck).1, _, (Except.ok.inj h).symm⟩

namespace Arises

variable {s : Session}

theorem add {s' : Session} {addition : Addition} (hs : s.Arises) (h : s.add addition = .ok s') : s'.Arises := by
  cases addition with
  | type name source => exact hs.addType h
  | rule name rule => exact hs.addRule h

theorem addAll {s' : Session} {additions : List Addition} (hs : s.Arises) (h : s.addAll additions = .ok s') :
    s'.Arises := by
  induction additions generalizing s with
  | nil =>
    obtain rfl := Except.ok.inj h
    exact hs
  | cons addition rest ih =>
    rw [Session.addAll, List.foldlM_cons] at h
    obtain ⟨middle, hadd, h⟩ := Except.bind_eq_ok_iff.1 h
    exact ih (hs.add hadd) h

/-- No two registered types have one name. -/
theorem nodup_types (hs : s.Arises) : (Catalog.keys s.types).Nodup := by
  induction hs with
  | start source => exact List.nodup_nil
  | addType _ h ih =>
    obtain ⟨-, -, hnew, schema, -, rfl⟩ := addType_eq_ok_iff.1 h
    rw [← Catalog.insert_of_notMem hnew]
    exact Catalog.nodup_keys_insert ih
  | addRule _ h ih =>
    obtain ⟨-, rules, rfl⟩ := exists_of_addRule_eq_ok h
    exact ih
  | compile _ ih => exact ih

/-- A registered type has a well-formed name and is what its document loads as. -/
theorem load_of_mem_types (hs : s.Arises) {name : String} {type : RegisteredType}
    (h : (name, type) ∈ s.types) :
    isUserTypeName name = true ∧ Schema.load type.source name = .ok type.schema := by
  induction hs with
  | start source => simp at h
  | addType _ hadd ih =>
    obtain ⟨-, hname, -, schema, hload, rfl⟩ := addType_eq_ok_iff.1 hadd
    rcases List.mem_append.1 h with h | h
    · exact ih h
    · obtain ⟨rfl, rfl⟩ := Prod.mk.inj (List.mem_singleton.1 h)
      exact ⟨hname, hload⟩
  | addRule _ hadd ih =>
    obtain ⟨-, rules, rfl⟩ := exists_of_addRule_eq_ok hadd
    exact ih h
  | compile _ ih => exact ih h

/-- Each document of a session is loaded on its own. -/
theorem load_of_loads (hs : s.Arises) {owner : String} {source : Source} {schema : Schema}
    (h : s.Loads owner source schema) : Schema.load source owner = .ok schema := by
  cases h with
  | document h => exact h
  | type h => exact (hs.load_of_mem_types h).2

/-- What is remembered of compiling is its outcome. -/
theorem compiled_eq (hs : s.Arises) :
    s.compiled = s.load >>= fun loaded => loaded.compile s.types s.rules := by
  have hcache : ∀ outcome, s.compiled? = some outcome →
      outcome = s.load >>= fun loaded => loaded.compile s.types s.rules := by
    induction hs with
    | start source => exact nofun
    | addType _ h _ =>
      obtain ⟨hcompiled, -, -, schema, -, rfl⟩ := addType_eq_ok_iff.1 h
      intro outcome houtcome
      exact nomatch hcompiled.symm.trans houtcome
    | addRule _ h _ =>
      obtain ⟨hcompiled, rules, rfl⟩ := exists_of_addRule_eq_ok h
      intro outcome houtcome
      exact nomatch hcompiled.symm.trans houtcome
    | @compile s _ ih =>
      rintro outcome houtcome
      obtain rfl := Option.some.inj houtcome
      rw [compiled]
      split
      · next outcome h => exact ih outcome h
      · rfl
  rw [compiled]
  split
  · next outcome h => exact hcache outcome h
  · rfl

/-- **A compiled schema has been loaded and compiled** with what is registered. -/
theorem exists_of_compiled_eq_ok (hs : s.Arises) {schema : Schema} (h : s.compiled = .ok schema) :
    ∃ loaded, s.load = .ok loaded ∧ loaded.compile s.types s.rules = .ok schema := by
  rw [hs.compiled_eq, Except.bind_eq_ok_iff] at h
  exact h

end Arises

/-! ## Documents on their own -/

/-- A session with a document for which nothing is registered. -/
def ofText (document : String) : Session := { source := .ofString "root" document }

theorem arises_ofText (document : String) : (ofText document).Arises := .start _

/-- The schema that a document compiles to, and the value that a text writes. -/
def compiledWith? (document text : String) : Option (Schema × Value) :=
  match (ofText document).compiled, Value.parse (.ofString "value" text) with
  | .ok schema, .ok value => some (schema, value)
  | _, _ => none

/-- What is found true of that schema and that value by evaluation. -/
theorem exists_of_compiledWith? {document text : String} {test : Schema × Value → Bool}
    (h : (compiledWith? document text).any test = true) : ∃ schema value,
      (ofText document).compiled = .ok schema ∧ Value.parse (.ofString "value" text) = .ok value ∧
      test (schema, value) = true := by
  unfold compiledWith? at h
  split at h
  · next schema value hcompiled hparse => exact ⟨schema, value, hcompiled, hparse, h⟩
  · cases h

end Session
end ExampleSchema
