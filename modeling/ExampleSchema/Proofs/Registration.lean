import ExampleSchema.Proofs.Dialogue
import ExampleSchema.Proofs.Registry
import ExampleSchema.Proofs.Unions

/-!
# The order of registration

Types and rules are registered one after another, and the registry of the compiled schema lists them in
that order.  The order is of no consequence: registered in another one, the same types and rules make a
session that compiles just as well, and is answered the same.

* `Addition.entries`, `addAll_eq_ok_iff`: what some additions register.
* `Session.IsReordered`: sessions with the same types and rules in different orders.
* `IsReordered.exists_compiled`: such sessions compile to schemas that are the same but for the order.
* `answers_of_perm`: additions in another order.
-/

namespace ExampleSchema
namespace Session

/-! ## What is registered -/

/-- The name under which something is registered. -/
def Addition.name : Addition → String
  | .type name _ => name
  | .rule name _ => name

/-- Types and rules under their names. -/
structure Entries where
  types : List (String × RegisteredType) := []
  rules : EnumRules := []

/-- What an addition registers, if its document can be loaded. -/
def Addition.entries : Addition → Outcome Entries
  | .type name source => do
    let schema ← Schema.load source name
    return { types := [(name, { schema, source })] }
  | .rule name enumeration => .ok { rules := [(name, enumeration.items)] }

/-- What several additions register. -/
def Entries.join (entries : List Entries) : Entries :=
  { types := entries.flatMap Entries.types, rules := entries.flatMap Entries.rules }

/-- The session with more types and rules. -/
def extend (s : Session) (entries : Entries) : Session :=
  { s with types := s.types ++ entries.types, rules := s.rules ++ entries.rules }

/-- No name is registered twice. -/
structure HasDistinctNames (s : Session) : Prop where
  types : (Catalog.keys s.types).Nodup
  rules : (Catalog.keys s.rules).Nodup

theorem addRule_eq_ok_iff {s s' : Session} {name : String} {rule : Enumeration} :
    s.addRule name rule = .ok s' ↔ s.compiled? = none ∧ isUserTypeName name = true ∧
      name ∉ Catalog.keys s.rules ∧ s' = { s with rules := s.rules ++ [(name, rule.items)] } := by
  have hnew : (!Catalog.contains s.rules name) = true ↔ name ∉ Catalog.keys s.rules :=
    Catalog.not_contains_eq_true_iff
  rw [addRule, Except.bind_eq_ok_iff]
  constructor
  · rintro ⟨⟨⟩, hcheck, h⟩
    obtain ⟨hcompiled, hname, hisNew⟩ := checkNew_eq_ok_iff.1 hcheck
    rw [Catalog.insert_of_notMem (hnew.1 hisNew)] at h
    exact ⟨hcompiled, hname, hnew.1 hisNew, (Except.ok.inj h).symm⟩
  · rintro ⟨hcompiled, hname, hisNew, rfl⟩
    refine ⟨(), checkNew_eq_ok_iff.2 ⟨hcompiled, hname, hnew.2 hisNew⟩, ?_⟩
    rw [Catalog.insert_of_notMem hisNew]
    rfl

/-- **One addition** registers its entry, under a new name. -/
theorem add_eq_ok_iff {s s' : Session} {addition : Addition} (h : s.HasDistinctNames) :
    s.add addition = .ok s' ↔ s.compiled? = none ∧ isUserTypeName addition.name = true ∧
      ∃ entries, addition.entries = .ok entries ∧ (s.extend entries).HasDistinctNames ∧
        s' = s.extend entries := by
  cases addition with
  | type name source =>
    rw [add, addType_eq_ok_iff]
    refine and_congr_right fun _ => and_congr_right fun _ => ?_
    constructor
    · rintro ⟨hnew, schema, hload, rfl⟩
      refine ⟨{ types := [(name, { schema, source })] }, ?_, ⟨?_, ?_⟩, ?_⟩
      · rw [Addition.entries, hload]
        rfl
      · exact (Catalog.nodup_keys_concat_iff h.types).2 hnew
      · simpa [extend] using h.rules
      · simp [extend]
    · rintro ⟨entries, hentries, hdistinct, rfl⟩
      rw [Addition.entries] at hentries
      obtain ⟨schema, hload, hentries⟩ := Except.bind_eq_ok_iff.1 hentries
      obtain rfl := Except.ok.inj hentries
      exact ⟨(Catalog.nodup_keys_concat_iff h.types).1 hdistinct.types, schema, hload, by simp [extend]⟩
  | rule name rule =>
    rw [add, addRule_eq_ok_iff]
    refine and_congr_right fun _ => and_congr_right fun _ => ?_
    constructor
    · rintro ⟨hnew, rfl⟩
      refine ⟨_, rfl, ⟨?_, ?_⟩, ?_⟩
      · simpa [extend] using h.types
      · exact (Catalog.nodup_keys_concat_iff h.rules).2 hnew
      · simp [extend]
    · rintro ⟨entries, hentries, hdistinct, rfl⟩
      obtain rfl := Except.ok.inj hentries
      exact ⟨(Catalog.nodup_keys_concat_iff h.rules).1 hdistinct.rules, by simp [extend]⟩

theorem extend_join_cons (s : Session) (entries : Entries) (rest : List Entries) :
    s.extend (.join (entries :: rest)) = (s.extend entries).extend (.join rest) := by
  simp [extend, Entries.join]

/-- **Some additions** register their entries, under names that are all distinct. -/
theorem addAll_eq_ok_iff {s s' : Session} {additions : List Addition} (hs : s.compiled? = none)
    (h : s.HasDistinctNames) :
    s.addAll additions = .ok s' ↔ (∀ addition ∈ additions, isUserTypeName addition.name = true) ∧
      ∃ entries, additions.mapM Addition.entries = .ok entries ∧
        (s.extend (.join entries)).HasDistinctNames ∧ s' = s.extend (.join entries) := by
  induction additions generalizing s s' with
  | nil =>
    have hsame : s.extend (.join []) = s := by simp [extend, Entries.join]
    constructor
    · intro hadd
      obtain rfl := Except.ok.inj hadd
      exact ⟨by simp, [], rfl, hsame.symm ▸ h, hsame.symm⟩
    · rintro ⟨-, entries, hentries, -, rfl⟩
      obtain rfl := Except.ok.inj hentries
      exact congrArg Except.ok hsame.symm
  | cons addition rest ih =>
    rw [addAll, List.foldlM_cons, Except.bind_eq_ok_iff, List.forall_mem_cons]
    have hextended : ∀ entries, (s.extend entries).compiled? = none := fun _ => hs
    constructor
    · rintro ⟨middle, hadd, hrest⟩
      obtain ⟨-, hname, first, hfirst, hdistinct, rfl⟩ := (add_eq_ok_iff h).1 hadd
      obtain ⟨hnames, entries, hentries, hall, rfl⟩ := (ih (hextended first) hdistinct).1 hrest
      refine ⟨⟨hname, hnames⟩, first :: entries, ?_, ?_, ?_⟩
      · rw [List.mapM_cons, hfirst, hentries]
        rfl
      · rwa [extend_join_cons]
      · rw [extend_join_cons]
    · rintro ⟨⟨hname, hnames⟩, entries, hentries, hall, rfl⟩
      rw [List.mapM_cons] at hentries
      obtain ⟨first, hfirst, hentries⟩ := Except.bind_eq_ok_iff.1 hentries
      obtain ⟨others, hothers, hentries⟩ := Except.bind_eq_ok_iff.1 hentries
      obtain rfl := Except.ok.inj hentries
      rw [extend_join_cons] at hall ⊢
      have hdistinct : (s.extend first).HasDistinctNames := by
        constructor
        · have hlonger : (s.extend first).types <+: ((s.extend first).extend (.join others)).types :=
            List.prefix_append _ _
          exact hall.types.sublist (hlonger.sublist.map _)
        · have hlonger : (s.extend first).rules <+: ((s.extend first).extend (.join others)).rules :=
            List.prefix_append _ _
          exact hall.rules.sublist (hlonger.sublist.map _)
      exact ⟨s.extend first, (add_eq_ok_iff h).2 ⟨hs, hname, first, hfirst, hdistinct, rfl⟩,
        (ih (hextended first) hdistinct).2 ⟨hnames, others, hothers, hall, rfl⟩⟩

/-! ## Sessions in different orders -/

/-- Two sessions about one document have the same types and rules in different orders. -/
structure IsReordered (s s' : Session) : Prop where
  source : s.source = s'.source
  types : s.types.Perm s'.types
  rules : s.rules.Perm s'.rules
  distinct : s.HasDistinctNames
  arises : s.Arises
  arises' : s'.Arises

/-- **Additions in another order** register the same in another order. -/
theorem exists_isReordered_of_perm {source : Source} {additions others : List Addition} {s : Session}
    (h : additions.Perm others) (hs : addAll { source } additions = .ok s) :
    ∃ s', addAll { source } others = .ok s' ∧ s.IsReordered s' := by
  have hstart : HasDistinctNames { source } := ⟨List.nodup_nil, List.nodup_nil⟩
  obtain ⟨hnames, entries, hentries, hdistinct, rfl⟩ := (addAll_eq_ok_iff rfl hstart).1 hs
  obtain ⟨entries', hentries', hperm⟩ := Except.exists_mapM_of_perm h hentries
  have htypes := hperm.flatMap_right Entries.types
  have hrules := hperm.flatMap_right Entries.rules
  have hdistinct' : HasDistinctNames (extend { source } (.join entries')) :=
    ⟨(htypes.map Prod.fst).nodup_iff.1 hdistinct.types, (hrules.map Prod.fst).nodup_iff.1 hdistinct.rules⟩
  have hs' : addAll { source } others = .ok (extend { source } (.join entries')) :=
    (addAll_eq_ok_iff rfl hstart).2
      ⟨fun addition hmem => hnames addition (h.mem_iff.2 hmem), entries', hentries', hdistinct', rfl⟩
  exact ⟨_, hs', rfl, htypes, hrules, hdistinct, Arises.addAll (.start source) hs, Arises.addAll (.start source) hs'⟩

/-! ## Compiling -/

theorem resolveEnums_congr {rules others : EnumRules}
    (h : ∀ name, Catalog.find? rules name = Catalog.find? others name) (node : Node) :
    node.resolveEnums rules = node.resolveEnums others := by
  induction node using Node.inductionOn with
  | step node ih =>
    have hheader : node.header.resolveEnum rules = node.header.resolveEnum others := by
      unfold Header.resolveEnum
      simp only [h]
    rw [Node.resolveEnums_eq, Node.resolveEnums_eq, hheader, Except.mapM_congr ih]

namespace IsReordered

variable {s s' : Session}

/-- **The registries** are the same but for the order.  The unnamed types of one document come before
those of another, but they all have names of their own. -/
theorem register (h : s.IsReordered s') {loaded : Schema} (hload : s.load = .ok loaded) :
    (loaded.register s.types).IsReordered (loaded.register s'.types) := by
  have hown : (Catalog.keys loaded.types).Nodup := (h.arises.inOrder (.document hload)).nodup
  have hnodup := Schema.nodup_keys_register hown
  refine ⟨rfl, Catalog.perm_of_find?_eq (hnodup s.types) (hnodup s'.types) fun name => ?_, hnodup s.types⟩
  have hnamed : Catalog.find? (s.types.map fun e => (e.1, e.2.entry)).reverse name
      = Catalog.find? (s'.types.map fun e => (e.1, e.2.entry)).reverse name := by
    refine Catalog.find?_congr_of_perm ?_ ?_ name
    · exact (List.reverse_perm _).trans ((h.types.map _).trans (List.reverse_perm _).symm)
    · have hkeys : Catalog.keys (s.types.map fun e => (e.1, e.2.entry)).reverse
          = (Catalog.keys s.types).reverse := by simp [Catalog.keys]
      rw [hkeys, List.nodup_reverse]
      exact h.distinct.types
  have hunnamed : Catalog.find? (s.types.flatMap fun e => e.2.schema.types).reverse name
      = Catalog.find? (s'.types.flatMap fun e => e.2.schema.types).reverse name := by
    refine Catalog.find?_congr_of_mem (fun e => ?_) (fun name value other hvalue hother => ?_) name
    · rw [List.mem_reverse, List.mem_reverse, (h.types.flatMap_right _).mem_iff]
    · obtain ⟨e, he, hvalue⟩ := List.mem_flatMap.1 (List.mem_reverse.1 hvalue)
      obtain ⟨e', he', hother⟩ := List.mem_flatMap.1 (List.mem_reverse.1 hother)
      exact h.arises.eq_of_mem_unnamed he he' hvalue hother
  rw [Schema.find?_register, Schema.find?_register, hnamed, hunnamed]

/-- **What the sessions compile to** is the same but for the order. -/
theorem exists_compiled (h : s.IsReordered s') {schema : Schema} (hcompiled : s.compiled = .ok schema) :
    ∃ schema', s'.compiled = .ok schema' ∧ schema.IsReordered schema' := by
  obtain ⟨loaded, hload, hcompile⟩ := h.arises.exists_of_compiled_eq_ok hcompiled
  obtain ⟨resolved, hresolved, hexpanded, hcheck⟩ := Schema.compile_eq_ok_iff.1 hcompile
  have hload' : s'.load = .ok loaded := by
    rw [load, ← h.source]
    exact hload
  have hresolve : Node.resolveEnums s'.rules = Node.resolveEnums s.rules :=
    funext fun node =>
      (resolveEnums_congr (Catalog.find?_congr_of_perm h.rules h.distinct.rules) node).symm
  obtain ⟨resolved', hresolved', hsame⟩ := (h.register hload).mapRoots hresolved
  obtain ⟨schema', hexpanded', hsame⟩ := hsame.expand hexpanded
  refine ⟨schema', ?_, hsame⟩
  rw [h.arises'.compiled_eq, hload', Except.ok_bind, Schema.compile_eq_ok_iff]
  refine ⟨resolved', ?_, hexpanded', hsame.check hcheck⟩
  rw [Schema.resolveEnums, hresolve]
  exact hresolved'

theorem symm (h : s.IsReordered s') : s'.IsReordered s where
  source := h.source.symm
  types := h.types.symm
  rules := h.rules.symm
  distinct :=
    ⟨(h.types.map Prod.fst).nodup_iff.1 h.distinct.types, (h.rules.map Prod.fst).nodup_iff.1 h.distinct.rules⟩
  arises := h.arises'
  arises' := h.arises

end IsReordered

/-! ## Answers -/

/-- **Additions in another order**: the session compiles if it did, and then it is answered the same. -/
theorem answers_of_perm {source : Source} {additions others : List Addition} {s : Session}
    (h : additions.Perm others) (hs : addAll { source } additions = .ok s) :
    ∃ s', addAll { source } others = .ok s' ∧
      ((∃ schema, s.compiled = .ok schema) ↔ ∃ schema, s'.compiled = .ok schema) ∧
      ((∃ schema, s.compiled = .ok schema) →
        s.outline = s'.outline ∧ (∀ text, s.validate text = s'.validate text) ∧
        ∀ name text, s.validateMember name text = s'.validateMember name text) := by
  obtain ⟨s', hs', hsame⟩ := exists_isReordered_of_perm h hs
  refine ⟨s', hs', ⟨?_, ?_⟩, ?_⟩
  · rintro ⟨schema, hcompiled⟩
    obtain ⟨schema', hcompiled', -⟩ := hsame.exists_compiled hcompiled
    exact ⟨schema', hcompiled'⟩
  · rintro ⟨schema, hcompiled⟩
    obtain ⟨schema', hcompiled', -⟩ := hsame.symm.exists_compiled hcompiled
    exact ⟨schema', hcompiled'⟩
  · rintro ⟨schema, hcompiled⟩
    obtain ⟨schema', hcompiled', hschema⟩ := hsame.exists_compiled hcompiled
    refine ⟨?_, fun text => ?_, fun name text => ?_⟩
    · rw [outline, outline, hcompiled, hcompiled']
      exact congrArg (fun root => Except.ok (root.outline none)) hschema.root
    · rw [validate, validate, hcompiled, hcompiled']
      simp only [Except.ok_bind, hschema.accept_eq]
    · rw [validateMember, validateMember, hcompiled, hcompiled']
      simp only [Except.ok_bind, hschema.acceptMember_eq]

/-- A cat and its colour, one of a type and the other of a rule. -/
def petDocument : Source :=
  .ofString "root" "\x7b\"cat\": @Cat, \"colour\": \"red\" // \x7benum: \"@Colour\"\x7d\n\x7d"

/-- The type and the rule, and the union of two types that the type is written with. -/
def petAdditions : List Addition :=
  [.type "@Cat" (.ofString "@Cat" "\x7b\"name\": @Name\x7d"),
    .rule "@Colour" { items := [{ key := .string "red", text := "\"red\"" }] },
    .type "@Name" (.ofString "@Name" "\"Tom\" // \x7bor: [\"string\", \"integer\"]\x7d")]

/-- The order in which they are registered does not matter. -/
theorem answers_of_pet : ∃ s s', addAll { source := petDocument } petAdditions = .ok s ∧
    addAll { source := petDocument } petAdditions.reverse = .ok s' ∧
    (∃ schema, s.compiled = .ok schema) ∧ (∃ schema, s'.compiled = .ok schema) ∧
    s.outline = s'.outline ∧ (∀ text, s.validate text = s'.validate text) ∧
    ∀ name text, s.validateMember name text = s'.validateMember name text := by
  have hcompiles : (addAll { source := petDocument } petAdditions >>= compiled).isOk = true := by
    decide +kernel
  cases hs : addAll { source := petDocument } petAdditions with
  | error problem =>
    rw [hs] at hcompiles
    cases hcompiles
  | ok s =>
    rw [hs, Except.ok_bind] at hcompiles
    cases hcompiled : s.compiled with
    | error problem =>
      rw [hcompiled] at hcompiles
      cases hcompiles
    | ok schema =>
      obtain ⟨s', hs', hiff, hanswers⟩ := answers_of_perm (List.reverse_perm petAdditions).symm hs
      have hsome : ∃ schema, s.compiled = .ok schema := ⟨schema, hcompiled⟩
      exact ⟨s, s', rfl, hs', hsome, hiff.1 hsome, hanswers hsome⟩

end Session
end ExampleSchema
