import ExampleSchema.Proofs.Accept.Data
import ExampleSchema.Proofs.Accept.Levels
import ExampleSchema.Proofs.Json.Building
import ExampleSchema.Session
import Mathlib.Data.List.Find

/-!
# Validation without a limit

`Registry.accept` goes down a limited number of levels.  The limit is there for types that refer to themselves
without end, and is meant not to matter otherwise.  If the roots of types refer to no types themselves, then each
value takes at most two levels, one for a reference and one for its type, and so validation comes to an end
without a limit: there is one function that is the same at each level.

The limit of 513 levels lets validation end like that for values with 255 values inside one another below the
first, and for one more if the root of the schema is no reference.  A text that can be read may have 256.

* `Value.NestsWithin`: how many values are inside one another below a value.
* `Registry.IsUnlimited`: a validation that goes on as long as it takes.
* `Registry.agree_of_refersWithin`: two validations over enough levels have the same outcome, problem included.
* `Registry.existsUnique_isUnlimited`: if the references of types come to an end, there is one such validation.
* `Schema.accept_eq_of_isUnlimited`: where the limit does not matter.
* `Session.nested_refused`, `Session.nested_accepted`: where it does, and right before.
-/

namespace ExampleSchema

/-! ## How deep values nest -/

namespace Value

/-- The values directly inside a value. -/
def parts : Value → List Value
  | literal _ => []
  | object _ members => members.map fun member => member.2.2
  | array _ items => items

/-- At most so many values are inside one another below a value. -/
def NestsWithin : Nat → Value → Prop
  | 0, value => value.parts = []
  | depth + 1, value => ∀ part ∈ value.parts, part.NestsWithin depth

instance decidableNestsWithin : (depth : Nat) → DecidablePred (NestsWithin depth)
  | 0, value => inferInstanceAs (Decidable (value.parts = []))
  | depth + 1, value =>
    have (part : Value) : Decidable (part.NestsWithin depth) := decidableNestsWithin depth part
    inferInstanceAs (Decidable (∀ part ∈ value.parts, part.NestsWithin depth))

variable {value part : Value} {depth more : Nat} {source : Source}

theorem nestsWithin_of_parts_eq_nil (h : value.parts = []) (depth : Nat) : value.NestsWithin depth := by
  cases depth with
  | zero => exact h
  | succ depth =>
    rw [NestsWithin, h]
    exact List.forall_mem_nil _

theorem NestsWithin.mono (h : value.NestsWithin depth) (hle : depth ≤ more) : value.NestsWithin more := by
  induction depth generalizing value more with
  | zero => exact nestsWithin_of_parts_eq_nil h more
  | succ depth ih =>
    obtain ⟨more, rfl⟩ := Nat.exists_eq_add_of_le' (Nat.lt_of_lt_of_le (Nat.succ_pos _) hle)
    exact fun part hpart => ih (h part hpart) (Nat.le_of_succ_le_succ hle)

theorem sizeOf_lt_of_mem_parts (h : part ∈ value.parts) : sizeOf part < sizeOf value := by
  cases value with
  | literal => cases h
  | array mark items =>
    have hlt := List.sizeOf_lt_of_mem (show part ∈ items from h)
    simp only [array.sizeOf_spec]
    omega
  | object mark members =>
    obtain ⟨⟨name, m, part⟩, hmember, rfl⟩ := List.mem_map.1 h
    have hlt := List.sizeOf_lt_of_mem hmember
    simp only [Prod.mk.sizeOf_spec] at hlt
    simp only [object.sizeOf_spec]
    omega

/-- Every value nests within some depth. -/
theorem nestsWithin_sizeOf (value : Value) : value.NestsWithin (sizeOf value) := by
  suffices h : ∀ size (value : Value), sizeOf value ≤ size → value.NestsWithin size from h _ value (Nat.le_refl _)
  intro size
  induction size with
  | zero =>
    intro value hsize
    refine List.eq_nil_iff_forall_not_mem.2 fun part hpart => ?_
    have hlt := sizeOf_lt_of_mem_parts hpart
    omega
  | succ size ih =>
    intro value hsize part hpart
    have hlt := sizeOf_lt_of_mem_parts hpart
    exact ih part (by omega)

mutual

/-- A value that is written somewhere nests as deep as its text. -/
theorem nestsWithin_value : ∀ (t : Json) (start : Nat), (t.value source start).NestsWithin t.depth
  | .literal _, _ => rfl
  | .emptyArray _, _ | .emptyObject _, _ => nofun
  | .array items, start => nestWithin_values items (start + 1)
  | .object members, start => fun part hpart => by
    obtain ⟨member, hmember, rfl⟩ := List.mem_map.1 hpart
    exact nestWithin_entries members (start + 1) member (Catalog.mem_of_mem_gather hmember)

theorem nestWithin_values : ∀ (items : Json.Items) (start : Nat),
    ∀ item ∈ items.values source start, item.NestsWithin items.depth
  | .last _ item _, _ => List.forall_mem_singleton.2 (nestsWithin_value item _)
  | .more _ item _ rest, _ => List.forall_mem_cons.2 ⟨(nestsWithin_value item _).mono (Nat.le_max_left ..),
      fun other hother => (nestWithin_values rest _ other hother).mono (Nat.le_max_right ..)⟩

theorem nestWithin_entries : ∀ (members : Json.Members) (start : Nat),
    ∀ member ∈ members.entries source start, member.2.2.NestsWithin members.depth
  | .last _ _ _ value _, _ => List.forall_mem_singleton.2 (nestsWithin_value value _)
  | .more _ _ _ value _ rest, _ => List.forall_mem_cons.2 ⟨(nestsWithin_value value _).mono (Nat.le_max_left ..),
      fun other hother => (nestWithin_entries rest _ other hother).mono (Nat.le_max_right ..)⟩

end

/-- **What is parsed** nests at most 256 deep. -/
theorem nestsWithin_of_parse_eq_ok (h : parse source = .ok value) : value.NestsWithin 256 := by
  obtain ⟨t, -, hdepth, -, rfl⟩ := exists_document_of_parse_eq_ok h
  exact (nestsWithin_value t.root _).mono hdepth

end Value

/-! ## One level -/

section

variable {types : Registry} {visit visit' : Node → Value → Outcome Unit} {value : Value} {node : Node}

/-- Candidates that are visited alike are as good. -/
theorem acceptFirst_congr {α : Type} {visit visit' : α → Outcome Unit} {common : Problem} {candidates : List α}
    (h : ∀ c ∈ candidates, visit c = visit' c) :
    acceptFirst visit common candidates = acceptFirst visit' common candidates := by
  have hany : (candidates.any fun c => (visit c).isOk) = candidates.any fun c => (visit' c).isOk := by
    rw [Bool.eq_iff_iff, List.any_eq_true, List.any_eq_true]
    exact exists_congr fun c => and_congr_right fun hc => by rw [h c hc]
  unfold acceptFirst
  split
  · exact h _ (List.mem_singleton.2 rfl)
  · rw [hany]

theorem visit_root_congr {name : String}
    (h : ∀ root, types.root? name = some root → visit root value = visit' root value) :
    (do visit (← types.root name) value) = (do visit' (← types.root name) value) := by
  cases hroot : types.root? name with
  | none => simp only [Registry.root, hroot, Except.error_bind]
  | some root => simp only [Registry.root, hroot, Except.ok_bind, h root hroot]

theorem Properties.shortcut?_congr {properties : Properties} {name : String}
    (h : ∀ key root, types.root? key = some root →
      visit root (.ofText "key" name) = visit' root (.ofText "key" name)) :
    properties.shortcut? types visit name = properties.shortcut? types visit' name := by
  unfold shortcut?
  refine congrArg (Option.map Prod.snd) (List.find?_congr ?_)
  rintro ⟨key, node⟩ -
  refine congrArg (key.isShortcut && ·) ?_
  cases hroot : types.root? key.name with
  | none => rfl
  | some root => rw [Option.any_some, Option.any_some, h _ root hroot]

theorem Properties.acceptOther_congr {properties : Properties} {header : Header} {name : String}
    (hvalue : ∀ node, visit node value = visit' node value)
    (hname : ∀ key root, types.root? key = some root →
      visit root (.ofText "key" name) = visit' root (.ofText "key" name)) :
    properties.acceptOther header types visit name value = properties.acceptOther header types visit' name value := by
  unfold acceptOther
  rw [shortcut?_congr hname]
  split
  · rw [hvalue]
  · split
    · rfl
    · rfl
    · simp only [hvalue]
    · rfl

/-- What a node itself describes, where the parts of the value and its names are visited alike. -/
theorem Node.acceptSelf_congr (hparts : ∀ node, ∀ part ∈ value.parts, visit node part = visit' node part)
    (hnames : value.parts ≠ [] → ∀ name key root, types.root? key = some root →
      visit root (.ofText "key" name) = visit' root (.ofText "key" name)) :
    node.acceptSelf types visit value = node.acceptSelf types visit' value := by
  cases node with
  | literal | mixed | reference => rfl
  | array header samples =>
    cases value with
    | literal | object => rfl
    | array mark items =>
      have hitems : (items.forM fun item => acceptFirst (visit · item) (Cause.noMatchingItem.on item.mark) samples) =
          items.forM fun item => acceptFirst (visit' · item) (Cause.noMatchingItem.on item.mark) samples :=
        Except.forM_congr fun item hitem => acceptFirst_congr fun sample _ => hparts sample item hitem
      simp only [acceptSelf, acceptItems, hitems]
  | object header properties =>
    cases value with
    | literal | array => rfl
    | object mark members =>
      have hmember : ∀ member ∈ members, ∀ node, visit node member.2.2 = visit' node member.2.2 :=
        fun member hmember node => hparts node _ (List.mem_map_of_mem hmember)
      have hdeclared : Properties.acceptMembers properties visit mark members =
          Properties.acceptMembers properties visit' mark members := by
        refine Except.forM_congr fun p _ => ?_
        dsimp only
        split
        · rfl
        · split
          · next found => exact hmember _ (Catalog.mem_of_find?_eq_some found) p.2
          · rfl
      simp only [acceptSelf, Properties.accept, hdeclared]
      refine bind_congr fun _ => Except.forM_congr fun member hmem => ?_
      have hother : Properties.acceptOther properties header types visit member.1 member.2.2 =
          Properties.acceptOther properties header types visit' member.1 member.2.2 :=
        Properties.acceptOther_congr (hmember member hmem)
          (hnames (List.ne_nil_of_mem (List.mem_map_of_mem hmem)) member.1)
      simp only [hother]

end

namespace Registry

/-- One level of a validation, given how to go on. -/
def acceptLevel (types : Registry) (visit : Node → Value → Outcome Unit) (node : Node) (value : Value) :
    Outcome Unit :=
  if value.isNull && node.isNullable then .ok ()
  else if node.header.declared?.any BuiltinType.isUnrestricted then .ok ()
  else if node.rules.typeNames.isEmpty then Outcome.orOn (node.acceptSelf types visit value) value.mark
  else types.acceptTypes visit node.rules.typeNames value

theorem accept_succ (types : Registry) (levels : Nat) :
    types.accept (levels + 1) = types.acceptLevel (types.accept levels) := rfl

/-- One level of a validation, where what it goes on to is visited alike. -/
theorem acceptLevel_congr {types : Registry} {visit visit' : Node → Value → Outcome Unit} {node : Node} {value : Value}
    (htypes : ∀ name ∈ node.rules.typeNames, ∀ root, types.root? name = some root →
      visit root value = visit' root value)
    (hparts : ∀ node, ∀ part ∈ value.parts, visit node part = visit' node part)
    (hnames : value.parts ≠ [] → ∀ name key root, types.root? key = some root →
      visit root (.ofText "key" name) = visit' root (.ofText "key" name)) :
    types.acceptLevel visit node value = types.acceptLevel visit' node value := by
  have hfirst : types.acceptTypes visit node.rules.typeNames value =
      types.acceptTypes visit' node.rules.typeNames value :=
    acceptFirst_congr fun name hname => visit_root_congr (htypes name hname)
  unfold acceptLevel
  rw [Node.acceptSelf_congr hparts hnames, hfirst]

/-! ## Enough levels -/

/-- How many levels validation takes from a node on, for a value that nests so deep: two for each level of the
value, but only one for the first if the node is no reference. -/
def levelsFor (depth : Nat) (node : Node) : Nat := 2 * depth + if node.rules.typeNames = [] then 1 else 2

/-- The roots of types refer to no types. -/
def HasPlainRoots (types : Registry) : Prop := ∀ e ∈ types, e.2.root.rules.typeNames = []

variable {types : Registry} {bound references depth levels more : Nat} {node root : Node} {value : Value}
  {name : String}

/-- The references from the roots of types on nest at most so deep. -/
def RootsReferWithin (types : Registry) (bound : Nat) : Prop :=
  ∀ name root, types.root? name = some root → types.RefersWithin bound root

/-- From any node on, they nest one deeper. -/
theorem RootsReferWithin.refersWithin_succ (h : types.RootsReferWithin bound) (node : Node) :
    types.RefersWithin (bound + 1) node := fun name _ => h name

theorem HasPlainRoots.rootsReferWithin_zero (h : types.HasPlainRoots) : types.RootsReferWithin 0 := by
  intro name root hroot
  obtain ⟨entry, hentry, rfl⟩ := Option.map_eq_some_iff.1 hroot
  exact h _ (Catalog.mem_of_find?_eq_some hentry)

theorem levelsFor_le : levelsFor depth node ≤ 2 * depth + 2 := by
  unfold levelsFor
  split <;> omega

theorem HasPlainRoots.exists_levelsFor (h : types.HasPlainRoots) (node : Node) : ∃ references,
    types.RefersWithin references node ∧ ∀ depth, levelsFor depth node = (0 + 2) * depth + references + 1 := by
  by_cases hnames : node.rules.typeNames = []
  · refine ⟨0, refersWithin_of_typeNames_eq_nil hnames 0, fun depth => ?_⟩
    rw [levelsFor, if_pos hnames, Nat.zero_add]
  · refine ⟨1, h.rootsReferWithin_zero.refersWithin_succ node, fun depth => ?_⟩
    rw [levelsFor, if_neg hnames, Nat.zero_add]

/-- **Two validations that go on level by level** have the same outcome over enough levels: each level of the value
takes as many as the references of a node may nest deep, and the last as many as those of this node do. -/
theorem agree_of_refersWithin (hroots : types.RootsReferWithin bound) {f g : Nat → Node → Value → Outcome Unit}
    (hf : ∀ n, f (n + 1) = types.acceptLevel (f n)) (hg : ∀ n, g (n + 1) = types.acceptLevel (g n))
    (hnode : types.RefersWithin references node) (hvalue : value.NestsWithin depth)
    (hlevels : (bound + 2) * depth + references + 1 ≤ levels) : f levels node value = g levels node value := by
  induction levels generalizing node value references depth with
  | zero => omega
  | succ levels ih =>
    rw [hf, hg]
    refine acceptLevel_congr (fun name hname root hroot => ?_) (fun node' part hpart => ?_)
      fun hparts name key root hroot => ?_
    · -- a reference takes a level, and from the root on they nest less deep
      cases references with
      | zero =>
        rw [show node.rules.typeNames = [] from hnode] at hname
        cases hname
      | succ references => exact ih (hnode name hname root hroot) hvalue (by omega)
    · cases depth with
      | zero =>
        rw [show value.parts = [] from hvalue] at hpart
        cases hpart
      | succ depth =>
        rw [Nat.mul_succ] at hlevels
        exact ih (hroots.refersWithin_succ node') (hvalue part hpart) (by omega)
    · cases depth with
      | zero => exact (hparts hvalue).elim
      | succ depth =>
        have htext : (Value.ofText "key" name).NestsWithin 0 := rfl
        rw [Nat.mul_succ] at hlevels
        exact ih (hroots key root hroot) htext (by omega)

/-- Levels beyond enough of them change nothing. -/
theorem accept_eq_of_refersWithin (hroots : types.RootsReferWithin bound) (hnode : types.RefersWithin references node)
    (hvalue : value.NestsWithin depth) (hlevels : (bound + 2) * depth + references + 1 ≤ levels)
    (hmore : (bound + 2) * depth + references + 1 ≤ more) :
    types.accept levels node value = types.accept more node value := by
  have hadd : ∀ levels, (bound + 2) * depth + references + 1 ≤ levels → ∀ n,
      types.accept levels node value = types.accept (levels + n) node value := fun levels hlevels n =>
    agree_of_refersWithin hroots (f := types.accept) (g := fun levels => types.accept (levels + n))
      (fun _ => rfl) (fun m => by rw [Nat.add_right_comm, accept_succ]) hnode hvalue hlevels
  rw [hadd levels hlevels more, hadd more hmore levels, Nat.add_comm]

/-! ## Validation without a limit -/

/-- A validation that goes on as long as it takes: it is the same at each level. -/
def IsUnlimited (types : Registry) (visit : Node → Value → Outcome Unit) : Prop := visit = types.acceptLevel visit

theorem IsUnlimited.accept_eq_of_refersWithin (hroots : types.RootsReferWithin bound)
    {visit : Node → Value → Outcome Unit} (h : types.IsUnlimited visit) (hnode : types.RefersWithin references node)
    (hvalue : value.NestsWithin depth) (hlevels : (bound + 2) * depth + references + 1 ≤ levels) :
    types.accept levels node value = visit node value :=
  agree_of_refersWithin hroots (f := types.accept) (g := fun _ => visit) (fun _ => rfl) (fun _ => h) hnode hvalue
    hlevels

theorem IsUnlimited.accept_eq (hroots : types.HasPlainRoots) {visit : Node → Value → Outcome Unit}
    (h : types.IsUnlimited visit) (hvalue : value.NestsWithin depth) (hlevels : levelsFor depth node ≤ levels) :
    types.accept levels node value = visit node value := by
  obtain ⟨references, hnode, hlevelsFor⟩ := hroots.exists_levelsFor node
  rw [hlevelsFor] at hlevels
  exact h.accept_eq_of_refersWithin hroots.rootsReferWithin_zero hnode hvalue hlevels

/-- **There is one validation without a limit**, if the references from the roots of types on come to an end. -/
theorem existsUnique_isUnlimited (hroots : types.RootsReferWithin bound) : ∃! visit, types.IsUnlimited visit := by
  refine ⟨fun node value => types.accept ((bound + 2) * sizeOf value + bound + 2) node value, ?_,
    fun visit hvisit => ?_⟩
  · funext node value
    have hvalue := value.nestsWithin_sizeOf
    change types.acceptLevel (types.accept ((bound + 2) * sizeOf value + bound + 1)) node value = _
    refine acceptLevel_congr (fun name _ root hroot => ?_) (fun node' part hpart => ?_)
      fun hparts name key root hroot => ?_
    · exact accept_eq_of_refersWithin hroots (hroots name root hroot) hvalue (Nat.le_refl _) (by omega)
    · have hlt := Value.sizeOf_lt_of_mem_parts hpart
      have hle : (bound + 2) * (sizeOf part + 1) ≤ (bound + 2) * sizeOf value := Nat.mul_le_mul_left _ hlt
      rw [Nat.mul_succ] at hle
      exact accept_eq_of_refersWithin hroots (hroots.refersWithin_succ node') part.nestsWithin_sizeOf (by omega)
        (by omega)
    · have htext : (Value.ofText "key" name).NestsWithin 0 := rfl
      exact accept_eq_of_refersWithin hroots (hroots key root hroot) htext (by omega) (by omega)
  · funext node value
    exact (hvisit.accept_eq_of_refersWithin hroots (hroots.refersWithin_succ node) value.nestsWithin_sizeOf
      (by omega)).symm

end Registry

/-- **Where the limit does not matter.**  If the roots of types refer to no types, then there is one validation
without a limit.  A schema has the same outcome for every value that can be read, unless its root is a reference
and the value has 256 values inside one another. -/
theorem Schema.accept_eq_of_isUnlimited (schema : Schema) (hroots : schema.types.HasPlainRoots) :
    (∃! visit, schema.types.IsUnlimited visit) ∧
    ∀ visit, schema.types.IsUnlimited visit → ∀ source value, Value.parse source = .ok value →
      schema.root.rules.typeNames = [] ∨ value.NestsWithin 255 →
      schema.accept value = visit schema.root value := by
  refine ⟨Registry.existsUnique_isUnlimited hroots.rootsReferWithin_zero, fun visit hvisit source value hparse h => ?_⟩
  rcases h with hroot | hvalue
  · refine hvisit.accept_eq hroots (Value.nestsWithin_of_parse_eq_ok hparse) ?_
    rw [Registry.levelsFor, if_pos hroot]
    decide
  · exact hvisit.accept_eq hroots hvalue (Nat.le_trans Registry.levelsFor_le (by decide))

namespace Session

/-- The document refers to an array whose items are such arrays again or the number 1. -/
def nested : Outcome Session := do
  let s ← addType { source := .ofString "root" "@T" } "@T" (.ofString "@T" "[@T | @S]")
  s.addType "@S" (.ofString "@S" "1")

/-- The number 1 inside so many arrays. -/
def nestedText (depth : Nat) : Source :=
  ⟨"value", List.replicate depth (Char.toUInt8 '[') ++ Char.toUInt8 '1' :: List.replicate depth (Char.toUInt8 ']')⟩

/-- The code of a failure. -/
def codeOf? : Outcome Unit → Option ErrorCode
  | .ok () => none
  | .error p => some p.code

/-- Whether the roots of the types of that schema refer to no types, whether the number nests at most 255 deep, and
what the schema says to it, with the limit and over one level more. -/
def nestedVerdict? (depth : Nat) : Option (Bool × Bool × Option ErrorCode × Option ErrorCode) :=
  match nested >>= compiled, Value.parse (nestedText depth) with
  | .ok schema, .ok value =>
    some (schema.types.all fun e => e.2.root.rules.typeNames.isEmpty, decide (value.NestsWithin 255),
      codeOf? (schema.accept value), codeOf? (schema.types.accept 514 schema.root value))
  | _, _ => none

theorem exists_of_nestedVerdict? {depth : Nat} {within : Bool} {limited unlimited : Option ErrorCode}
    (h : nestedVerdict? depth = some (true, within, limited, unlimited)) : ∃ schema value,
      (nested >>= compiled) = .ok schema ∧ Value.parse (nestedText depth) = .ok value ∧
      schema.types.HasPlainRoots ∧ (value.NestsWithin 255 ↔ within = true) ∧ codeOf? (schema.accept value) = limited ∧
      ∀ visit, schema.types.IsUnlimited visit → codeOf? (visit schema.root value) = unlimited := by
  rw [nestedVerdict?] at h
  split at h
  · next schema value hschema hvalue =>
    simp only [Option.some.injEq, Prod.mk.injEq] at h
    obtain ⟨hroots, hwithin, hlimited, hunlimited⟩ := h
    have hplain : schema.types.HasPlainRoots := fun e he => by simpa using List.all_eq_true.1 hroots e he
    refine ⟨schema, value, hschema, hvalue, hplain, ?_, hlimited, fun visit hvisit => ?_⟩
    · rw [← hwithin, decide_eq_true_iff]
    · have hlevels : Registry.levelsFor 256 schema.root ≤ 514 := Registry.levelsFor_le
      rwa [← hvisit.accept_eq hplain (Value.nestsWithin_of_parse_eq_ok hvalue) hlevels]
  · cases h

/-- **Where the limit matters**: a schema that compiles refuses a value that it would accept without a limit. -/
theorem nested_refused : ∃ schema value, (nested >>= compiled) = .ok schema ∧
    Value.parse (nestedText 256) = .ok value ∧ schema.types.HasPlainRoots ∧
    codeOf? (schema.accept value) = some .noMatchingType ∧
    ∀ visit, schema.types.IsUnlimited visit → codeOf? (visit schema.root value) = none := by
  have h : nestedVerdict? 256 = some (true, false, some .noMatchingType, none) := by decide +kernel
  obtain ⟨schema, value, hschema, hvalue, hroots, -, hlimited, hunlimited⟩ := exists_of_nestedVerdict? h
  exact ⟨schema, value, hschema, hvalue, hroots, hlimited, hunlimited⟩

/-- With one array fewer, the limit does not matter. -/
theorem nested_accepted : ∃ schema value visit, (nested >>= compiled) = .ok schema ∧
    Value.parse (nestedText 255) = .ok value ∧ schema.types.HasPlainRoots ∧ value.NestsWithin 255 ∧
    schema.types.IsUnlimited visit ∧ schema.accept value = visit schema.root value ∧
    codeOf? (schema.accept value) = none := by
  have h : nestedVerdict? 255 = some (true, true, none, none) := by decide +kernel
  obtain ⟨schema, value, hschema, hvalue, hroots, hwithin, hlimited, -⟩ := exists_of_nestedVerdict? h
  obtain ⟨⟨visit, hvisit, -⟩, hsame⟩ := schema.accept_eq_of_isUnlimited hroots
  exact ⟨schema, value, visit, hschema, hvalue, hroots, hwithin.2 rfl, hvisit,
    hsame visit hvisit _ value hvalue (Or.inr (hwithin.2 rfl)), hlimited⟩

end Session
end ExampleSchema
