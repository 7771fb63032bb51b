import ExampleSchema.Proofs.Accept.Levels
import ExampleSchema.Proofs.Json.Writing

/-!
# What validation can tell apart

Validation goes down a node and a value together and compares them part by part.  Nodes that agree on what is
compared at one level, and whose parts are related again, accept alike, and so do values.  So to show that
something makes no difference to validation, it is enough to relate the nodes, or the values, that differ by it,
and to look at one level.

* `Literal.SaysSame`: two literals are written alike, or are strings of one text.
* `Header.Resembles`, `Node.Resembles`, `Value.Resembles`: what is compared at one level.
* `Registry.Simulates`: the relations hold together, level by level and from names to types.
* `Simulates.accept_iff`, `Simulates.acceptMember_iff`: related nodes accept related values alike.
-/

namespace ExampleSchema

/-! ## Lists that match -/

/-- Every entry on either side is related to one on the other. -/
def AreMatched {α β : Type} (R : α → β → Prop) (xs : List α) (ys : List β) : Prop :=
  (∀ x ∈ xs, ∃ y ∈ ys, R x y) ∧ ∀ y ∈ ys, ∃ x ∈ xs, R x y

namespace AreMatched

variable {α β : Type} {R : α → β → Prop} {xs : List α} {ys : List β}

theorem cons {x : α} {y : β} (hxy : R x y) (h : AreMatched R xs ys) : AreMatched R (x :: xs) (y :: ys) := by
  constructor
  · refine List.forall_mem_cons.2 ⟨⟨y, List.mem_cons_self .., hxy⟩, fun x hx => ?_⟩
    obtain ⟨y, hy, hxy⟩ := h.1 x hx
    exact ⟨y, List.mem_cons_of_mem _ hy, hxy⟩
  · refine List.forall_mem_cons.2 ⟨⟨x, List.mem_cons_self .., hxy⟩, fun y hy => ?_⟩
    obtain ⟨x, hx, hxy⟩ := h.2 y hy
    exact ⟨x, List.mem_cons_of_mem _ hx, hxy⟩

theorem of_forall₂ (h : List.Forall₂ R xs ys) : AreMatched R xs ys := by
  induction h with
  | nil => exact ⟨nofun, nofun⟩
  | cons hxy _ ih => exact ih.cons hxy

/-- What comes of each entry is matched, if it is for those that are related. -/
theorem flatMap {γ δ : Type} {S : γ → δ → Prop} {f : α → List γ} {g : β → List δ} (h : AreMatched R xs ys)
    (hfg : ∀ x y, R x y → AreMatched S (f x) (g y)) : AreMatched S (xs.flatMap f) (ys.flatMap g) := by
  constructor
  · intro c hc
    obtain ⟨x, hx, hc⟩ := List.mem_flatMap.1 hc
    obtain ⟨y, hy, hxy⟩ := h.1 x hx
    obtain ⟨d, hd, hcd⟩ := (hfg x y hxy).1 c hc
    exact ⟨d, List.mem_flatMap.2 ⟨y, hy, hd⟩, hcd⟩
  · intro d hd
    obtain ⟨y, hy, hd⟩ := List.mem_flatMap.1 hd
    obtain ⟨x, hx, hxy⟩ := h.2 y hy
    obtain ⟨c, hc, hcd⟩ := (hfg x y hxy).2 d hd
    exact ⟨c, List.mem_flatMap.2 ⟨x, hx, hc⟩, hcd⟩

theorem map {γ δ : Type} {S : γ → δ → Prop} {f : α → γ} {g : β → δ} (h : AreMatched R xs ys)
    (hfg : ∀ x y, R x y → S (f x) (g y)) : AreMatched S (xs.map f) (ys.map g) := by
  rw [List.map_eq_flatMap, List.map_eq_flatMap]
  exact h.flatMap fun x y hxy => .cons (hfg x y hxy) ⟨nofun, nofun⟩

theorem forall_iff (h : AreMatched R xs ys) {P : α → Prop} {Q : β → Prop}
    (hPQ : ∀ x y, R x y → (P x ↔ Q y)) : (∀ x ∈ xs, P x) ↔ ∀ y ∈ ys, Q y := by
  constructor
  · intro hP y hy
    obtain ⟨x, hx, hxy⟩ := h.2 y hy
    exact (hPQ x y hxy).1 (hP x hx)
  · intro hQ x hx
    obtain ⟨y, hy, hxy⟩ := h.1 x hx
    exact (hPQ x y hxy).2 (hQ y hy)

theorem exists_iff (h : AreMatched R xs ys) {P : α → Prop} {Q : β → Prop}
    (hPQ : ∀ x y, R x y → (P x ↔ Q y)) : (∃ x ∈ xs, P x) ↔ ∃ y ∈ ys, Q y := by
  constructor
  · rintro ⟨x, hx, hP⟩
    obtain ⟨y, hy, hxy⟩ := h.1 x hx
    exact ⟨y, hy, (hPQ x y hxy).1 hP⟩
  · rintro ⟨y, hy, hQ⟩
    obtain ⟨x, hx, hxy⟩ := h.2 y hy
    exact ⟨x, hx, (hPQ x y hxy).2 hQ⟩

theorem mono {S : α → β → Prop} (h : AreMatched R xs ys) (hle : ∀ x y, R x y → S x y) : AreMatched S xs ys := by
  constructor
  · intro x hx
    obtain ⟨y, hy, hxy⟩ := h.1 x hx
    exact ⟨y, hy, hle x y hxy⟩
  · intro y hy
    obtain ⟨x, hx, hxy⟩ := h.2 y hy
    exact ⟨x, hx, hle x y hxy⟩

theorem eq_nil_iff (h : AreMatched R xs ys) : xs = [] ↔ ys = [] := by
  have hany := h.exists_iff (P := fun _ => True) (Q := fun _ => True) fun _ _ _ => Iff.rfl
  cases xs <;> cases ys <;> simp_all

end AreMatched

/-- What is found first on either side is related, if the same is looked for in lists that are related entry by
entry. -/
theorem find?_rel {α β : Type} {R : α → β → Prop} {xs : List α} {ys : List β} {p : α → Bool} {q : β → Bool}
    (h : List.Forall₂ R xs ys) (hpq : ∀ x y, R x y → p x = q y) : Option.Rel R (xs.find? p) (ys.find? q) := by
  induction h with
  | nil => exact .none
  | @cons x y xs ys hxy _ ih =>
    rw [List.find?_cons, List.find?_cons, hpq x y hxy]
    cases q y with
    | true => exact .some hxy
    | false => exact ih

/-! ## Literals -/

namespace Literal

/-- Two literals say the same: they are written alike, or are strings of one text. -/
def SaysSame (literal other : Bytes) : Prop :=
  literal = other ∨ ∃ text, string literal = .ok text ∧ string other = .ok text

variable {literal other : Bytes}

theorem SaysSame.ofBytes?_eq (h : SaysSame literal other) :
    JsonType.ofBytes? literal = JsonType.ofBytes? other := by
  rcases h with rfl | ⟨text, hliteral, hother⟩
  · rfl
  · rw [jsonType_of_string_eq_ok hliteral, jsonType_of_string_eq_ok hother]

/-- A string is no number. -/
theorem SaysSame.decimalValue_eq_ok_iff (h : SaysSame literal other) (value : Decimal) :
    decimalValue literal = .ok value ↔ decimalValue other = .ok value := by
  rcases h with rfl | ⟨text, hliteral, hother⟩
  · rfl
  · rw [decimalValue, decimalValue, isNumber, isNumber, jsonType_of_string_eq_ok hliteral,
      jsonType_of_string_eq_ok hother]
    exact iff_of_false nofun nofun

theorem SaysSame.stringValue_eq_ok_iff (h : SaysSame literal other) (text : String) :
    stringValue literal = .ok text ↔ stringValue other = .ok text := by
  rcases h with rfl | ⟨text, hliteral, hother⟩
  · rfl
  · rw [stringValue, stringValue, isString, isString, jsonType_of_string_eq_ok hliteral,
      jsonType_of_string_eq_ok hother, hliteral, hother]
    exact Iff.rfl

theorem SaysSame.key_eq_ok_iff (h : SaysSame literal other) (key : LiteralKey) :
    LiteralKey.ofBytes literal = .ok key ↔ LiteralKey.ofBytes other = .ok key := by
  rcases h with rfl | ⟨text, hliteral, hother⟩
  · rfl
  · have hkey : ∀ bytes, string bytes = .ok text → LiteralKey.ofBytes bytes = .ok (.string text) := by
      intro bytes hbytes
      have htrim := string_trim hbytes
      rw [LiteralKey.ofBytes, jsonType_of_string_eq_ok htrim]
      dsimp only
      rw [htrim]
      rfl
    rw [hkey literal hliteral, hkey other hother]

theorem check_eq_ok_iff {sample : LiteralKey} {bytes : Bytes} :
    sample.check bytes = .ok () ↔ LiteralKey.ofBytes bytes = .ok sample := by
  rw [LiteralKey.check, Except.bind_eq_ok_iff]
  constructor
  · rintro ⟨key, hkey, h⟩
    split at h
    · next hsame => rwa [← hsame]
    · cases h
  · intro h
    exact ⟨sample, h, if_pos rfl⟩

/-- **A constraint is kept** by what a literal says. -/
theorem SaysSame.isKept_iff (h : SaysSame literal other) (c : Constraint) :
    c.IsKept literal ↔ c.IsKept other := by
  have hdecimal : ∀ (check : Decimal → Verdict Unit),
      (decimalValue literal >>= check) = .ok () ↔ (decimalValue other >>= check) = .ok () := by
    intro check
    simp only [Except.bind_eq_ok_iff, h.decimalValue_eq_ok_iff]
  have hstring : ∀ (check : String → Verdict Unit),
      (stringValue literal >>= check) = .ok () ↔ (stringValue other >>= check) = .ok () := by
    intro check
    simp only [Except.bind_eq_ok_iff, h.stringValue_eq_ok_iff]
  have hkey : ∀ (check : LiteralKey → Verdict Unit),
      (LiteralKey.ofBytes literal >>= check) = .ok () ↔ (LiteralKey.ofBytes other >>= check) = .ok () := by
    intro check
    simp only [Except.bind_eq_ok_iff, h.key_eq_ok_iff]
  unfold Constraint.IsKept Constraint.check
  split
  · exact hdecimal _
  · exact hdecimal _
  · exact hdecimal _
  · exact hstring _
  · exact hstring _
  · exact hstring _
  · exact hstring _
  · exact hkey _
  · rw [check_eq_ok_iff, check_eq_ok_iff, h.key_eq_ok_iff]
  · exact Iff.rfl

end Literal

/-! ## Nodes and values at one level -/

/-- Validation compares the same at two headers. -/
structure Header.Resembles (header header' : Header) : Prop where
  jsonType : header.jsonType = header'.jsonType
  declared : header.declared? = header'.declared?
  flag : ∀ kind, header.rules.flag kind = header'.rules.flag kind
  count : ∀ kind, header.rules.count? kind = header'.rules.count? kind
  typeNames : ∀ name, name ∈ header.rules.typeNames ↔ name ∈ header'.rules.typeNames
  additional : header.rules.constraint? .additionalProperties
    = header'.rules.constraint? .additionalProperties
  isKept : ∀ literal, (∀ r ∈ header.rules, r.constraint.IsKept literal) ↔
    ∀ r ∈ header'.rules, r.constraint.IsKept literal

theorem Header.Resembles.refl (header : Header) : header.Resembles header :=
  ⟨rfl, rfl, fun _ => rfl, fun _ => rfl, fun _ => Iff.rfl, rfl, fun _ => Iff.rfl⟩

/-- Two properties have one name, and related nodes. -/
def PropertiesRelate (N : Node → Node → Prop) (p p' : PropertyKey × Node) : Prop :=
  p.1.name = p'.1.name ∧ N p.2 p'.2

/-- Validation compares the same at two nodes, provided that it does so at related parts of theirs. -/
inductive Node.Resembles (N : Node → Node → Prop) : Node → Node → Prop
  | literal {header header' : Header} {sample? sample?' : Option Mark} (hheader : header.Resembles header') :
    Resembles N (.literal header sample?) (.literal header' sample?')
  | mixed {header header' : Header} {sample? sample?' : Option Mark} (hheader : header.Resembles header') :
    Resembles N (.mixed header sample?) (.mixed header' sample?')
  | reference {header header' : Header} {names names' : List String} (hheader : header.Resembles header') :
    Resembles N (.reference header names) (.reference header' names')
  | array {header header' : Header} {items items' : List Node} (hheader : header.Resembles header')
      (hitems : AreMatched N items items') :
    Resembles N (.array header items) (.array header' items')
  | object {header header' : Header} {properties properties' : Properties}
      (hheader : header.Resembles header')
      (hdeclared : ∀ name, Option.Rel N (properties.declared? name) (properties'.declared? name))
      (hnamed : AreMatched (PropertiesRelate N) (properties.filter fun p => !p.1.isShortcut)
        (properties'.filter fun p => !p.1.isShortcut))
      (hshortcuts : List.Forall₂ (PropertiesRelate N) (properties.filter fun p => p.1.isShortcut)
        (properties'.filter fun p => p.1.isShortcut)) :
    Resembles N (.object header properties) (.object header' properties')

theorem Node.Resembles.refl (node : Node) : node.Resembles Eq node := by
  have hsame : ∀ properties : Properties, List.Forall₂ (PropertiesRelate Eq) properties properties :=
    fun properties => List.forall₂_same.2 fun _ _ => ⟨rfl, rfl⟩
  cases node with
  | literal => exact .literal (.refl _)
  | mixed => exact .mixed (.refl _)
  | reference => exact .reference (.refl _)
  | array => exact .array (.refl _) (.of_forall₂ (List.forall₂_same.2 fun _ _ => rfl))
  | object header properties =>
    refine .object (.refl _) (fun name => ?_) (.of_forall₂ (hsame _)) (hsame _)
    cases Properties.declared? properties name with
    | none => exact .none
    | some node => exact .some rfl

theorem Node.Resembles.header {N : Node → Node → Prop} {node node' : Node} (h : node.Resembles N node') :
    node.header.Resembles node'.header := by
  cases h with
  | literal h | mixed h | reference h => exact h
  | array h | object h => exact h

/-- Validation compares the same in two values, provided that it does so in related parts of theirs. -/
inductive Value.Resembles (V : Value → Value → Prop) : Value → Value → Prop
  | literal {mark mark' : Mark} (h : Literal.SaysSame mark.bytes mark'.bytes) :
    Resembles V (.literal mark) (.literal mark')
  | array {mark mark' : Mark} {items items' : List Value} (hitems : List.Forall₂ V items items') :
    Resembles V (.array mark items) (.array mark' items')
  | object {mark mark' : Mark} {members members' : List (String × Mark × Value)}
      (hfind : ∀ name, Option.Rel (fun entry entry' : Mark × Value => V entry.2 entry'.2)
        (Catalog.find? members name) (Catalog.find? members' name))
      (hmembers : AreMatched (fun member member' => member.1 = member'.1 ∧ V member.2.2 member'.2.2)
        members members') :
    Resembles V (.object mark members) (.object mark' members')

/-- What is related closely enough is related. -/
theorem Value.Resembles.mono {V V' : Value → Value → Prop} {value value' : Value} (h : value.Resembles V value')
    (hle : ∀ value value', V value value' → V' value value') : value.Resembles V' value' := by
  cases h with
  | literal h => exact .literal h
  | array hitems => exact .array (hitems.imp hle)
  | @object mark mark' members members' hfind hmembers =>
    refine .object (fun name => ?_) (hmembers.mono fun _ _ hmember => ⟨hmember.1, hle _ _ hmember.2⟩)
    have hfound := hfind name
    revert hfound
    generalize Catalog.find? members name = found
    generalize Catalog.find? members' name = found'
    intro hfound
    cases hfound with
    | none => exact .none
    | some hrelated => exact .some (hle _ _ hrelated)

theorem Value.Resembles.jsonType_eq {V : Value → Value → Prop} {value value' : Value}
    (h : value.Resembles V value') : value.jsonType = value'.jsonType := by
  cases h with
  | literal h => rw [jsonType, jsonType, h.ofBytes?_eq]
  | array | object => rfl

/-! ## One level -/

/-- Two visits accept related values of related nodes alike. -/
def VisitsAlike (N : Node → Node → Prop) (V : Value → Value → Prop)
    (visit visit' : Node → Value → Outcome Unit) : Prop :=
  ∀ node node' value value', N node node' → V value value' →
    (visit node value = .ok () ↔ visit' node' value' = .ok ())

/-- Relations of nodes and of values between two registries: what is related resembles one another, and a name
leads to related types. -/
structure Registry.Simulates (types types' : Registry) (N : Node → Node → Prop) (V : Value → Value → Prop) :
    Prop where
  nodes : ∀ node node', N node node' → node.Resembles N node'
  values : ∀ value value', V value value' → value.Resembles V value'
  roots : ∀ name, Option.Rel N (types.root? name) (types'.root? name)
  /-- Names are read as strings. -/
  names : ∀ name, V (.ofText "key" name) (.ofText "key" name)

/-- Values alone may be told apart or not. -/
theorem Registry.simulates_self (types : Registry) {V : Value → Value → Prop}
    (hvalues : ∀ value value', V value value' → value.Resembles V value')
    (hnames : ∀ name, V (.ofText "key" name) (.ofText "key" name)) : types.Simulates types Eq V where
  nodes node _ hsame := hsame ▸ .refl node
  values := hvalues
  roots name := by
    cases types.root? name with
    | none => exact .none
    | some root => exact .some rfl
  names := hnames

/-- One of some candidates accepts. -/
theorem acceptFirst_eq_ok_iff_exists {α : Type} {visit : α → Outcome Unit} {common : Problem}
    {candidates : List α} :
    acceptFirst visit common candidates = .ok () ↔ ∃ a ∈ candidates, visit a = .ok () :=
  acceptFirst_eq_ok_iff fun _ _ _ _ _ => Iff.rfl

theorem BuiltinType.accept_iff {V : Value → Value → Prop} {value value' : Value} (type : BuiltinType)
    (h : value.Resembles V value') : type.accept value = .ok () ↔ type.accept value' = .ok () := by
  rw [BuiltinType.accept_eq_ok_iff, BuiltinType.accept_eq_ok_iff, Admits, Admits, h.jsonType_eq]
  refine or_congr_right (and_congr_right fun htype => ?_)
  cases h with
  | literal h => simp only [Value.bytes, Value.mark, h.stringValue_eq_ok_iff]
  | array | object =>
    -- A built-in type that asks for a format accepts literals only.
    cases hformat : type.format? with
    | none => exact iff_of_true (by rintro _ ⟨⟩) (by rintro _ ⟨⟩)
    | some format =>
      rw [BuiltinType.jsonType_of_format? hformat] at htype
      rcases htype with htype | htype <;> cases htype

namespace Registry.Simulates

variable {types types' : Registry} {N : Node → Node → Prop} {V : Value → Value → Prop}
  {visit visit' : Node → Value → Outcome Unit} {node node' : Node} {value value' : Value}
  {header header' : Header} {properties properties' : Properties} {name : String}

section

variable (h : types.Simulates types' N V) (hvisit : VisitsAlike N V visit visit')
include h hvisit

theorem exists_root_iff (name : String) (hvalue : V value value') :
    (∃ root ∈ types.root? name, visit root value = .ok ()) ↔
      ∃ root ∈ types'.root? name, visit' root value' = .ok () := by
  have hroots := h.roots name
  cases hroot : types.root? name <;> cases hroot' : types'.root? name <;> rw [hroot, hroot'] at hroots <;>
    cases hroots
  · simp
  · next root root' hrelated => simpa using hvisit root root' value value' hrelated hvalue

theorem visit_root_iff (name : String) (hvalue : V value value') :
    (do visit (← types.root name) value) = .ok () ↔ (do visit' (← types'.root name) value') = .ok () := by
  rw [visit_root_eq_ok_iff fun _ _ => Iff.rfl, visit_root_eq_ok_iff fun _ _ => Iff.rfl]
  exact exists_root_iff h hvisit name hvalue

/-- The first shortcut that takes a name is related to the first on the other side. -/
theorem shortcut?_rel (name : String) (hshortcuts : List.Forall₂ (PropertiesRelate N)
      (properties.filter fun p => p.1.isShortcut) (properties'.filter fun p => p.1.isShortcut)) :
    Option.Rel N (properties.shortcut? types visit name) (properties'.shortcut? types' visit' name) := by
  have htakes : ∀ p p', PropertiesRelate N p p' →
      ((types.root? p.1.name).any fun root => (visit root (.ofText "key" name)).isOk) =
        (types'.root? p'.1.name).any fun root => (visit' root (.ofText "key" name)).isOk := by
    rintro p p' ⟨hname, -⟩
    rw [← hname, Bool.eq_iff_iff, Option.any_eq_true, Option.any_eq_true]
    simp only [isOk_iff]
    exact exists_root_iff h hvisit p.1.name (h.names name)
  have hfound := find?_rel hshortcuts htakes
  simp only [List.find?_filter, Bool.decide_and, Bool.decide_eq_true] at hfound
  rw [Properties.shortcut?, Properties.shortcut?]
  revert hfound
  generalize List.find? _ properties = found
  generalize List.find? _ properties' = found'
  intro hfound
  cases hfound with
  | none => exact .none
  | some hrelated => exact .some hrelated.2

theorem acceptOther_iff (name : String) (hheader : header.Resembles header')
    (hshortcuts : List.Forall₂ (PropertiesRelate N)
      (properties.filter fun p => p.1.isShortcut) (properties'.filter fun p => p.1.isShortcut))
    (hvalue : V value value') :
    properties.acceptOther header types visit name value = .ok true ↔
      properties'.acceptOther header' types' visit' name value' = .ok true := by
  have hshortcut := shortcut?_rel h hvisit name hshortcuts
  unfold Properties.acceptOther
  rw [hheader.additional]
  cases hfound : properties.shortcut? types visit name <;>
    cases hfound' : properties'.shortcut? types' visit' name <;> rw [hfound, hfound'] at hshortcut <;>
    cases hshortcut
  · dsimp only
    split
    · exact Iff.rfl
    · rw [do_eq_ok_true_iff, do_eq_ok_true_iff]
      exact BuiltinType.accept_iff _ (h.values _ _ hvalue)
    · rw [do_visit_root_eq_ok_true_iff, do_visit_root_eq_ok_true_iff]
      exact visit_root_iff h hvisit _ hvalue
    · exact Iff.rfl
  · next node node' hrelated =>
    dsimp only
    rw [do_eq_ok_true_iff, do_eq_ok_true_iff]
    exact hvisit node node' value value' hrelated hvalue

/-- A property and its related one are met by the same members. -/
theorem acceptMembers_iff {mark mark' : Mark} {members members' : List (String × Mark × Value)}
    (hnamed : AreMatched (PropertiesRelate N) (properties.filter fun p => !p.1.isShortcut)
      (properties'.filter fun p => !p.1.isShortcut))
    (hfind : ∀ name, Option.Rel (fun entry entry' : Mark × Value => V entry.2 entry'.2)
      (Catalog.find? members name) (Catalog.find? members' name)) :
    properties.acceptMembers visit mark members = .ok () ↔
      properties'.acceptMembers visit' mark' members' = .ok () := by
  have hall : ∀ (visit : Node → Value → Outcome Unit) (properties : Properties) (mark : Mark)
      (members : List (String × Mark × Value)),
      properties.acceptMembers visit mark members = .ok () ↔
        ∀ p ∈ properties.filter fun p => !p.1.isShortcut,
          (Catalog.find? members p.1.name).elim (p.2.isOptional = true) fun entry => visit p.2 entry.2 = .ok () := by
    intro visit properties mark members
    rw [Properties.acceptMembers, Except.forM_eq_ok_iff]
    simp only [List.mem_filter, and_imp]
    refine forall₂_congr fun p _ => ?_
    obtain ⟨key, node⟩ := p
    dsimp only
    cases key.isShortcut with
    | true => simp
    | false =>
      cases Catalog.find? members key.name with
      | some entry => simp
      | none => cases node.isOptional <;> simp
  rw [hall, hall]
  refine hnamed.forall_iff fun p p' hrelated => ?_
  have hentry := hfind p.1.name
  rw [← hrelated.1]
  cases hfound : Catalog.find? members p.1.name <;> cases hfound' : Catalog.find? members' p.1.name <;>
    rw [hfound, hfound'] at hentry <;> cases hentry
  · have hflag := (h.nodes p.2 p'.2 hrelated.2).header.flag .optional
    rw [Option.elim_none, Option.elim_none, Node.isOptional, Node.isOptional, Node.rules, Node.rules, hflag]
  · next entry entry' hvalue => exact hvisit p.2 p'.2 entry.2 entry'.2 hrelated.2 hvalue

/-- **Objects** that resemble one another are accepted alike. -/
theorem acceptObject_iff
    (hnode : (Node.object header properties).Resembles N (.object header' properties'))
    (hvalue : value.Resembles V value') :
    properties.accept header types visit value = .ok () ↔
      properties'.accept header' types' visit' value' = .ok () := by
  cases hvalue with
  | literal | array => exact iff_of_false nofun nofun
  | object hfind hmembers =>
    cases hnode with
    | object hheader hdeclared hnamed hshortcuts =>
      rw [Properties.accept, Properties.accept, Except.bind_eq_ok_iff, Except.bind_eq_ok_iff]
      refine exists_congr fun _ => and_congr (acceptMembers_iff h hvisit hnamed hfind) ?_
      rw [Except.forM_eq_ok_iff, Except.forM_eq_ok_iff]
      refine hmembers.forall_iff ?_
      rintro ⟨name, mark, value⟩ ⟨_, mark', value'⟩ ⟨rfl, hvalue⟩
      have hfound := hdeclared name
      dsimp only
      cases hdeclares : properties.declared? name <;> cases hdeclares' : properties'.declared? name <;>
        rw [hdeclares, hdeclares'] at hfound <;> cases hfound
      · exact throw_unless_eq_ok_iff.trans
          ((acceptOther_iff h hvisit name hheader hshortcuts hvalue).trans throw_unless_eq_ok_iff.symm)
      · exact Iff.rfl

omit h in
/-- **Arrays** that resemble one another are accepted alike. -/
theorem acceptItems_iff {samples samples' : List Node} (hheader : header.Resembles header')
    (hsamples : AreMatched N samples samples') (hvalue : value.Resembles V value') :
    acceptItems header samples visit value = .ok () ↔ acceptItems header' samples' visit' value' = .ok () := by
  cases hvalue with
  | literal | object => exact iff_of_false nofun nofun
  | @array mark mark' items items' hitems =>
    have hcount : header.AllowsCount items.length ↔ header'.AllowsCount items'.length := by
      rw [Header.AllowsCount, Header.AllowsCount, hitems.length_eq, hheader.count, hheader.count]
    by_cases hallows : header.AllowsCount items.length
    · rw [acceptItems_eq hallows, acceptItems_eq (hcount.1 hallows)]
      have hempty : samples.isEmpty = samples'.isEmpty := by
        rw [Bool.eq_iff_iff, List.isEmpty_iff, List.isEmpty_iff, hsamples.eq_nil_iff]
      rw [hempty]
      split
      · exact Iff.rfl
      · rw [Except.forM_eq_ok_iff, Except.forM_eq_ok_iff]
        refine (AreMatched.of_forall₂ hitems).forall_iff fun item item' hitem => ?_
        rw [acceptFirst_eq_ok_iff_exists, acceptFirst_eq_ok_iff_exists]
        exact hsamples.exists_iff fun sample sample' hsample => hvisit sample sample' item item' hsample hitem
    · exact iff_of_false (acceptItems_ne_ok hallows) (acceptItems_ne_ok fun hallows' => hallows (hcount.2 hallows'))

omit h hvisit in
theorem acceptLiteral_iff (hheader : node.header.Resembles node'.header)
    (hvalue : value.Resembles V value') :
    node.acceptLiteral value = .ok () ↔ node'.acceptLiteral value' = .ok () := by
  have htype := hvalue.jsonType_eq
  cases hvalue with
  | array | object => exact iff_of_false nofun nofun
  | @literal mark mark' hsame =>
    have hrules : (∀ r ∈ node.rules, r.constraint.IsKept mark.bytes) ↔
        ∀ r ∈ node'.rules, r.constraint.IsKept mark'.bytes :=
      (forall₂_congr fun (r : Rule) _ => hsame.isKept_iff r.constraint).trans (hheader.isKept _)
    rw [acceptLiteral_eq_ok_iff, acceptLiteral_eq_ok_iff, Node.DescribesLiteral, Node.DescribesLiteral, hrules, htype,
      Node.isOfOpenType, Node.isOfOpenType, Node.jsonType, Node.jsonType, hheader.jsonType, hheader.declared]

theorem acceptSelf_iff (hnode : node.Resembles N node') (hvalue : value.Resembles V value') :
    node.acceptSelf types visit value = .ok () ↔ node'.acceptSelf types' visit' value' = .ok () := by
  have hobject := hnode
  cases hnode with
  | object => exact acceptObject_iff h hvisit hobject hvalue
  | array hheader hitems => exact acceptItems_iff hvisit hheader hitems hvalue
  | literal hheader | mixed hheader => exact acceptLiteral_iff hheader hvalue
  | reference => exact Iff.rfl

end

/-! ## All levels -/

variable (h : types.Simulates types' N V)
include h

/-- **Related nodes accept related values alike**, whatever the number of levels. -/
theorem accept_iff (levels : Nat) : VisitsAlike N V (types.accept levels) (types'.accept levels) := by
  induction levels with
  | zero => exact fun _ _ _ _ _ _ => iff_of_false nofun nofun
  | succ levels ih =>
    intro node node' value value' hrelated hvalue
    have hnode := h.nodes node node' hrelated
    have hheader := hnode.header
    have hresembles := h.values value value' hvalue
    have hnames : node.rules.typeNames.isEmpty = node'.rules.typeNames.isEmpty := by
      rw [Bool.eq_iff_iff, List.isEmpty_iff, List.isEmpty_iff, List.eq_nil_iff_forall_not_mem,
        List.eq_nil_iff_forall_not_mem]
      exact forall_congr' fun name => not_congr (hheader.typeNames name)
    rw [Registry.accept, Registry.accept, Value.isNull, Value.isNull, hresembles.jsonType_eq, Node.isNullable,
      Node.isNullable, Node.rules, Node.rules, hheader.flag, hheader.declared]
    split
    · exact Iff.rfl
    split
    · exact Iff.rfl
    dsimp only
    rw [← Node.rules, ← Node.rules, hnames]
    split
    · exact Except.mapError_eq_ok_iff.trans
        ((acceptSelf_iff h ih hnode hresembles).trans Except.mapError_eq_ok_iff.symm)
    · rw [acceptTypes, acceptTypes, acceptFirst_eq_ok_iff_exists, acceptFirst_eq_ok_iff_exists]
      refine exists_congr fun name => and_congr (hheader.typeNames name) ?_
      exact visit_root_iff h ih name hvalue

end Registry.Simulates

/-! ## Schemas -/

section

variable {schema schema' : Schema} {N : Node → Node → Prop} {V : Value → Value → Prop} {value value' : Value}
  (h : schema.types.Simulates schema'.types N V) (hroot : N schema.root schema'.root) (hvalue : V value value')
include h hroot hvalue

/-- Schemas with related roots accept related values alike. -/
theorem Schema.accept_iff_of_simulates : schema.accept value = .ok () ↔ schema'.accept value' = .ok () :=
  h.accept_iff _ _ _ _ _ hroot hvalue

/-- So do members of the objects that they describe. -/
theorem Schema.acceptMember_iff_of_simulates (name : String) :
    schema.acceptMember name value = .ok () ↔ schema'.acceptMember name value' = .ok () := by
  obtain ⟨root, types⟩ := schema
  obtain ⟨root', types'⟩ := schema'
  cases h.nodes root root' hroot with
  | literal | mixed | reference | array => exact Iff.rfl
  | @object header header' properties properties' hheader hdeclared hnamed hshortcuts =>
    have hfound := hdeclared name
    simp only [acceptMember]
    cases hdeclares : properties.declared? name <;> cases hdeclares' : properties'.declared? name <;>
      rw [hdeclares, hdeclares'] at hfound <;> cases hfound
    · refine throw_unless_eq_ok_iff.trans (Iff.trans ?_ throw_unless_eq_ok_iff.symm)
      exact Registry.Simulates.acceptOther_iff h (h.accept_iff _) name hheader hshortcuts hvalue
    · next node node' hrelated => exact h.accept_iff _ node node' value value' hrelated hvalue

end
end ExampleSchema
