import ExampleSchema.Proofs.Declarations
import ExampleSchema.Proofs.Load.Names

/-!
# How the rules of a loaded node go together

Some rules of a node are there because of others, or say what others have made of them: a declared type brings its
format, a bound is told whether it is excluded, and a constant is taken from the sample.  Rules may be applied
again and again, to a value, to a shortcut with rules of its own, or to a member of a union, and each time all of
this has to come out right anew.

* `Rules.Ask`: some rule asks for a constraint.
* `Constraint.IsFresh`: what a rule is read as.
* `Header.StatesType`, `Rules.LinksBounds`, `Rules.TakesConstant`: what each part of applying rules brings about.
* `Header.IsConsistent.apply`: all of it, from one application to the next.
* `Node.IsWritten.isConsistent`: every written node is like that.
* `Schema.isSettled_of_load_eq_ok`: so is every node that a document loads as, and the names in it are known.
-/

namespace ExampleSchema

/-! ## What rules ask for -/

namespace Constraint.Completes

variable {c c' : Constraint} {f : Constraint → Constraint}

/-- What is no bound, constant or enumeration is complete from the start. -/
theorem eq_of_kind (h : c.Completes c') (hkind : c.kind ∉ [.min, .max, .const, .enum]) : c' = c := by
  cases h with
  | same => rfl
  | min | max | const | enum => simp [kind] at hkind

/-- A constraint comes of itself only, if those of its kind are kept. -/
theorem eq_iff (hf : ∀ c, Completes c (f c)) (hkeeps : ∀ d, d.kind = c.kind → f d = d) (d : Constraint) :
    f d = c ↔ d = c := by
  constructor
  · rintro rfl
    exact (hkeeps d (hf d).kind_eq.symm).symm
  · rintro rfl
    exact hkeeps d rfl

end Constraint.Completes

namespace Rules

variable {rules others : Rules} {c d : Constraint} {f : Constraint → Constraint}

/-- Some rule asks for a constraint. -/
def Ask (rules : Rules) (c : Constraint) : Prop := ∃ r ∈ rules, r.constraint = c

theorem ask_iff (h : rules.kinds.Nodup) : rules.Ask c ↔ rules.constraint? c.kind = some c := by
  rw [constraint?_eq_some_iff h]
  simp [Ask]

/-- Where kinds are distinct, rules ask for one constraint of a kind. -/
theorem Ask.eq (h : rules.kinds.Nodup) (hc : rules.Ask c) (hd : rules.Ask d) (hkind : c.kind = d.kind) : c = d := by
  rw [ask_iff h] at hc hd
  rw [hkind] at hc
  exact Option.some.inj (hc.symm.trans hd)

theorem Ask.mem_kinds (h : rules.Ask c) : c.kind ∈ rules.kinds := by
  obtain ⟨r, hr, rfl⟩ := h
  exact List.mem_map_of_mem hr

theorem ask_append : Ask (rules ++ others) c ↔ rules.Ask c ∨ others.Ask c := by
  simp only [Ask, List.mem_append, or_and_right, exists_or]

theorem ask_change : (rules.change f).Ask c ↔ ∃ d, rules.Ask d ∧ f d = c := by
  simp [Ask, change]

/-- A constraint that comes of itself only is asked for as before. -/
theorem ask_change_of_iff (h : ∀ d, f d = c ↔ d = c) : (rules.change f).Ask c ↔ rules.Ask c := by
  simp [ask_change, h]

/-- A flag of a bound is set where its rule sets it. -/
theorem flag_eq_true_iff (h : rules.kinds.Nodup) {exclusive : Bool → Constraint}
    (hexclusive : exclusive = .exclusiveMinimum ∨ exclusive = .exclusiveMaximum) :
    rules.flag (exclusive true).kind = true ↔ rules.Ask (exclusive true) := by
  rw [ask_iff h, flag]
  cases hc : rules.constraint? (exclusive true).kind with
  | none => simp
  | some c =>
    obtain ⟨r, -, rfl, hkind⟩ := (constraint?_eq_some_iff h).1 hc
    rcases hexclusive with rfl | rfl
    all_goals
      cases hr : r.constraint <;> rw [hr] at hkind <;> cases hkind
      simp

end Rules

/-! ## Rules that have been read -/

/-- A constraint as it is read: it is no format, and no constant that has been taken from a sample. -/
def Constraint.IsFresh : Constraint → Prop
  | .format _ | .const _ (some _) => False
  | _ => True

theorem Constraint.isFresh_of_read? {kind : ConstraintKind} {literal : Bytes} {c : Constraint}
    (h : Constraint.read? kind literal = some (.ok c)) : c.IsFresh := by
  have hmap : ∀ {α : Type} {x : Verdict α} {f : α → Constraint}, some (x.map f) = some (.ok c) → ∃ a, c = f a := by
    intro α x f hx
    obtain ⟨a, -, hc⟩ := Except.map_eq_ok_iff.1 (Option.some.inj hx)
    exact ⟨a, hc.symm⟩
  cases kind
  case type | types | or | allOf | enum | format => cases h
  all_goals
    obtain ⟨a, rfl⟩ := hmap h
    trivial

theorem RuleValue.isFresh_of_constraint_eq_ok {name : String} {key : Mark} {value : RuleValue} {c : Constraint}
    (h : value.constraint name key = .ok c) : c.IsFresh := by
  rw [constraint] at h
  split at h
  · cases h
  case h_2 | h_3 | h_4 | h_5 =>
    obtain ⟨a, -, rfl⟩ := Except.map_eq_ok_iff.1 h
    trivial
  · cases h
  · obtain ⟨mark, -, h⟩ := Except.bind_eq_ok_iff.1 h
    split at h
    · next verdict hread =>
      obtain rfl : verdict = .ok c := Except.mapError_eq_ok_iff.1 h
      exact Constraint.isFresh_of_read? hread
    · cases h

/-- A rule as it is read: it has a mark, and its constraint is fresh. -/
structure Rule.IsFresh (r : Rule) : Prop where
  mark : r.mark? ≠ none
  constraint : r.constraint.IsFresh

/-- The rules of a note are fresh. -/
theorem ReadsRules.isFresh {stands : String → Node → Nat → Prop} {rules : List (String × Mark × RuleValue)}
    {added : List Rule} (h : ReadsRules stands rules added) : ∀ r ∈ added, r.IsFresh := by
  induction rules generalizing added with
  | nil =>
    cases h
    exact List.forall_mem_nil _
  | cons rule rest ih =>
    cases h with
    | union _ _ hrest =>
      exact List.forall_mem_cons.2 ⟨⟨Option.some_ne_none _, trivial⟩,
        List.forall_mem_cons.2 ⟨⟨Option.some_ne_none _, trivial⟩, ih hrest⟩⟩
    | rule _ hconstraint hrest =>
      refine List.forall_mem_cons.2 ⟨⟨Option.some_ne_none _, ?_⟩, ih hrest⟩
      exact RuleValue.isFresh_of_constraint_eq_ok hconstraint

theorem AreRead.isFresh {added : List Rule} (h : AreRead added) : ∀ r ∈ added, r.IsFresh := by
  obtain ⟨stands, rules, hreads⟩ := h
  exact hreads.isFresh

namespace Rules

variable {added : Rules} (hadded : ∀ r ∈ added, r.IsFresh)
include hadded

theorem not_ask_format (format : Format) : ¬ added.Ask (.format format) := by
  rintro ⟨r, hr, hc⟩
  have hfresh := (hadded r hr).constraint
  rwa [hc] at hfresh

theorem key?_eq_none_of_ask {value : Bool} {key? : Option LiteralKey} (h : added.Ask (.const value key?)) :
    key? = none := by
  obtain ⟨r, hr, hc⟩ := h
  have hfresh := (hadded r hr).constraint
  rw [hc] at hfresh
  cases key? with
  | none => rfl
  | some key => exact hfresh.elim

end Rules

/-! ## The declared type and its format -/

/-- The rule that a declared type brings, if it has a format. -/
def BuiltinType.formatRule (type : BuiltinType) : Rules :=
  type.format?.toList.map fun format => ⟨.format format, none⟩

theorem BuiltinType.ask_formatRule {type : BuiltinType} {c : Constraint} :
    type.formatRule.Ask c ↔ ∃ format, type.format? = some format ∧ c = .format format := by
  simp [formatRule, Rules.Ask, eq_comm]

namespace Header

variable {h changed : Header} {sample? : Option Mark} {added : List Rule}

/-- What is declared is what some rule declares. -/
theorem builtinOf?_eq_some_iff (hnodup : (Rules.kinds added).Nodup) (type : BuiltinType) :
    builtinOf? added = some type ↔ Rules.Ask added (.type (.builtin type)) := by
  constructor
  · exact exists_of_builtinOf?
  · intro hask
    obtain ⟨r, hr, hc⟩ := hask
    cases hfound : builtinOf? added with
    | none =>
      rw [builtinOf?, List.findSome?_eq_none_iff] at hfound
      have hnone := hfound r hr
      rw [hc] at hnone
      cases hnone
    | some other =>
      have hother := Rules.Ask.eq hnodup (exists_of_builtinOf? hfound) ⟨r, hr, hc⟩ rfl
      rw [TypeName.builtin.inj (Constraint.type.inj hother)]

/-- A type is declared by a rule and brings its format, and only a format comes without a mark. -/
structure StatesType (h : Header) : Prop where
  declared : ∀ type, h.declared? = some type ↔ h.rules.Ask (.type (.builtin type))
  format : ∀ format, h.rules.Ask (.format format) ↔
    ∃ type, h.declared? = some type ∧ type.format? = some format
  marks : ∀ r ∈ h.rules, r.mark? = none ↔ ∃ format, r.constraint = .format format

/-- The rules of a header after some are added and a type is declared. -/
def withFormat (h : Header) (added : List Rule) : Rules :=
  h.rules ++ added ++ ((builtinOf? added).map BuiltinType.formatRule).getD []

theorem ask_withFormat {c : Constraint} : (h.withFormat added).Ask c ↔ h.rules.Ask c ∨ Rules.Ask added c ∨
    ∃ type, builtinOf? added = some type ∧ ∃ format, type.format? = some format ∧ c = .format format := by
  rw [withFormat, Rules.ask_append, Rules.ask_append, or_assoc]
  refine or_congr_right (or_congr_right ?_)
  cases builtinOf? added with
  | none => simp [Rules.Ask]
  | some type => simp [BuiltinType.ask_formatRule]

theorem nodup_of_nodup_withFormat (hnodup : (h.withFormat added).kinds.Nodup) :
    (h.rules.kinds ++ Rules.kinds added).Nodup := by
  rw [withFormat, Rules.kinds, List.map_append, List.map_append] at hnodup
  exact (List.nodup_append.1 hnodup).1

/-- A type is declared once, be it before or by the rules that are added. -/
theorem StatesType.declared_withFormat (hstates : h.StatesType)
    (hnodup : (h.withFormat added).kinds.Nodup) (type : BuiltinType) :
    (builtinOf? added).or h.declared? = some type ↔ (h.withFormat added).Ask (.type (.builtin type)) := by
  have hparts := nodup_of_nodup_withFormat hnodup
  have hbuiltin := builtinOf?_eq_some_iff (List.nodup_append.1 hparts).2.1
  rw [Option.or_eq_some_iff, ask_withFormat, hstates.declared, hbuiltin]
  constructor
  · rintro (hnew | ⟨-, hold⟩)
    · exact Or.inr (Or.inl hnew)
    · exact Or.inl hold
  · rintro (hold | hnew | ⟨_, -, _, -, hformat⟩)
    · refine Or.inr ⟨Option.eq_none_iff_forall_ne_some.2 fun other hother => ?_, hold⟩
      exact List.disjoint_of_nodup_append hparts hold.mem_kinds ((hbuiltin other).1 hother).mem_kinds
    · exact Or.inl hnew
    · cases hformat

/-- A format is that of the type that is declared, be it before or by the rules that are added. -/
theorem StatesType.format_withFormat (hstates : h.StatesType) (hadded : ∀ r ∈ added, r.IsFresh)
    (hnodup : (h.withFormat added).kinds.Nodup) (format : Format) :
    (h.withFormat added).Ask (.format format) ↔
      ∃ type, (builtinOf? added).or h.declared? = some type ∧ type.format? = some format := by
  constructor
  · intro hask
    rcases ask_withFormat.1 hask with hold | hnew | ⟨type, htype, _, hformat, heq⟩
    · obtain ⟨type, htype, hformat⟩ := (hstates.format format).1 hold
      refine ⟨type, (hstates.declared_withFormat hnodup type).2 ?_, hformat⟩
      exact ask_withFormat.2 (Or.inl ((hstates.declared type).1 htype))
    · exact (Rules.not_ask_format hadded format hnew).elim
    · obtain rfl := Constraint.format.inj heq
      exact ⟨type, by rw [htype, Option.some_or], hformat⟩
  · rintro ⟨type, htype, hformat⟩
    rw [Option.or_eq_some_iff] at htype
    rw [ask_withFormat]
    rcases htype with hnew | ⟨-, hold⟩
    · exact Or.inr (Or.inr ⟨type, hnew, format, hformat, rfl⟩)
    · exact Or.inl ((hstates.format format).2 ⟨type, hold, hformat⟩)

/-- Still only a format comes without a mark. -/
theorem StatesType.marks_withFormat (hstates : h.StatesType) (hadded : ∀ r ∈ added, r.IsFresh) :
    ∀ r ∈ h.withFormat added, r.mark? = none ↔ ∃ format, r.constraint = .format format := by
  intro r hr
  rw [withFormat, List.mem_append, List.mem_append] at hr
  rcases hr with (hr | hr) | hr
  · exact hstates.marks r hr
  · refine iff_of_false (hadded r hr).mark ?_
    rintro ⟨format, hc⟩
    exact Rules.not_ask_format hadded format ⟨r, hr, hc⟩
  · cases hfound : builtinOf? added with
    | none =>
      rw [hfound] at hr
      cases hr
    | some type =>
      rw [hfound] at hr
      obtain ⟨format, -, rfl⟩ := List.mem_map.1 hr
      exact iff_of_true rfl ⟨format, rfl⟩

/-- **The type of a node is stated as before** once rules are added, with the format of a type that they declare. -/
theorem StatesType.add (hstates : h.StatesType) (hadded : ∀ r ∈ added, r.IsFresh)
    (hrules : changed.rules = h.withFormat added) (hdeclared : changed.declared? = (builtinOf? added).or h.declared?)
    (hnodup : changed.rules.kinds.Nodup) : changed.StatesType := by
  rw [hrules] at hnodup
  refine ⟨?_, ?_, ?_⟩
  · rw [hdeclared, hrules]
    exact hstates.declared_withFormat hnodup
  · rw [hdeclared, hrules]
    exact hstates.format_withFormat hadded hnodup
  · rw [hrules]
    exact hstates.marks_withFormat hadded

/-- Details of bounds and constants have nothing to do with the type. -/
theorem StatesType.change (hstates : h.StatesType) {f : Constraint → Constraint}
    (hf : ∀ c, Constraint.Completes c (f c)) (hrules : changed.rules = h.rules.change f)
    (hdeclared : changed.declared? = h.declared?) : changed.StatesType := by
  have hsame : ∀ {c : Constraint}, c.kind ∉ [.min, .max, .const, .enum] → ∀ d, f d = c ↔ d = c := fun hkind =>
    Constraint.Completes.eq_iff hf fun d hd => (hf d).eq_of_kind (hd ▸ hkind)
  have hformat : ∀ format d, f d = .format format ↔ d = .format format := fun format =>
    hsame (by simp [Constraint.kind])
  refine ⟨fun type => ?_, fun format => ?_, fun r hr => ?_⟩
  · rw [hdeclared, hrules, Rules.ask_change_of_iff (hsame (by simp [Constraint.kind]))]
    exact hstates.declared type
  · rw [hdeclared, hrules, Rules.ask_change_of_iff (hformat format)]
    exact hstates.format format
  · rw [hrules] at hr
    obtain ⟨old, hold, rfl⟩ := List.mem_map.1 hr
    refine (hstates.marks old hold).trans (exists_congr fun format => ?_)
    exact (hformat format old.constraint).symm

end Header

/-! ## Bounds -/

/-- A bound is excluded exactly if the rule beside it says so. -/
structure Rules.LinksBounds (rules : Rules) : Prop where
  min : ∀ bound, rules.Ask (.min bound) → (bound.exclusive = true ↔ rules.Ask (.exclusiveMinimum true))
  max : ∀ bound, rules.Ask (.max bound) → (bound.exclusive = true ↔ rules.Ask (.exclusiveMaximum true))

/-- Changing constants leaves bounds linked. -/
theorem Rules.LinksBounds.change {rules : Rules} (h : rules.LinksBounds) {f : Constraint → Constraint}
    (hf : ∀ c, Constraint.Completes c (f c)) (hkeeps : ∀ c, c.kind ≠ .const → f c = c) :
    LinksBounds (rules.change f) := by
  have hask : ∀ {c : Constraint}, c.kind ≠ .const → ((rules.change f).Ask c ↔ rules.Ask c) := fun hkind =>
    ask_change_of_iff (Constraint.Completes.eq_iff hf fun d hd => hkeeps d (hd ▸ hkind))
  refine ⟨fun bound hbound => ?_, fun bound hbound => ?_⟩
  · rw [hask (by simp [Constraint.kind])] at hbound ⊢
    exact h.min bound hbound
  · rw [hask (by simp [Constraint.kind])] at hbound ⊢
    exact h.max bound hbound

namespace Header

variable {h filled : Header} {sample? : Option Mark}

/-- **Bounds are told whether they are excluded.** -/
theorem linksBounds_linkBounds (hnodup : h.rules.kinds.Nodup) : h.linkBounds.rules.LinksBounds := by
  rw [linkBounds]
  dsimp only
  refine ⟨fun bound hbound => ?_, fun bound hbound => ?_⟩
  · rw [Rules.ask_change_of_iff (by intro d; cases d <;> simp)]
    obtain ⟨d, -, hd⟩ := Rules.ask_change.1 hbound
    cases d <;> cases hd
    exact Rules.flag_eq_true_iff hnodup (Or.inl rfl)
  · rw [Rules.ask_change_of_iff (by intro d; cases d <;> simp)]
    obtain ⟨d, -, hd⟩ := Rules.ask_change.1 hbound
    cases d <;> cases hd
    exact Rules.flag_eq_true_iff hnodup (Or.inr rfl)

/-! ## Constants -/

end Header

/-- A constant is the sample, if there is one. -/
def Rules.TakesConstant (rules : Rules) (sample? : Option Mark) : Prop :=
  ∀ key?, rules.Ask (.const true key?) →
    Option.Rel (fun mark key => LiteralKey.ofBytes mark.bytes = .ok key) sample? key?

namespace Header

variable {h filled : Header} {sample? : Option Mark}

/-- **A constant is taken from the sample.**  Where there is none, it has been taken from nothing before. -/
theorem takesConstant_of_fillConstant (hnodup : h.rules.kinds.Nodup)
    (hnone : sample? = none → ∀ key?, h.rules.Ask (.const true key?) → key? = none)
    (hfilled : h.fillConstant sample? = .ok filled) : filled.rules.TakesConstant sample? := by
  intro key? hkey
  unfold fillConstant at hfilled
  split at hfilled
  · obtain rfl := Except.ok.inj hfilled
    rw [hnone rfl key? hkey]
    exact .none
  · next sample =>
    split at hfilled
    · obtain ⟨key, hread, hfilled⟩ := Except.bind_eq_ok_iff.1 hfilled
      obtain rfl := Except.ok.inj hfilled
      dsimp only at hkey
      obtain ⟨d, -, hd⟩ := Rules.ask_change.1 hkey
      cases d <;> cases hd
      exact .some (Except.mapError_eq_ok_iff.1 hread)
    · next hconstant =>
      obtain rfl := Except.ok.inj hfilled
      rw [Rules.ask_iff hnodup] at hkey
      rw [isConstant, show h.rules.constraint? .const = _ from hkey] at hconstant
      exact (hconstant rfl).elim

/-! ## All of it -/

/-- **How the rules of a node go together** with each other, with its declared type and with its sample. -/
structure IsConsistent (h : Header) (sample? : Option Mark) : Prop where
  type : h.StatesType
  bounds : h.rules.LinksBounds
  constant : h.rules.TakesConstant sample?

variable {changed : Header} {added : List Rule}

/-- It depends on the rules and the declared type. -/
theorem IsConsistent.congr (h' : h.IsConsistent sample?) (hrules : changed.rules = h.rules)
    (hdeclared : changed.declared? = h.declared?) : changed.IsConsistent sample? := by
  obtain ⟨⟨htype, hformat, hmarks⟩, hbounds, hconstant⟩ := h'
  rw [← hrules] at hformat hmarks hbounds hconstant
  rw [← hdeclared] at hformat
  refine ⟨⟨?_, hformat, hmarks⟩, hbounds, hconstant⟩
  rwa [hdeclared, hrules]

/-- A header without rules. -/
theorem isConsistent_of_rules_eq_nil (hrules : h.rules = []) (hdeclared : h.declared? = none) :
    h.IsConsistent sample? := by
  refine ⟨⟨?_, ?_, ?_⟩, ⟨?_, ?_⟩, ?_⟩
  all_goals simp [Rules.TakesConstant, Rules.Ask, hrules, hdeclared]

/-- A shortcut refers to types, and says nothing else. -/
theorem isConsistent_of_shortcut {mark : Mark} {names : List String} (hrules : h.rules = Shortcut.rules mark names)
    (hdeclared : h.declared? = none) : h.IsConsistent sample? := by
  have hask : ∀ c, h.rules.Ask c → c.kind ∈ [.type, .types, .or] ∧ ∀ type, c ≠ .type (.builtin type) := by
    rintro c ⟨r, hr, rfl⟩
    rw [hrules] at hr
    rcases names with _ | ⟨first, _ | ⟨second, rest⟩⟩ <;> simp only [Shortcut.rules, List.mem_cons,
      List.not_mem_nil, or_false] at hr
    · rcases hr with rfl | rfl <;> simp [Constraint.kind]
    · simp [hr, Constraint.kind]
    · rcases hr with rfl | rfl <;> simp [Constraint.kind]
  have hnone : ∀ c : Constraint, c.kind ∉ [.type, .types, .or] → ¬ h.rules.Ask c := fun c hkind hc =>
    hkind (hask c hc).1
  have hmarks : ∀ r ∈ h.rules, r.mark? = some mark := by
    rw [hrules]
    rcases names with _ | ⟨first, _ | ⟨second, rest⟩⟩ <;> simp [Shortcut.rules]
  refine ⟨⟨fun type => ?_, fun format => ?_, fun r hr => ?_⟩, ⟨fun bound hbound => ?_, fun bound hbound => ?_⟩,
    fun key? hkey => ?_⟩
  · rw [hdeclared]
    exact iff_of_false (Option.some_ne_none type).symm fun htype => (hask _ htype).2 type rfl
  · rw [hdeclared]
    refine iff_of_false (hnone _ (by simp [Constraint.kind])) ?_
    rintro ⟨type, htype, -⟩
    cases htype
  · rw [hmarks r hr]
    refine iff_of_false (Option.some_ne_none mark) ?_
    rintro ⟨format, hc⟩
    exact hnone (.format format) (by simp [Constraint.kind]) ⟨r, hr, hc⟩
  · exact (hnone _ (by simp [Constraint.kind]) hbound).elim
  · exact (hnone _ (by simp [Constraint.kind]) hbound).elim
  · exact (hnone _ (by simp [Constraint.kind]) hkey).elim

/-- Declaring a type adds its format. -/
theorem rules_of_declare_eq_ok {type : BuiltinType} (hdeclare : h.declare type = .ok changed) :
    changed.rules = h.rules ++ type.formatRule ∧ changed.declared? = some type := by
  rw [declare] at hdeclare
  rw [BuiltinType.formatRule]
  dsimp only at hdeclare
  split at hdeclare
  · next format hformat =>
    obtain ⟨rules, hadd, hdeclare⟩ := Except.bind_eq_ok_iff.1 hdeclare
    obtain rfl := Except.ok.inj hdeclare
    obtain ⟨-, rfl⟩ := Rules.add_eq_ok_iff.1 hadd
    exact ⟨by rw [hformat]; rfl, rfl⟩
  · next hformat =>
    obtain rfl := Except.ok.inj hdeclare
    exact ⟨by rw [hformat]; simp, rfl⟩

/-- **Applying rules that have been read keeps it so.** -/
theorem IsConsistent.apply (h' : h.IsConsistent sample?) (hnodup : h.rules.kinds.Nodup)
    (hadded : ∀ r ∈ added, r.IsFresh) (happly : h.apply sample? added = .ok changed) :
    changed.IsConsistent sample? := by
  rw [apply_eq] at happly
  obtain ⟨h₁, hh₁, happly⟩ := Except.bind_eq_ok_iff.1 happly
  obtain ⟨h₂, hh₂, happly⟩ := Except.bind_eq_ok_iff.1 happly
  obtain ⟨hrules₁, -, hdeclared₁, hnodup₁⟩ := exists_of_addRules_eq_ok hh₁
  have hnodup₁ := hnodup₁ hnodup
  obtain ⟨hrules₂, hdeclared₂, hnodup₂⟩ : h₂.rules = h.withFormat added ∧
      h₂.declared? = (builtinOf? added).or h.declared? ∧ h₂.rules.kinds.Nodup := by
    rw [withFormat, ← hrules₁]
    cases hbuiltin : builtinOf? added with
    | none =>
      rw [hbuiltin] at hh₂
      obtain rfl := Except.ok.inj hh₂
      exact ⟨(List.append_nil _).symm, hdeclared₁, hnodup₁⟩
    | some type =>
      rw [hbuiltin] at hh₂
      obtain ⟨hrules, hdeclared⟩ := rules_of_declare_eq_ok hh₂
      obtain ⟨-, -, -, hnodup⟩ := exists_of_declare_eq_ok hh₂
      exact ⟨hrules, hdeclared, hnodup hnodup₁⟩
  have htype : h₂.StatesType := h'.type.add hadded hrules₂ hdeclared₂ hnodup₂
  obtain ⟨f, hf, hcompletes, -⟩ := exists_of_linkBounds h₂
  have hnodup₃ : h₂.linkBounds.rules.kinds.Nodup := by
    rw [hf, Rules.kinds_change hcompletes]
    exact hnodup₂
  obtain ⟨g, hg, hdeclared, hcompletes', hkeeps⟩ := exists_of_fillConstant_eq_ok happly
  refine ⟨?_, ?_, ?_⟩
  · exact (htype.change hcompletes hf rfl).change hcompletes' hg hdeclared
  · rw [hg]
    exact (linksBounds_linkBounds hnodup₂).change hcompletes' hkeeps
  · refine takesConstant_of_fillConstant hnodup₃ ?_ happly
    rintro rfl key? hkey
    rw [linkBounds] at hkey
    dsimp only at hkey
    rw [Rules.ask_change_of_iff (by intro d; cases d <;> simp), hrules₂, ask_withFormat] at hkey
    rcases hkey with hold | hnew | ⟨_, -, _, -, hformat⟩
    · cases h'.constant key? hold
      rfl
    · exact Rules.key?_eq_none_of_ask hadded hnew
    · cases hformat

end Header

/-! ## Nodes -/

/-- **Every written node is like that.** -/
theorem Node.IsWritten.isConsistent {origin : Provenance} {node : Node} (h : node.IsWritten AreRead origin) :
    node.header.IsConsistent node.sample? := by
  induction h with
  | sample | object | array => exact Header.isConsistent_of_rules_eq_nil rfl rfl
  | shortcut hmark =>
    obtain ⟨names, -, hmark⟩ := Except.bind_eq_ok_iff.1 hmark
    obtain ⟨header, hheader, hmark⟩ := Except.bind_eq_ok_iff.1 hmark
    obtain rfl := Except.ok.inj hmark
    obtain ⟨hrules, -, hdeclared, -⟩ := Header.exists_of_addRules_eq_ok hheader
    exact Header.isConsistent_of_shortcut hrules hdeclared
  | member type basis =>
    refine Header.isConsistent_of_rules_eq_nil (rules_memberNode type basis) ?_
    cases type with
    | builtin type => cases type <;> rfl
    | user name => rfl
  | rules hnode hadded happly ih =>
    obtain ⟨header, hheader, hbecomes⟩ := exists_becomes_of_apply_eq_ok happly
    rw [hbecomes.sample_eq]
    exact (ih.apply hnode.isRegular.nodup hadded.isFresh hheader).congr hbecomes.rules_eq hbecomes.declared_eq
  | header header _ _ hdeclared hrules ih =>
    rw [header_withHeader, sample?_withHeader]
    exact ih.congr hrules hdeclared
  | union _ _ ih =>
    rw [header_withHeader, sample?_withHeader]
    exact ih.congr rfl rfl

/-- A union lists members. -/
theorem Node.IsWritten.ne_nil_of_ask {origin : Provenance} {node : Node} (h : node.IsWritten AreRead origin)
    {names : List String} (hnames : node.rules.Ask (.types names)) : names ≠ [] := by
  obtain ⟨r, hr, others, hc, hne⟩ := h.isStated.union (h.or_mem_iff.2 hnames.mem_kinds)
  have heq := Rules.Ask.eq h.isRegular.nodup hnames ⟨r, hr, hc⟩ rfl
  rwa [Constraint.types.inj heq]

/-- **What is settled once a node has been loaded.**  Its kinds of rules are distinct, a union has members, names
are known, and its rules go together. -/
structure Node.IsSettled (known : String → Prop) (node : Node) : Prop where
  nodup : node.rules.kinds.Nodup
  union : .or ∈ node.rules.kinds ↔ .types ∈ node.rules.kinds
  members : ∀ names, node.rules.Ask (.types names) → names ≠ []
  names : ∀ name ∈ node.rules.typeNames, known name
  shortcut : ∀ header names, node = .reference header names → ∀ name ∈ names, name ∈ node.rules.typeNames
  consistent : node.header.IsConsistent node.sample?

/-- **Every node that a document loads as is settled**, at any depth and in any unnamed type.  The unnamed types are
called after the owner of the document, and counted. -/
theorem Schema.isSettled_of_load_eq_ok {source : Source} {owner : String} {schema : Schema}
    (h : Schema.load source owner = .ok schema) :
    (∀ node ∈ schema.nodes, node.IsSettled fun name =>
      isUserTypeName name = true ∨ name ∈ Catalog.keys schema.types) ∧
    Catalog.keys schema.types = (List.range schema.types.length).map fun i => owner ++ "#" ++ toString (i + 1) := by
  obtain ⟨notes, hloaded⟩ := exists_isLoaded_of_load_eq_ok h
  refine ⟨fun node hnode => ?_, hloaded.inOrder.names⟩
  obtain ⟨root, hroot, hpart⟩ := List.mem_flatMap.1 hnode
  obtain ⟨origin, hwritten⟩ := (everywhere_of_load_eq_ok h).exists_of_mem_nodes hnode
  have hrules : node.bare.rules = node.rules := congrArg Header.rules node.header_bare
  have hconsistent := hwritten.isConsistent
  rw [Node.header_bare, Node.sample?_bare] at hconsistent
  exact {
    nodup := hrules ▸ hwritten.isRegular.nodup
    union := hrules ▸ hwritten.or_mem_iff
    members := fun _ hnames => hwritten.ne_nil_of_ask (hrules ▸ hnames)
    names := (finds_of_load_eq_ok h root hroot node hpart).header.types
    shortcut := fun header names hreference => by
      subst hreference
      exact (hwritten.isRegular.names header names rfl).2
    consistent := hconsistent }

/-- A document with a bound, a constant, and a union of two types without names. -/
def Source.parcel : Source := .ofString "parcel"
  "[5, // \x7bmin: 1, const: true\x7d\n1 // \x7bor: [\x7btype: \"date\"\x7d, \"email\"]\x7d\n]"

/-- The names of the types of that document, if it loads. -/
def Source.parcelKeys? : Option (List String) :=
  match Schema.load .parcel "parcel" with
  | .ok schema => some (Catalog.keys schema.types)
  | .error _ => none

/-- The nodes of that document and of its two types are settled. -/
theorem Schema.isSettled_parcel : ∃ schema, Schema.load .parcel "parcel" = .ok schema ∧
    Catalog.keys schema.types = ["parcel#1", "parcel#2"] ∧
    ∀ node ∈ schema.nodes, node.IsSettled fun name =>
      isUserTypeName name = true ∨ name ∈ Catalog.keys schema.types := by
  have hkeys : Source.parcelKeys? = some ["parcel#1", "parcel#2"] := by decide +kernel
  rw [Source.parcelKeys?] at hkeys
  split at hkeys
  · next schema hload => exact ⟨schema, hload, Option.some.inj hkeys, (isSettled_of_load_eq_ok hload).1⟩
  · cases hkeys

end ExampleSchema
