import ExampleSchema.Proofs.Accept.Data
import ExampleSchema.Proofs.Load.Layout
import ExampleSchema.Proofs.Unions

/-!
# How deep references nest

A node may refer to types of the user, and such references may nest as deep as the user likes.  But a node
that refers to what is written in place refers to members of unions in its own note; a member may be a union
again, whose members are written inside it.  So such references nest no deeper than the note does.

* `Node.RefersInPlace`: all that a node refers to is written in place.
* `UnionsNestWithin`: the unions among some rules are written with values of so many levels.
* `ReadsMember.isWritten`: the unions of a member are written inside it.
* `Session.Arises.refersWithin`: in a compiled schema, the references from a node nest no deeper than the
  unions of its note, if all that the document refers to is written in place.
-/

namespace ExampleSchema

variable {stands : String → Node → Nat → Prop}

/-! ## What is written in place -/

/-- All that a node refers to is written in place: its type is no type of the user, and neither are the
members of its union. -/
structure Node.RefersInPlace (node : Node) : Prop where
  type : ∀ r ∈ node.rules, ∀ name, r.constraint ≠ .type (.user name)
  types : ∀ r ∈ node.rules, ∀ names, r.constraint = .types names → ∀ name ∈ names, isUserTypeName name = false

/-- A rule names no type of the user. -/
def Rule.isInPlace (r : Rule) : Bool :=
  match r.constraint with
  | .type (.user _) => false
  | .types names => names.all fun name => !isUserTypeName name
  | _ => true

theorem Node.refersInPlace_iff {node : Node} :
    node.RefersInPlace ↔ ∀ r ∈ node.rules, r.isInPlace = true := by
  constructor
  · intro h r hr
    rw [Rule.isInPlace]
    split
    · next name hc => exact (h.type r hr name hc).elim
    · next names hc => simpa using h.types r hr names hc
    · rfl
  · refine fun h => ⟨fun r hr name hc => ?_, fun r hr names hc => ?_⟩
    · have hplace := h r hr
      rw [Rule.isInPlace, hc] at hplace
      cases hplace
    · have hplace := h r hr
      rw [Rule.isInPlace, hc] at hplace
      simpa using hplace

instance (node : Node) : Decidable node.RefersInPlace := decidable_of_iff' _ Node.refersInPlace_iff

/-- A shortcut consists of names of types of the user. -/
theorem Shortcut.isUserTypeName_of_mem {mark : Mark} {names : List String} (h : Shortcut.names mark = .ok names)
    {name : String} (hname : name ∈ names) : isUserTypeName name = true := by
  obtain ⟨part, -, hpart⟩ := Except.exists_of_mem_mapM h hname
  dsimp only at hpart
  split at hpart
  · next huser =>
    obtain rfl := Except.ok.inj hpart
    exact huser
  · cases hpart

/-- Each name of listed members is one of a member. -/
theorem ReadsMembers.exists_of_mem {items : List RuleValue} {names : List String} {name : String} :
    ReadsMembers stands items names → name ∈ names →
      ∃ item ∈ items, ∃ own, ReadsMember stands item own ∧ name ∈ own
  | .nil, hname => (List.not_mem_nil hname).elim
  | .cons hitem hrest, hname => by
    rcases List.mem_append.1 hname with hname | hname
    · exact ⟨_, List.mem_cons_self .., _, hitem, hname⟩
    · obtain ⟨item, hmem, hfound⟩ := hrest.exists_of_mem hname
      exact ⟨item, List.mem_cons_of_mem _ hmem, hfound⟩

/-- What a union refers to in place is listed in it. -/
theorem ReadsUnion.exists_of_mem {value : RuleValue} {names : List String} (h : ReadsUnion stands value names)
    {name : String} (hmem : name ∈ names) (hname : isUserTypeName name = false) :
    ∃ item ∈ value.parts, ∃ own, ReadsMember stands item own ∧ name ∈ own := by
  cases h with
  | shortcut hnames => exact nomatch (Shortcut.isUserTypeName_of_mem hnames hmem).symm.trans hname
  | array hitems hmembers => exact hmembers.exists_of_mem hmem

/-! ## Unions inside unions -/

/-- The unions among some rules are written with values of at most so many levels. -/
def UnionsNestWithin (stands : String → Node → Nat → Prop) (levels : Nat) (added : List Rule) : Prop :=
  ∀ r ∈ added, ∀ names, r.constraint = .types names →
    ∃ value, ReadsUnion stands value names ∧ value.NestsWithin levels

/-- The unions among rules that have been read nest no deeper than the values of the rules. -/
theorem ReadsRules.unionsNestWithin {rules : List (String × Mark × RuleValue)} {added : List Rule}
    (h : ReadsRules stands rules added) {levels : Nat} (hvalues : ∀ e ∈ rules, e.2.2.NestsWithin levels) :
    UnionsNestWithin stands levels added := by
  intro r hr names hc
  obtain ⟨e, he, -, -, hunion⟩ := h.exists_union r hr names hc
  exact ⟨e.2.2, hunion, hvalues e he⟩

/-- What is inside a value nests no deeper than the value. -/
theorem RuleValue.NestsWithin.of_mem_parts {value part : RuleValue} {levels : Nat}
    (h : value.NestsWithin levels) (hpart : part ∈ value.parts) : part.NestsWithin levels := by
  cases levels with
  | zero =>
    rw [show value.parts = [] from h] at hpart
    cases hpart
  | succ levels => exact (h part hpart).succ

/-- **A member that is written in place** stands for a node whose unions are written inside it. -/
theorem ReadsMember.isWritten {item : RuleValue} {names : List String} (h : ReadsMember stands item names)
    {name : String} (hmem : name ∈ names) (hname : isUserTypeName name = false) {levels : Nat}
    (hitem : item.NestsWithin levels) : ∃ node start, stands name node start ∧
      node.IsWritten (UnionsNestWithin stands levels) .member := by
  cases h with
  | shortcut hnames => exact nomatch (Shortcut.isUserTypeName_of_mem hnames hmem).symm.trans hname
  | userType _ huser =>
    obtain rfl := List.mem_singleton.1 hmem
    exact nomatch huser.symm.trans hname
  | builtinType _ _ hnode hstands =>
    obtain rfl := List.mem_singleton.1 hmem
    refine ⟨_, _, hstands, .rules (.member _ _) (fun r hr names hc => ?_) hnode⟩
    rw [List.mem_singleton.1 hr] at hc
    cases hc
  | rules hrules hnode hstands =>
    obtain rfl := List.mem_singleton.1 hmem
    refine ⟨_, _, hstands, Node.isWritten_of_memberOfRules (hrules.unionsNestWithin fun e he => ?_) hnode⟩
    exact hitem.of_mem_parts (List.mem_map_of_mem he)

/-- What a written node refers to in place comes of a union among rules that it has been given. -/
theorem Node.IsWritten.exists_of_mem_typeNames {isRead : List Rule → Prop} {origin : Provenance} {node : Node}
    (h : node.IsWritten isRead origin) (hplace : node.RefersInPlace) {name : String}
    (hname : name ∈ node.rules.typeNames) : isUserTypeName name = false ∧
      ∃ added, isRead added ∧ ∃ r ∈ added, ∃ names, r.constraint = .types names ∧ name ∈ names := by
  rcases (Rules.mem_typeNames_iff h.isRegular.nodup).1 hname with ⟨r, hr, hc⟩ | ⟨r, hr, names, hc, hmem⟩
  · exact (hplace.type r hr name hc).elim
  · have hother := hplace.types r hr names hc name hmem
    rcases h.exists_of_types hr hc with ⟨mark, -, hnames⟩ | ⟨added, hadded, hr⟩
    · exact nomatch (Shortcut.isUserTypeName_of_mem hnames hmem).symm.trans hother
    · exact ⟨hother, added, hadded, r, hr, names, hc, hmem⟩

/-! ## Compiled schemas -/

/-- Letting a tree inherit keeps its root, without the parts. -/
theorem Node.bare_of_expand_eq_ok {types : Registry} {levels : Nat} {node new : Node}
    (h : node.expand types levels = .ok new) : new.bare = node.bare := by
  cases levels with
  | zero => cases h
  | succ levels =>
    rw [expand_succ] at h
    obtain ⟨whole, hwhole, h⟩ := Except.bind_eq_ok_iff.1 h
    obtain ⟨children, -, h⟩ := Except.bind_eq_ok_iff.1 h
    obtain rfl := Except.ok.inj h
    rw [bare_withChildren, inherit_bare hwhole]

/-- Resolving the rules of a tree fills in details of those of its root. -/
theorem Node.exists_change_of_resolveEnums_eq_ok {rules : EnumRules} {node new : Node}
    (h : node.resolveEnums rules = .ok new) :
    ∃ f : Constraint → Constraint, new.rules = node.rules.change f ∧ ∀ c, Constraint.Completes c (f c) := by
  rw [resolveEnums_eq] at h
  obtain ⟨header, hheader, h⟩ := Except.bind_eq_ok_iff.1 h
  obtain ⟨children, -, h⟩ := Except.bind_eq_ok_iff.1 h
  obtain rfl := Except.ok.inj h
  obtain ⟨f, rfl, hf⟩ := Header.exists_of_resolveEnum_eq_ok hheader
  refine ⟨f, ?_, hf⟩
  rw [Node.rules, ← header_bare, bare_withChildren, header_bare, header_withHeader, Node.rules]

/-- Resolving the rules of a tree keeps the types that its root refers to. -/
theorem Node.typeNames_of_resolveEnums_eq_ok {rules : EnumRules} {node new : Node}
    (h : node.resolveEnums rules = .ok new) : new.rules.typeNames = node.rules.typeNames := by
  obtain ⟨f, hrules, hf⟩ := exists_change_of_resolveEnums_eq_ok h
  rw [hrules, Rules.typeNames_change hf]

namespace Session

variable {s : Session} {node finished : Node}

/-- Compiling keeps the types that a node refers to. -/
theorem Finishes.typeNames_eq (h : s.Finishes node finished) :
    finished.rules.typeNames = node.rules.typeNames := by
  obtain ⟨loaded, resolved, part, -, -, hpart, hfinished⟩ := h
  rw [← Node.typeNames_of_resolveEnums_eq_ok hpart, Node.rules, ← Node.header_bare,
    Node.bare_of_expand_eq_ok hfinished, Node.header_bare, Node.rules]

/-- **The references from a node nest no deeper than the unions of its note**, if all that the document
refers to is written in place. -/
theorem Arises.refersWithin (hs : s.Arises) {loaded schema : Schema} (hload : s.load = .ok loaded)
    (h : s.compiled = .ok schema) (htypes : ∀ e ∈ loaded.types, e.2.root.RefersInPlace) {levels : Nat}
    {origin : Provenance}
    (hnode : node.IsWritten (UnionsNestWithin (loaded.unnamed s.source s.source.name).Has levels) origin)
    (hplace : node.RefersInPlace) (hnames : finished.rules.typeNames = node.rules.typeNames) :
    schema.types.RefersWithin levels finished := by
  -- Each name leads to a member, in a list that is written inside the union.
  have hmember : ∀ {levels : Nat} {origin : Provenance} {node : Node},
      node.IsWritten (UnionsNestWithin (loaded.unnamed s.source s.source.name).Has levels) origin →
      node.RefersInPlace → ∀ name ∈ node.rules.typeNames, ∃ value item : RuleValue, ∃ own,
        value.NestsWithin levels ∧ item ∈ value.parts ∧
        ReadsMember (loaded.unnamed s.source s.source.name).Has item own ∧ name ∈ own ∧
        isUserTypeName name = false := by
    intro levels origin node hnode hplace name hname
    obtain ⟨hother, added, hadded, r, hr, names, hc, hmem⟩ := hnode.exists_of_mem_typeNames hplace hname
    obtain ⟨value, hunion, hvalue⟩ := hadded r hr names hc
    obtain ⟨item, hitem, own, hreads, hown⟩ := hunion.exists_of_mem hmem hother
    exact ⟨value, item, own, hvalue, hitem, hreads, hown, hother⟩
  induction levels generalizing node finished origin with
  | zero =>
    refine List.eq_nil_iff_forall_not_mem.2 fun name hname => ?_
    rw [hnames] at hname
    obtain ⟨value, item, own, hvalue, hitem, -⟩ := hmember hnode hplace name hname
    rw [show value.parts = [] from hvalue] at hitem
    cases hitem
  | succ levels ih =>
    intro name hname root hroot
    rw [hnames] at hname
    obtain ⟨value, item, own, hvalue, hitem, hreads, hown, hother⟩ := hmember hnode hplace name hname
    obtain ⟨member, start, hstands, hwritten⟩ := hreads.isWritten hown hother (hvalue item hitem)
    have hentry := Catalog.mem_of_find?_eq_some hstands
    obtain ⟨finished', hfinishes, hfound⟩ :=
      hs.exists_finishes_of_find?_register h hload (hs.find?_register_document hload hentry)
    obtain rfl : finished' = root := by
      rw [Registry.root?, hfound] at hroot
      exact Option.some.inj hroot
    exact ih hwritten (htypes _ hentry) hfinishes.typeNames_eq

end Session
end ExampleSchema
