import ExampleSchema.Proofs.Outcome
import ExampleSchema.Schema.Inherit

/-!
# What an object takes over

Letting one object inherit always comes to an end: the types that are gathered on the way are entered
once each.  It fails in four ways only, and whatever it takes over is a child of the root of some type,
as that type is registered.

* `ErrorCode.ofInheritance`: the four ways to fail.
* `passedOn_meets`: what a type passes on.
* `Node.inherit_meets`: what an object has once it has inherited.
-/

namespace ExampleSchema

/-- The codes with which inheriting fails. -/
def ErrorCode.ofInheritance : List ErrorCode :=
  [.typeNotFound, .allOfNotObject, .allOfDuplicateKey, .infiniteRecursion]

/-- The problem is one of inheriting. -/
def Problem.IsOfInheritance (p : Problem) : Prop := p.code ∈ ErrorCode.ofInheritance

theorem isOfInheritance_anywhere {cause : Cause} (h : cause.code ∈ ErrorCode.ofInheritance) :
    cause.anywhere.IsOfInheritance := h

/-- The node is a child of the root of a registered type. -/
def Registry.HasChild (types : Registry) (node : Node) : Prop :=
  ∃ e ∈ types, node ∈ e.2.root.children

namespace Registry

theorem exists_mem_of_root?_eq_some {types : Registry} {name : String} {root : Node}
    (h : types.root? name = some root) : ∃ e ∈ types, e.2.root = root := by
  obtain ⟨entry, he, rfl⟩ := Option.map_eq_some_iff.1 h
  obtain ⟨before, after, hsplit, -⟩ := List.lookup_eq_some_iff.1 he
  exact ⟨(name, entry), by simp [hsplit], rfl⟩

theorem HasChild.of_without {types : Registry} {name : String} {node : Node}
    (h : (types.without name).HasChild node) : types.HasChild node := by
  obtain ⟨e, he, hnode⟩ := h
  exact ⟨e, (List.mem_filter.1 he).1, hnode⟩

end Registry

namespace Properties

variable (good : Node → Prop)

/-- Adding a property adds its node and fails for a second property of the name only. -/
theorem add_meets {properties : Properties} {property : PropertyKey × Node} {blamed : Mark}
    (h : ∀ p ∈ properties, good p.2) (hnew : good property.2) :
    (properties.add property blamed).Meets (fun all => ∀ p ∈ all, good p.2)
      Problem.IsOfInheritance := by
  unfold add
  split
  · simp [Problem.IsOfInheritance, Problem.code, Cause.on, Cause.code, ErrorCode.ofInheritance]
  · intro p hp
    rcases List.mem_append.1 hp with hp | hp
    · exact h p hp
    · rw [List.mem_singleton.1 hp]
      exact hnew

theorem addAll_meets {properties added : Properties} (h : ∀ p ∈ properties, good p.2)
    (hadded : ∀ p ∈ added, good p.2) :
    (properties.addAll added).Meets (fun all => ∀ p ∈ all, good p.2) Problem.IsOfInheritance :=
  Except.Meets.foldlM h fun _ hall p hp => add_meets good hall (hadded p hp)

end Properties

theorem passedOn_of_entered {types : Registry} {entered : List String} {name : String}
    (h : entered.contains name) :
    passedOn types entered name = .error (Cause.endlessAllOf (entered ++ [name])).anywhere := by
  rw [passedOn, if_pos h]

section

variable {types : Registry} {entered : List String} {name : String} (h : ¬ entered.contains name)
include h

theorem passedOn_of_none (hroot : types.root? name = none) :
    passedOn types entered name = .error (Cause.typeNotFound name).anywhere := by
  rw [passedOn, if_neg h]
  split <;> simp_all

theorem passedOn_of_object {header : Header} {properties : Properties}
    (hroot : types.root? name = some (.object header properties)) :
    passedOn types entered name = (do
      let gathered ← header.allOfNames.foldlM (fun (gathered : Properties) parent => do
        gathered.addAll (← passedOn (types.without name) (entered ++ [name]) parent)) []
      gathered.addAll (Properties.inherited properties)) := by
  rw [passedOn, if_neg h]
  split <;> simp_all

theorem passedOn_of_not_object {root : Node} (hroot : types.root? name = some root)
    (hnot : ∀ header properties, root = .object header properties → False) :
    passedOn types entered name = .error (Cause.allOfNotObject name).anywhere := by
  rw [passedOn, if_neg h]
  split
  · simp_all
  · exact (hnot _ _ (Option.some_inj.1 (hroot.symm.trans ‹_›))).elim
  · rfl

end

/-- **What a type passes on**: children of the roots of types, unless it fails in one of the four
ways. -/
theorem passedOn_meets (types : Registry) (entered : List String) (name : String) :
    (passedOn types entered name).Meets (fun properties => ∀ p ∈ properties, types.HasChild p.2)
      Problem.IsOfInheritance := by
  induction types, entered, name using passedOn.induct with
  | case1 types entered name hentered =>
    rw [passedOn_of_entered hentered]
    exact isOfInheritance_anywhere (by simp [Cause.code, ErrorCode.ofInheritance])
  | case2 types entered name hentered hroot =>
    rw [passedOn_of_none hentered hroot]
    exact isOfInheritance_anywhere (by simp [Cause.code, ErrorCode.ofInheritance])
  | case3 types entered name hentered header properties hroot ih =>
    rw [passedOn_of_object hentered hroot]
    have hown : ∀ p ∈ Properties.inherited properties, types.HasChild p.2 := by
      intro p hp
      obtain ⟨q, hq, rfl⟩ := List.mem_map.1 hp
      obtain ⟨e, he, heq⟩ := Registry.exists_mem_of_root?_eq_some hroot
      exact ⟨e, he, by rw [heq]; exact List.mem_map.2 ⟨q, hq, rfl⟩⟩
    refine Except.Meets.bind (Except.Meets.foldlM (by simp) ?_) fun gathered hgathered =>
      Properties.addAll_meets _ hgathered hown
    intro gathered hgathered parent _
    refine Except.Meets.bind (ih parent) fun added hadded => ?_
    exact Properties.addAll_meets _ hgathered fun p hp => (hadded p hp).of_without
  | case4 types entered name hentered root hnot hroot =>
    rw [passedOn_of_not_object hentered hroot hnot]
    exact isOfInheritance_anywhere (by simp [Cause.code, ErrorCode.ofInheritance])

namespace Node

/-- **What a node has once it has inherited**: its own children and children of the roots of types,
unless it fails in one of the four ways. -/
theorem inherit_meets (types : Registry) (node : Node) :
    (node.inherit types).Meets
      (fun whole => ∀ child ∈ whole.children, child ∈ node.children ∨ types.HasChild child)
      Problem.IsOfInheritance := by
  cases node with
  | object header properties =>
    rw [inherit]
    split
    · have hown : ∀ p ∈ properties.filter fun p => !p.1.isInherited,
          p.2 ∈ (object header properties).children ∨ types.HasChild p.2 := by
        intro p hp
        exact Or.inl (List.mem_map_of_mem (List.mem_filter.1 hp).1)
      refine Except.Meets.bind (show Except.Meets _
        (fun gathered : Properties => ∀ p ∈ gathered, types.HasChild p.2) _ from
          Except.Meets.foldlM (by simp) ?_) fun gathered hgathered => ?_
      · intro gathered hgathered parent _
        refine Except.Meets.bind ((passedOn_meets types [] parent).mapError fun _ h => h) ?_
        intro added hadded
        exact Except.Meets.foldlM hgathered fun _ hall p hp =>
          Properties.add_meets _ hall (hadded p hp)
      · refine Except.Meets.bind (Properties.addAll_meets
          (fun child => child ∈ (object header properties).children ∨ types.HasChild child)
          (fun p hp => Or.inr (hgathered p hp)) hown) ?_
        intro all hall child hchild
        obtain ⟨p, hp, rfl⟩ := List.mem_map.1 hchild
        exact hall p hp
    · exact fun child hchild => Or.inl hchild
  | literal | array | mixed | reference => exact fun child hchild => Or.inl hchild

end Node
end ExampleSchema
