import ExampleSchema.Node.Basic

/-!
# Trees of nodes

A node has children, and its tree is the node followed by the trees of its children.  What follows lets
proofs go down a tree without telling objects from arrays.

* `Node.inductionOn`: a property that passes from the children of a node to the node holds of all nodes.
* `Node.subnodes_eq`: the nodes of a tree, by way of the children.
* `Node.mem_subnodes_trans`: a part of a part is a part.
-/

namespace ExampleSchema
namespace Node

/-- A child is smaller than its node. -/
theorem sizeOf_lt_of_mem_children {child node : Node} (h : child ∈ node.children) :
    sizeOf child < sizeOf node := by
  cases node with
  | object header properties =>
    obtain ⟨p, hp, rfl⟩ := List.mem_map.1 h
    have hlt := List.sizeOf_lt_of_mem hp
    obtain ⟨key, node⟩ := p
    simp only [Prod.mk.sizeOf_spec] at hlt
    simp only [object.sizeOf_spec]
    omega
  | array header items =>
    have hlt := List.sizeOf_lt_of_mem (show child ∈ items from h)
    simp only [array.sizeOf_spec]
    omega
  | literal | mixed | reference => simp [children] at h

/-- **Induction down a tree.** -/
theorem inductionOn {P : Node → Prop} (node : Node)
    (step : ∀ node : Node, (∀ child ∈ node.children, P child) → P node) : P node :=
  step node fun child _ => inductionOn child step
termination_by sizeOf node
decreasing_by exact sizeOf_lt_of_mem_children ‹_›

theorem subnodesOfProperties_eq (properties : List (PropertyKey × Node)) :
    subnodesOfProperties properties = (properties.map Prod.snd).flatMap subnodes := by
  induction properties with
  | nil => rfl
  | cons p rest ih => simp [subnodesOfProperties, ih]

theorem subnodesOfItems_eq (items : List Node) :
    subnodesOfItems items = items.flatMap subnodes := by
  induction items with
  | nil => rfl
  | cons node rest ih => simp [subnodesOfItems, ih]

/-- A tree is its node and the trees of the children. -/
theorem subnodes_eq (node : Node) :
    node.subnodes = node :: node.children.flatMap subnodes := by
  cases node <;> simp [subnodes, children, subnodesOfProperties_eq, subnodesOfItems_eq]

theorem mem_subnodes_iff {node part : Node} :
    part ∈ node.subnodes ↔ part = node ∨ ∃ child ∈ node.children, part ∈ child.subnodes := by
  rw [subnodes_eq, List.mem_cons, List.mem_flatMap]

theorem mem_subnodes_of_mem_children {child node : Node} (h : child ∈ node.children) :
    child ∈ node.subnodes :=
  mem_subnodes_iff.2 (Or.inr ⟨child, h, mem_subnodes_self child⟩)

/-- A part of a part is a part. -/
theorem mem_subnodes_trans {node part inner : Node} (hpart : part ∈ node.subnodes)
    (hinner : inner ∈ part.subnodes) : inner ∈ node.subnodes := by
  induction node using inductionOn with
  | step node ih =>
    rcases mem_subnodes_iff.1 hpart with rfl | ⟨child, hchild, hpart⟩
    · exact hinner
    · exact mem_subnodes_iff.2 (Or.inr ⟨child, hchild, ih child hchild hpart⟩)

end Node
end ExampleSchema
