import ExampleSchema.Proofs.Declarations
import ExampleSchema.Proofs.Load.Loading

/-!
# What notes do to the nodes of a loader

A note that ends changes one node of what has been read, the one that it describes, and leaves all others as they
are.  The nodes themselves, each without its parts, come of nothing but the values that begin and end.

* `Node.IsUnannotated`: what a value is before any note describes it.
* `Node.bares`, `Loader.bares`: the nodes, each without its parts.
* `Loader.target?`: the node that the next note describes.
* `Loader.place_gains`, `Loader.leave_gains`: a value that ends adds its node.
* `Loader.exists_describe_eq`: a note changes the node that it describes and nothing else.
-/

namespace ExampleSchema

/-! ## Nodes -/

namespace Header

/-- The header of a node that is written and commented in another way. -/
def rewritten (h : Header) (basis : Mark) (comment? : Option String) (isAnnotated : Bool) : Header :=
  { h with basis, comment?, isAnnotated }

/-- Rules have nothing to do with how a node is written and commented. -/
theorem apply_rewritten (h : Header) (basis : Mark) (comment? : Option String) (isAnnotated : Bool)
    (sample? : Option Mark) (added : List Rule) :
    (h.rewritten basis comment? isAnnotated).apply sample? added =
      (rewritten · basis comment? isAnnotated) <$> h.apply sample? added := by
  rw [apply_eq, apply_eq]
  refine Except.bind_eq_map_bind (r := (rewritten · basis comment? isAnnotated)) ?_ fun changed _ => ?_
  · unfold addRules
    exact Except.bind_eq_map_bind (r := id) (id_map _).symm fun _ _ => rfl
  refine Except.bind_eq_map_bind (r := (rewritten · basis comment? isAnnotated)) ?_ fun declared _ => ?_
  · cases builtinOf? added with
    | none => rfl
    | some type =>
      dsimp only
      rw [declare, declare]
      cases type.format? with
      | none => rfl
      | some format => exact Except.bind_eq_map_bind (r := id) (id_map _).symm fun _ _ => rfl
  · cases sample? with
    | none => rfl
    | some sample =>
      unfold fillConstant
      change (if declared.linkBounds.isConstant then _ else _) = _
      dsimp only
      split
      · exact Except.bind_eq_map_bind (r := id) (id_map _).symm fun key _ => rfl
      · rfl

/-- Rules leave how a node is written and commented. -/
theorem eq_rewritten_of_apply {h changed : Header} {sample? : Option Mark} {added : List Rule}
    (happly : h.apply sample? added = .ok changed) : changed = changed.rewritten h.basis h.comment? h.isAnnotated := by
  have hsame := h.apply_rewritten h.basis h.comment? h.isAnnotated sample? added
  rw [happly] at hsame
  exact Except.ok.inj (happly.symm.trans hsame)

end Header

namespace Node

variable {node changed : Node} {note : Mark} {comment? : Option String} {added : List Rule}

/-- Where the node begins. -/
def start (node : Node) : Nat := node.basis.start

/-- The node in another place. -/
def moved (node : Node) (mark : Mark) : Node := node.withHeader { node.header with basis := mark }

/-- What a value is before any note describes it. -/
inductive IsUnannotated (mark : Mark) : Node → Prop where
  | sample : mark.kind = .closing .literal → IsUnannotated mark (Loader.sampleNode mark)
  | shortcut {node : Node} : mark.kind = .closing .mixedValue → Shortcut.node mark = .ok node → IsUnannotated mark node
  | object : mark.kind = .opening .object ∨ mark.kind = .closing .object →
      IsUnannotated mark (.object { jsonType := .object, basis := mark } [])
  | array : mark.kind = .opening .array ∨ mark.kind = .closing .array →
      IsUnannotated mark (.array { jsonType := .array, basis := mark } [])

/-- The nodes of a tree, each without its parts. -/
def bares (node : Node) : List Node := node.subnodes.map bare

theorem bares_eq (node : Node) : node.bares = node.bare :: node.children.flatMap bares := by
  rw [bares, subnodes_eq, List.map_cons, List.map_flatMap]
  rfl

@[simp] theorem basis_bare (node : Node) : node.bare.basis = node.basis := by rw [basis, header_bare, basis]

@[simp] theorem start_bare (node : Node) : node.bare.start = node.start := by rw [start, basis_bare, start]

theorem bare_moved (node : Node) (mark : Mark) : (node.moved mark).bare = node.bare.moved mark := by
  rw [moved, bare_withHeader, moved, header_bare]

theorem children_moved (node : Node) (mark : Mark) : (node.moved mark).children = node.children :=
  children_withHeader node _

@[simp] theorem basis_moved (node : Node) (mark : Mark) : (node.moved mark).basis = mark := by
  rw [basis, moved, header_withHeader]

theorem IsUnannotated.basis_eq {mark : Mark} (h : IsUnannotated mark node) : node.basis = mark := by
  cases h with
  | sample | object | array => rfl
  | shortcut _ hnode =>
    obtain ⟨names, -, hnode⟩ := Except.bind_eq_ok_iff.1 hnode
    obtain ⟨header, hheader, hnode⟩ := Except.bind_eq_ok_iff.1 hnode
    obtain ⟨rules, -, hheader⟩ := Except.bind_eq_ok_iff.1 hheader
    obtain rfl := Except.ok.inj hheader
    obtain rfl := Except.ok.inj hnode
    rfl

theorem IsUnannotated.bare_eq {mark : Mark} (h : IsUnannotated mark node) : node.bare = node := by
  cases h with
  | sample | object | array => rfl
  | shortcut _ hnode => exact (@IsWritten.shortcut (fun _ => True) _ _ hnode).bare_eq

/-- A container that ends has been described by no note but those that described it before. -/
theorem IsUnannotated.moved {mark mark' : Mark} (h : IsUnannotated mark node) {c : Construct}
    (hopens : mark.kind = .opening c) (hcloses : mark'.kind = .closing c) : IsUnannotated mark' (node.moved mark') := by
  cases h with
  | sample hkind | shortcut hkind =>
    rw [hopens] at hkind
    cases hkind
  | object hkind =>
    obtain rfl : c = .object := by simpa [hopens] using hkind
    exact .object (Or.inr hcloses)
  | array hkind =>
    obtain rfl : c = .array := by simpa [hopens] using hkind
    exact .array (Or.inr hcloses)

/-- What a note does to a node. -/
theorem exists_of_annotate_eq_ok (h : node.annotate note comment? added = .ok changed) : ∃ header,
    node.header.isAnnotated = false ∧
    (node.header.rewritten node.basis comment? true).apply node.sample? added = .ok header ∧
    Becomes (node.withHeader (node.header.rewritten node.basis comment? true)) added header changed := by
  obtain ⟨noted, hnoted, h⟩ := Except.bind_eq_ok_iff.1 h
  rw [Header.annotate] at hnoted
  split at hnoted
  · cases hnoted
  · next hfree =>
    obtain rfl := Except.ok.inj hnoted
    obtain ⟨header, hheader, hbecomes⟩ := exists_becomes_of_apply_eq_ok h
    rw [header_withHeader, sample?_withHeader] at hheader
    exact ⟨header, Bool.eq_false_iff.2 hfree, hheader, hbecomes⟩

theorem Becomes.header_eq {header : Header} (h : Becomes node added header changed) :
    ∃ type, changed.header = { header with jsonType := type } := by
  cases h with
  | same => exact ⟨header.jsonType, by rw [header_withHeader]⟩
  | opened | referring => exact ⟨_, rfl⟩

/-- A node that a note describes is described from then on, and commented by the text of the note. -/
theorem header_of_annotate_eq_ok (h : node.annotate note comment? added = .ok changed) :
    node.header.isAnnotated = false ∧ changed.header.isAnnotated = true ∧ changed.header.comment? = comment? ∧
      changed.basis = node.basis := by
  obtain ⟨header, hfree, hheader, hbecomes⟩ := exists_of_annotate_eq_ok h
  obtain ⟨type, hchanged⟩ := hbecomes.header_eq
  have hsame := Header.eq_rewritten_of_apply hheader
  refine ⟨hfree, ?_, ?_, ?_⟩
  all_goals
    first | rw [basis, hchanged, hsame] | rw [hchanged, hsame]
    rfl

/-- Only one note describes a node. -/
theorem annotate_of_isAnnotated (h : node.header.isAnnotated = true) :
    node.annotate note comment? added = .error (Cause.annotatedTwice.on note) := by
  rw [annotate, Header.annotate, if_pos h]
  rfl

/-- A note does not look at the parts of a node, and leaves them. -/
theorem annotate_bare (h : node.annotate note comment? added = .ok changed) :
    node.bare.annotate note comment? added = .ok changed.bare ∧ changed.children = node.children := by
  obtain ⟨noted, hnoted, h⟩ := Except.bind_eq_ok_iff.1 h
  obtain ⟨hbare, hchildren⟩ := apply_bare h
  rw [bare_withHeader] at hbare
  rw [children_withHeader] at hchildren
  refine ⟨?_, hchildren⟩
  rw [annotate, header_bare, hnoted, Except.ok_bind, hbare]

/-- Rules do not look at where a node is written. -/
theorem apply_moved (node : Node) (mark : Mark) (added : List Rule) :
    (node.moved mark).apply added = (moved · mark) <$> node.apply added := by
  have hheader : (node.moved mark).header.apply (node.moved mark).sample? added =
      (fun header => { header with basis := mark }) <$> node.header.apply node.sample? added := by
    rw [moved, header_withHeader, sample?_withHeader]
    refine (node.header.apply_rewritten mark node.header.comment? node.header.isAnnotated _ added).trans ?_
    cases happly : node.header.apply node.sample? added with
    | error problem => rfl
    | ok header =>
      rw [Header.eq_rewritten_of_apply happly]
      rfl
  rw [apply, apply]
  refine Except.bind_eq_map_bind hheader fun header _ => ?_
  cases node with
  | literal =>
    change (if _ then _ else if _ then _ else _) = _ <$> (if _ then _ else if _ then _ else _)
    split
    · rfl
    · split <;> rfl
  | object | array | mixed | reference => rfl

/-- A note does not look at where a node is written. -/
theorem annotate_moved (h : node.annotate note comment? added = .ok changed) (mark : Mark) :
    (node.moved mark).annotate note comment? added = .ok (changed.moved mark) := by
  obtain ⟨noted, hnoted, h⟩ := Except.bind_eq_ok_iff.1 h
  rw [Header.annotate] at hnoted
  split at hnoted
  · cases hnoted
  · next hfree =>
    obtain rfl := Except.ok.inj hnoted
    have hnoted' : (node.moved mark).header.annotate note comment? =
        .ok { node.header with basis := mark, isAnnotated := true, comment? } := by
      rw [moved, header_withHeader, Header.annotate, if_neg hfree]
    have happly := apply_moved (node.withHeader { node.header with isAnnotated := true, comment? }) mark added
    rw [h] at happly
    rw [annotate, hnoted', Except.ok_bind]
    refine Eq.trans ?_ happly
    cases node <;> rfl

end Node

/-! ## Objects and arrays that are open -/

namespace OpenNode

variable {n m : OpenNode} {value : Node}

/-- What opened the object or the array, and where. -/
def opener (n : OpenNode) : EventKind × Nat := (n.header.basis.kind, n.header.basis.start)

theorem opener_eq (n : OpenNode) : n.opener = (n.node.basis.kind, n.node.start) := by
  rw [Node.start, Node.basis, header_node, opener]

theorem close_eq_moved (n : OpenNode) (mark : Mark) : n.close mark = n.node.moved mark := by
  rw [close_eq, Node.moved, header_node]

/-- A value that is placed becomes the last part. -/
theorem node_of_place (h : n.place value = .ok m) :
    m.node.bare = n.node.bare ∧ m.node.children = n.node.children ++ [value] := by
  obtain ⟨header, filling⟩ := n
  cases filling with
  | array items =>
    obtain rfl := Except.ok.inj h
    exact ⟨rfl, List.reverse_cons⟩
  | object properties key? =>
    cases key? with
    | none => cases h
    | some key =>
      rw [place] at h
      dsimp only at h
      split at h
      · cases h
      · obtain rfl := Except.ok.inj h
        exact ⟨rfl, by simp [node, Node.children]⟩

/-- The last part can be changed. -/
theorem exists_changeLast? (h : n.node.children.getLast? = some value) : ∃ front, ∃ put : Node → OpenNode,
    n.node.children = front ++ [value] ∧
    (∀ change : Node → Outcome Node, n.changeLast? change = some ((change value).map put)) ∧
    ∀ changed, (put changed).node.bare = n.node.bare ∧ (put changed).node.children = front ++ [changed] := by
  obtain ⟨header, filling⟩ := n
  rcases filling with ⟨_ | ⟨⟨key, last⟩, rest⟩, key?⟩ | ⟨_ | ⟨last, rest⟩⟩
  · simp [node, Node.children] at h
  · obtain rfl : last = value := by simpa [node, Node.children] using h
    refine ⟨rest.reverse.map Prod.snd, fun changed => ⟨header, .object ((key, changed) :: rest) key?⟩,
      by simp [node, Node.children], fun _ => rfl, fun changed => ⟨rfl, by simp [node, Node.children]⟩⟩
  · simp [node, Node.children] at h
  · obtain rfl : last = value := by simpa [node, Node.children] using h
    exact ⟨rest.reverse, fun changed => ⟨header, .array (changed :: rest)⟩, by simp [node, Node.children],
      fun _ => rfl, fun changed => ⟨rfl, by simp [node, Node.children]⟩⟩

/-- A note on an open object or array is a note on its node, which has no sample. -/
theorem annotate_node (n : OpenNode) (note : Mark) (comment? : Option String) (added : List Rule) :
    n.node.annotate note comment? added =
      (fun header => ({ n with header } : OpenNode).node) <$>
        (n.header.annotate note comment? >>= fun header => header.apply none added) := by
  obtain ⟨header, filling⟩ := n
  rw [Node.annotate, header_node]
  dsimp only
  cases header.annotate note comment? with
  | error problem => rfl
  | ok noted =>
    rw [Except.ok_bind, Except.ok_bind, Node.apply]
    cases filling with
    | object | array =>
      change (noted.apply none added >>= _) = _ <$> noted.apply none added
      cases noted.apply none added <;> rfl

end OpenNode

/-! ## The nodes of a loader -/

namespace Loader

/-- The nodes that have been read, each without its parts. -/
def bares (l : Loader) : List Node := l.openNodes.flatMap (fun n => n.node.bares) ++ l.root?.toList.flatMap Node.bares

/-- The node that the next note describes. -/
def target? (l : Loader) : Option Node :=
  match l.target, l.root?, l.openNodes with
  | .root, some root, _ => some root
  | .top, _, top :: _ => some top.node
  | .lastChild, _, top :: _ => top.node.children.getLast?
  | _, _, _ => none

/-- The nodes but for their parts, and which of them are open, where the last value was added. -/
structure Gains (l : Loader) (value : Node) (m : Loader) : Prop where
  bares : m.bares.Perm (value.bares ++ l.bares)
  target? : m.target? = some value
  note? : m.note? = l.note?
  openers : m.openNodes.map OpenNode.opener = l.openNodes.map OpenNode.opener
  root? : m.root? = l.root? ∧ l.openNodes ≠ [] ∨ m.root? = some value ∧ l.openNodes = []

variable {l m : Loader} {value : Node} {mark : Mark}

/-- **A value that ends adds its node.**  It is the only one at the top of the document. -/
theorem place_gains (hroot : l.openNodes = [] → l.root? = none) (h : l.place value = .ok m) : l.Gains value m := by
  rw [place] at h
  split at h
  · next hopen =>
    obtain rfl := Except.ok.inj h
    refine ⟨?_, rfl, rfl, rfl, Or.inr ⟨rfl, hopen⟩⟩
    simp [bares, hopen, hroot hopen]
  · next top rest hopen =>
    obtain ⟨placed, hplaced, h⟩ := Except.bind_eq_ok_iff.1 h
    obtain rfl := Except.ok.inj h
    obtain ⟨hbare, hchildren⟩ := OpenNode.node_of_place hplaced
    have hopener : placed.opener = top.opener := by
      rw [OpenNode.opener_eq, ← Node.basis_bare, ← Node.start_bare, hbare, OpenNode.opener_eq, Node.basis_bare,
        Node.start_bare]
    refine ⟨?_, by simp [Loader.target?, hchildren], rfl, by simp [hopen, hopener], Or.inl ⟨rfl, by simp [hopen]⟩⟩
    have hadded : placed.node.bares.Perm (value.bares ++ top.node.bares) := by
      rw [Node.bares_eq, Node.bares_eq top.node, hbare, hchildren, List.flatMap_append, List.flatMap_singleton,
        ← List.cons_append]
      exact List.perm_append_comm
    rw [bares, bares, hopen, List.flatMap_cons, List.flatMap_cons, ← List.append_assoc, ← List.append_assoc]
    simpa [List.append_assoc] using hadded.append_right _

/-- **An object or an array that ends adds its node**, where it was not open. -/
theorem leave_gains {top : OpenNode} {rest : List OpenNode} (hopen : l.openNodes = top :: rest)
    (hroot : rest = [] → l.root? = none) (h : l.leave mark = .ok m) :
    Gains { l with openNodes := rest } (top.node.moved mark) m := by
  rw [leave, hopen] at h
  rw [← OpenNode.close_eq_moved]
  exact place_gains hroot h

/-- A node that was there is another one now.  All others are the same. -/
structure Changes (l : Loader) (node changed : Node) (m : Loader) : Prop where
  bares : ∃ front back, l.bares = front ++ node.bare :: back ∧ m.bares = front ++ changed.bare :: back
  target? : m.target? = some changed
  note? : m.note? = l.note?
  openers : m.openNodes.map OpenNode.opener = l.openNodes.map OpenNode.opener
  root? : m.root?.map Node.start = l.root?.map Node.start

/-- **A note changes the node that it describes**, or fails where that node refuses it. -/
theorem exists_describe_eq {node : Node} (h : l.target? = some node) (note : Note) (added : List Rule) :
    ∃ put : Node → Loader, l.describe note added = (node.annotate note.mark note.text? added).map put ∧
      ∀ changed, node.annotate note.mark note.text? added = .ok changed → l.Changes node changed (put changed) := by
  rw [target?] at h
  split at h
  · next root htarget hroot =>
    obtain rfl := Option.some.inj h
    refine ⟨fun changed => { l with root? := some changed }, ?_, fun changed hchanged => ?_⟩
    · rw [describe, htarget, hroot]
      rfl
    · obtain ⟨-, hchildren⟩ := Node.annotate_bare hchanged
      obtain ⟨-, -, -, hbasis⟩ := Node.header_of_annotate_eq_ok hchanged
      refine ⟨⟨l.openNodes.flatMap fun n => n.node.bares, root.children.flatMap Node.bares, ?_, ?_⟩,
        by rw [target?, htarget], rfl, rfl, ?_⟩
      · simp [bares, hroot, Node.bares_eq root]
      · simp [bares, Node.bares_eq changed, hchildren]
      · rw [hroot]
        simp [Node.start, hbasis]
  · next top rest htarget hopen =>
    obtain rfl := Option.some.inj h
    refine ⟨fun changed => { l with openNodes := { top with header := changed.header } :: rest }, ?_,
      fun changed hchanged => ?_⟩
    · rw [describe, htarget, hopen, OpenNode.annotate_node]
      dsimp only
      cases top.header.annotate note.mark note.text? with
      | error problem => rfl
      | ok noted =>
        rw [Except.ok_bind, Except.ok_bind]
        cases noted.apply none added with
        | error problem => rfl
        | ok header =>
          change Except.ok _ = Except.ok _
          simp only [OpenNode.header_node]
    · obtain ⟨-, hchildren⟩ := Node.annotate_bare hchanged
      obtain ⟨-, -, -, hbasis⟩ := Node.header_of_annotate_eq_ok hchanged
      have hnode : ({ top with header := changed.header } : OpenNode).node = changed := by
        rw [OpenNode.annotate_node] at hchanged
        obtain ⟨header, -, rfl⟩ := Except.map_eq_ok_iff.1 hchanged
        rw [OpenNode.header_node]
      have hopener : ({ top with header := changed.header } : OpenNode).opener = top.opener := by
        rw [OpenNode.opener_eq, hnode, OpenNode.opener_eq, Node.start, hbasis, Node.start]
      refine ⟨⟨[], top.node.children.flatMap Node.bares ++ rest.flatMap (fun n => n.node.bares) ++
        l.root?.toList.flatMap Node.bares, ?_, ?_⟩, by simp [target?, htarget, hnode], rfl,
        by simp [hopen, hopener], rfl⟩
      · simp [bares, hopen, Node.bares_eq top.node]
      · simp [bares, hnode, Node.bares_eq changed, hchildren]
  · next top rest htarget hopen =>
    obtain ⟨front, put, hparts, hput, hspec⟩ := OpenNode.exists_changeLast? h
    refine ⟨fun changed => { l with openNodes := put changed :: rest }, ?_, fun changed hchanged => ?_⟩
    · rw [describe, htarget, hopen]
      dsimp only
      rw [hput]
      cases node.annotate note.mark note.text? added <;> rfl
    · obtain ⟨-, hchildren⟩ := Node.annotate_bare hchanged
      obtain ⟨hbare, hnow⟩ := hspec changed
      have hopener : (put changed).opener = top.opener := by
        rw [OpenNode.opener_eq, ← Node.basis_bare, ← Node.start_bare, hbare, OpenNode.opener_eq, Node.basis_bare,
          Node.start_bare]
      refine ⟨⟨top.node.bare :: front.flatMap Node.bares, node.children.flatMap Node.bares ++
        rest.flatMap (fun n => n.node.bares) ++ l.root?.toList.flatMap Node.bares, ?_, ?_⟩,
        by simp [target?, htarget, hnow], rfl, by simp [hopen, hopener], rfl⟩
      · simp [bares, hopen, Node.bares_eq top.node, hparts, Node.bares_eq node]
      · simp [bares, Node.bares_eq (put changed).node, hbare, hnow, Node.bares_eq changed, hchildren]
  · cases h

end Loader
end ExampleSchema
