import ExampleSchema.Proofs.Expansion.Inherit
import ExampleSchema.Proofs.Tree
import ExampleSchema.Schema.Compile
import ExampleSchema.Schema.Load
import Mathlib.Data.List.Nodup
import Mathlib.Data.List.Perm.Subperm
import Mathlib.Logic.Function.Iterate
import Mathlib.Logic.Relation

/-!
# Where inheriting never ends

A schema is expanded by a walk down its trees: a node inherits, and then the walk goes on with each of
its children, those that it has just taken over included.  A type whose root holds an object that takes
over the properties of that very type makes the walk come back to the same object further and further
down.

`Node.expand` cuts a walk off after a number of levels.  What is shown here is that the number that
`Schema.expand` allows cuts off the endless walks only:

* `Node.LeadsTo`: the walk comes from a node to a child, all children before it having ended well.
* `Schema.ComesBack`: the walk comes to some node a second time, below itself.
* `Node.exists_path_of_isCutOff`, `Node.isCutOff_of_endless`: what is cut off has gone all its levels
  down, and an endless walk is always cut off.
* `Schema.expand_endless_iff`: an expansion goes down forever exactly when it comes back, which is
  exactly when it is cut off, and otherwise it ends, well or with one of four problems.

All nodes that a walk comes to are nodes of the schema as it was before, so a walk that goes down far
enough has come to some node twice.
-/

namespace ExampleSchema

/-- The outcome is that of a walk that was cut off. -/
def Outcome.IsCutOff {α : Type} (o : Outcome α) : Prop :=
  ∃ mark, o = .error ((Cause.fault .endlessExpansion).on mark)

/-- No problem of inheriting is that of a walk that was cut off. -/
theorem Problem.IsOfInheritance.ne_cutOff {p : Problem} (h : p.IsOfInheritance) (mark : Mark) :
    p ≠ (Cause.fault .endlessExpansion).on mark := by
  rintro rfl
  simp [IsOfInheritance, Problem.code, Cause.on, Cause.code, ErrorCode.ofInheritance] at h

namespace Node

/-- The walk from a node ends well, if it may go down far enough. -/
def Expands (types : Registry) (node : Node) : Prop :=
  ∃ levels whole, node.expand types levels = .ok whole

/-- The walk from a node comes to a child of what it becomes, once those before the child have ended
well. -/
def LeadsTo (types : Registry) (node child : Node) : Prop :=
  ∃ whole before after, node.inherit types = .ok whole ∧
    whole.children = before ++ child :: after ∧ ∀ c ∈ before, c.Expands types

/-! ## One level of a walk -/

/-- The node with other children, one for each that it has. -/
def withChildren (node : Node) (children : List Node) : Node :=
  match node with
  | object header properties =>
    object header (properties.zipWith (fun p child => (p.1, child)) children)
  | array header _ => array header children
  | node => node

/-- One level of a walk: the node inherits, and its children are walked. -/
theorem expand_succ (types : Registry) (levels : Nat) (node : Node) :
    node.expand types (levels + 1) = (do
      let whole ← node.inherit types
      let children ← whole.children.mapM (Node.expand types levels)
      return whole.withChildren children) := by
  rw [expand]
  refine congrArg _ (funext fun whole => ?_)
  cases whole with
  | object header properties =>
    have hparts := Except.mapM_update_eq Prod.snd (fun p child => (p.1, child))
      (Node.expand types levels) properties
    simp only [hparts, children]
    cases (properties.map Prod.snd).mapM (Node.expand types levels) <;> rfl
  | array header items => rfl
  | literal | mixed | reference => rfl

/-- A walk fails where its node fails to inherit, or where its first failing child does. -/
theorem expand_succ_eq_error_iff {types : Registry} {levels : Nat} {node : Node} {p : Problem} :
    node.expand types (levels + 1) = .error p ↔ node.inherit types = .error p ∨
      ∃ whole before child after, node.inherit types = .ok whole ∧
        whole.children = before ++ child :: after ∧
        (∀ c ∈ before, ∃ e, c.expand types levels = .ok e) ∧
        child.expand types levels = .error p := by
  rw [expand_succ, Except.bind_eq_error_iff]
  refine or_congr_right (exists_congr fun whole => ?_)
  rw [Except.bind_eq_error_iff, Except.mapM_eq_error_iff]
  simp [pure, Except.pure]

/-- A walk ends well where its node inherits and the walks from all children end well. -/
theorem exists_expand_succ_eq_ok_iff {types : Registry} {levels : Nat} {node : Node} :
    (∃ e, node.expand types (levels + 1) = .ok e) ↔ ∃ whole, node.inherit types = .ok whole ∧
      ∀ c ∈ whole.children, ∃ e, c.expand types levels = .ok e := by
  simp only [expand_succ, Except.bind_eq_ok_iff, ← Except.exists_mapM_eq_ok_iff]
  constructor
  · rintro ⟨_, whole, hwhole, children, hchildren, -⟩
    exact ⟨whole, hwhole, children, hchildren⟩
  · rintro ⟨whole, hwhole, children, hchildren⟩
    exact ⟨_, whole, hwhole, children, hchildren, rfl⟩

/-- The outcome of a walk of no levels is that of one that was cut off. -/
theorem isCutOff_expand_zero (types : Registry) (node : Node) :
    (node.expand types 0).IsCutOff := ⟨node.basis, by rw [expand]⟩

/-- What a walk fails with is a problem of inheriting, unless it was cut off. -/
theorem isOfInheritance_of_expand_eq_error {types : Registry} {levels : Nat} {node : Node}
    {p : Problem} (h : node.expand types levels = .error p) :
    p.IsOfInheritance ∨ (node.expand types levels).IsCutOff := by
  induction levels generalizing node with
  | zero => exact Or.inr (isCutOff_expand_zero types node)
  | succ levels ih =>
    rcases expand_succ_eq_error_iff.1 h with hinherit | ⟨_, _, child, _, _, _, _, hchild⟩
    · exact Or.inl ((inherit_meets types node).of_error hinherit)
    · refine (ih hchild).imp_right ?_
      rintro ⟨mark, hmark⟩
      rw [hchild] at hmark
      exact ⟨mark, h.trans hmark⟩

/-! ## More levels -/

/-- More levels change nothing about a walk that ended well. -/
theorem exists_expand_eq_ok_of_le {types : Registry} {levels more : Nat} (hle : levels ≤ more)
    {node : Node} (h : ∃ e, node.expand types levels = .ok e) :
    ∃ e, node.expand types more = .ok e := by
  induction levels generalizing node more with
  | zero => obtain ⟨e, he⟩ := h; cases he
  | succ levels ih =>
    obtain ⟨more, rfl⟩ := Nat.exists_eq_add_of_le' (Nat.lt_of_lt_of_le (Nat.succ_pos _) hle)
    obtain ⟨whole, hwhole, hchildren⟩ := exists_expand_succ_eq_ok_iff.1 h
    refine exists_expand_succ_eq_ok_iff.2 ⟨whole, hwhole, fun c hc => ?_⟩
    exact ih (Nat.le_of_succ_le_succ hle) (hchildren c hc)

/-- More levels change nothing about a walk that failed to inherit. -/
theorem expand_eq_error_of_le {types : Registry} {levels more : Nat} (hle : levels ≤ more)
    {node : Node} {p : Problem} (hp : p.IsOfInheritance)
    (h : node.expand types levels = .error p) : node.expand types more = .error p := by
  induction levels generalizing node more with
  | zero => exact (hp.ne_cutOff node.basis (Except.error.inj h).symm).elim
  | succ levels ih =>
    obtain ⟨more, rfl⟩ := Nat.exists_eq_add_of_le' (Nat.lt_of_lt_of_le (Nat.succ_pos _) hle)
    have hle := Nat.le_of_succ_le_succ hle
    rcases expand_succ_eq_error_iff.1 h with
      hinherit | ⟨whole, before, child, after, hwhole, hsplit, hbefore, hchild⟩
    · exact expand_succ_eq_error_iff.2 (Or.inl hinherit)
    · refine expand_succ_eq_error_iff.2
        (Or.inr ⟨whole, before, child, after, hwhole, hsplit, fun c hc => ?_, ih hle hchild⟩)
      exact exists_expand_eq_ok_of_le hle (hbefore c hc)

/-- A walk that ends well may still be cut off, but never fails otherwise. -/
theorem Expands.eq_ok_or_isCutOff {types : Registry} {node : Node} (h : node.Expands types)
    (levels : Nat) :
    (∃ e, node.expand types levels = .ok e) ∨ (node.expand types levels).IsCutOff := by
  obtain ⟨enough, h⟩ := h
  cases hlevels : node.expand types levels with
  | ok e => exact Or.inl ⟨e, rfl⟩
  | error p =>
    rw [← hlevels]
    refine Or.inr ((isOfInheritance_of_expand_eq_error hlevels).resolve_left fun hp => ?_)
    obtain ⟨e, he⟩ := exists_expand_eq_ok_of_le (Nat.le_max_left enough levels) h
    have hfail := expand_eq_error_of_le (Nat.le_max_right enough levels) hp hlevels
    rw [he] at hfail
    cases hfail

/-! ## Endless walks are cut off -/

/-- Where a walk among several is cut off and those before it end well, some walk is the first to fail,
and it is cut off. -/
theorem exists_first_isCutOff {types : Registry} {levels : Nat} {before : List Node} {child : Node}
    (hbefore : ∀ c ∈ before, c.Expands types) (hchild : (child.expand types levels).IsCutOff)
    (after : List Node) :
    ∃ mark first c rest, before ++ child :: after = first ++ c :: rest ∧
      (∀ b ∈ first, ∃ e, b.expand types levels = .ok e) ∧
      c.expand types levels = .error ((Cause.fault .endlessExpansion).on mark) := by
  cases hmap : before.mapM (Node.expand types levels) with
  | ok es =>
    obtain ⟨mark, hmark⟩ := hchild
    exact ⟨mark, before, child, after, rfl, Except.exists_mapM_eq_ok_iff.1 ⟨es, hmap⟩, hmark⟩
  | error p =>
    -- A walk before may be cut off too, as it ends well only if it may go down far enough.
    obtain ⟨first, c, rest, rfl, hfirst, hc⟩ := Except.mapM_eq_error_iff.1 hmap
    rcases (hbefore c (by simp)).eq_ok_or_isCutOff levels with ⟨e, he⟩ | ⟨mark, hmark⟩
    · rw [hc] at he
      cases he
    · refine ⟨mark, first, c, rest ++ child :: after, ?_, hfirst, hmark⟩
      rw [List.append_assoc, List.cons_append]

/-- If the walk from a child is cut off, so is the walk that comes to it. -/
theorem LeadsTo.isCutOff {types : Registry} {node child : Node} (h : node.LeadsTo types child)
    {levels : Nat} (hchild : (child.expand types levels).IsCutOff) :
    (node.expand types (levels + 1)).IsCutOff := by
  obtain ⟨whole, before, after, hwhole, hsplit, hbefore⟩ := h
  obtain ⟨mark, first, c, rest, hsplit', hfirst, hc⟩ :=
    exists_first_isCutOff hbefore hchild after
  exact ⟨mark, expand_succ_eq_error_iff.2
    (Or.inr ⟨whole, first, c, rest, hwhole, hsplit.trans hsplit', hfirst, hc⟩)⟩

/-- If a walk is cut off whatever the number of levels, so is every walk that comes to it. -/
theorem isCutOff_of_reflTransGen {types : Registry} {root node : Node}
    (hreach : Relation.ReflTransGen (LeadsTo types) root node)
    (hnode : ∀ levels, (node.expand types levels).IsCutOff) (levels : Nat) :
    (root.expand types levels).IsCutOff := by
  induction hreach using Relation.ReflTransGen.head_induction_on generalizing levels with
  | refl => exact hnode levels
  | head hstep _ ih =>
    cases levels with
    | zero => exact isCutOff_expand_zero types _
    | succ levels => exact hstep.isCutOff (ih levels)

/-- **An endless walk is cut off**, whatever the number of levels. -/
theorem isCutOff_of_endless {types : Registry} {walk : Nat → Node}
    (h : ∀ n, (walk n).LeadsTo types (walk (n + 1))) (levels : Nat) :
    ((walk 0).expand types levels).IsCutOff := by
  induction levels generalizing walk with
  | zero => exact isCutOff_expand_zero types (walk 0)
  | succ levels ih => exact (h 0).isCutOff (@ih (fun n => walk (n + 1)) fun n => h (n + 1))

/-! ## What is cut off has gone all its levels down -/

/-- **A walk that was cut off has gone all its levels down.** -/
theorem exists_path_of_isCutOff {types : Registry} {levels : Nat} {node : Node}
    (h : (node.expand types levels).IsCutOff) :
    ∃ path : List Node, path.length = levels ∧ (node :: path).IsChain (LeadsTo types) := by
  induction levels generalizing node with
  | zero => exact ⟨[], rfl, List.IsChain.singleton node⟩
  | succ levels ih =>
    obtain ⟨mark, hmark⟩ := h
    rcases expand_succ_eq_error_iff.1 hmark with
      hinherit | ⟨whole, before, child, after, hwhole, hsplit, hbefore, hchild⟩
    · exact (((inherit_meets types node).of_error hinherit).ne_cutOff mark rfl).elim
    · obtain ⟨path, hlength, hpath⟩ := ih ⟨mark, hchild⟩
      refine ⟨child :: path, by rw [List.length_cons, hlength], ?_⟩
      refine List.isChain_cons_cons.2 ⟨⟨whole, before, after, hwhole, hsplit, ?_⟩, hpath⟩
      exact fun c hc => ⟨levels, hbefore c hc⟩

/-- A walk that comes back to a node goes on forever. -/
theorem exists_endless_of_comesBack {types : Registry} {root node : Node}
    (hroot : Relation.ReflTransGen (LeadsTo types) root node)
    (hback : Relation.TransGen (LeadsTo types) node node) :
    ∃ walk : Nat → Node, walk 0 = root ∧ ∀ n, (walk n).LeadsTo types (walk (n + 1)) := by
  -- From every node on the way to the returning node there is a next one on the way to it.
  have hnext : ∀ a : {a // Relation.ReflTransGen (LeadsTo types) a node},
      ∃ b : {b // Relation.ReflTransGen (LeadsTo types) b node}, a.1.LeadsTo types b.1 := by
    rintro ⟨a, ha⟩
    rcases Relation.ReflTransGen.cases_head ha with rfl | ⟨b, hab, hb⟩
    · obtain ⟨b, hab, hb⟩ := Relation.TransGen.head'_iff.1 hback
      exact ⟨⟨b, hb⟩, hab⟩
    · exact ⟨⟨b, hb⟩, hab⟩
  choose next hnext using hnext
  refine ⟨fun n => (next^[n] ⟨root, hroot⟩).1, rfl, fun n => ?_⟩
  have h := hnext (next^[n] ⟨root, hroot⟩)
  rwa [← Function.iterate_succ_apply' next] at h

end Node

/-! ## Schemas -/

namespace Schema

/-- The trees of a schema: its own, and those of its types. -/
def roots (schema : Schema) : List Node := schema.root :: schema.types.map fun e => e.2.root

/-- The nodes of all trees. -/
def nodes (schema : Schema) : List Node := schema.roots.flatMap Node.subnodes

theorem length_nodes (schema : Schema) : schema.nodes.length = schema.nodeCount := by
  rw [nodes, roots, nodeCount, List.flatMap_cons, List.flatMap_map]

/-- The expansion of a schema comes to a node: the trees before have ended well, and the walk down the
tree leads to the node. -/
def ComesTo (schema : Schema) (node : Node) : Prop :=
  ∃ before root after, schema.roots = before ++ root :: after ∧
    (∀ r ∈ before, r.Expands schema.types) ∧
    Relation.ReflTransGen (Node.LeadsTo schema.types) root node

/-- The expansion of a schema comes to a node, and then to the same node below itself. -/
def ComesBack (schema : Schema) : Prop :=
  ∃ node, schema.ComesTo node ∧ Relation.TransGen (Node.LeadsTo schema.types) node node

/-- The schema with other trees, one for each that it has. -/
def withRoots (schema : Schema) (roots : List Node) : Schema :=
  { root := roots.headD schema.root
    types := schema.types.zipWith (fun e root => (e.1, { e.2 with root })) roots.tail }

/-- Changing the trees of a schema is changing its own and then those of the types. -/
theorem mapRoots_eq (schema : Schema) (change : Node → Outcome Node) :
    schema.mapRoots change = (do return schema.withRoots (← schema.roots.mapM change)) := by
  have htypes := Except.mapM_update_eq (fun e : String × TypeEntry => e.2.root)
    (fun e root => (e.1, { e.2 with root })) change schema.types
  simp only [mapRoots, TypeEntry.mapRoot, bind_assoc, pure_bind, htypes, roots, List.mapM_cons]
  rfl

/-- Changing the trees of a schema fails at the first tree that fails to change. -/
theorem mapRoots_eq_error_iff {schema : Schema} {change : Node → Outcome Node} {p : Problem} :
    schema.mapRoots change = .error p ↔ ∃ before root after,
      schema.roots = before ++ root :: after ∧ (∀ r ∈ before, ∃ e, change r = .ok e) ∧
      change root = .error p := by
  rw [mapRoots_eq, Except.bind_eq_error_iff, Except.mapM_eq_error_iff]
  simp [pure, Except.pure]

/-- A child of a node of a schema is one too. -/
theorem mem_nodes_of_mem_children {schema : Schema} {node child : Node} (hnode : node ∈ schema.nodes)
    (h : child ∈ node.children) : child ∈ schema.nodes := by
  obtain ⟨root, hroot, hnode⟩ := List.mem_flatMap.1 hnode
  exact List.mem_flatMap.2
    ⟨root, hroot, Node.mem_subnodes_trans hnode (Node.mem_subnodes_of_mem_children h)⟩

theorem mem_nodes_of_mem_roots {schema : Schema} {root : Node} (h : root ∈ schema.roots) :
    root ∈ schema.nodes := List.mem_flatMap.2 ⟨root, h, root.mem_subnodes_self⟩

theorem mem_roots_of_mem_types {schema : Schema} {e : String × TypeEntry} (h : e ∈ schema.types) :
    e.2.root ∈ schema.roots := List.mem_cons_of_mem _ (List.mem_map_of_mem h)

/-- The root of a type is a node of the schema. -/
theorem mem_nodes_of_root?_eq_some {schema : Schema} {name : String} {root : Node}
    (h : schema.types.root? name = some root) : root ∈ schema.nodes := by
  obtain ⟨e, he, rfl⟩ := Registry.exists_mem_of_root?_eq_some h
  exact mem_nodes_of_mem_roots (mem_roots_of_mem_types he)

/-- What a node of a schema leads to is a node of the schema. -/
theorem mem_nodes_of_leadsTo {schema : Schema} {node child : Node} (hnode : node ∈ schema.nodes)
    (h : node.LeadsTo schema.types child) : child ∈ schema.nodes := by
  obtain ⟨whole, before, after, hwhole, hsplit, -⟩ := h
  have hchild : child ∈ whole.children := by simp [hsplit]
  rcases (Node.inherit_meets schema.types node).of_ok hwhole child hchild with h | ⟨e, he, h⟩
  · exact mem_nodes_of_mem_children hnode h
  · exact mem_nodes_of_mem_children (mem_nodes_of_mem_roots (mem_roots_of_mem_types he)) h

theorem mem_nodes_of_reflTransGen {schema : Schema} {root node : Node} (hroot : root ∈ schema.nodes)
    (h : Relation.ReflTransGen (Node.LeadsTo schema.types) root node) : node ∈ schema.nodes := by
  induction h with
  | refl => exact hroot
  | tail _ hstep ih => exact mem_nodes_of_leadsTo ih hstep

/-- **A walk that is cut off comes back**: it has passed more nodes than the schema has. -/
theorem comesBack_of_isCutOff {schema : Schema} {root : Node} (hroot : root ∈ schema.nodes)
    (h : (root.expand schema.types (schema.nodeCount + 1)).IsCutOff) :
    ∃ node, Relation.ReflTransGen (Node.LeadsTo schema.types) root node ∧
      Relation.TransGen (Node.LeadsTo schema.types) node node := by
  obtain ⟨path, hlength, hpath⟩ := Node.exists_path_of_isCutOff h
  have hpairs : (root :: path).Pairwise (Relation.TransGen (Node.LeadsTo schema.types)) :=
    (hpath.imp fun _ _ => Relation.TransGen.single).pairwise
  have hreach : ∀ node ∈ root :: path,
      Relation.ReflTransGen (Node.LeadsTo schema.types) root node := by
    intro node hnode
    rcases List.mem_cons.1 hnode with rfl | hnode
    · exact .refl
    · exact ((List.pairwise_cons.1 hpairs).1 node hnode).to_reflTransGen
  have hmem : root :: path ⊆ schema.nodes := fun node hnode =>
    mem_nodes_of_reflTransGen hroot (hreach node hnode)
  have hdup : ¬ (root :: path).Nodup := by
    intro hnodup
    have hle := (List.subperm_of_subset hnodup hmem).length_le
    rw [List.length_cons, hlength, length_nodes] at hle
    omega
  rw [List.nodup_iff_sublist] at hdup
  push Not at hdup
  obtain ⟨node, hsub⟩ := hdup
  have htwice := hpairs.sublist hsub
  exact ⟨node, hreach node (hsub.subset (by simp)), by simpa using htwice⟩

/-- An expansion that comes to a walk that is always cut off is cut off. -/
theorem ComesTo.isCutOff {schema : Schema} {node : Node} (h : schema.ComesTo node)
    (hnode : ∀ levels, (node.expand schema.types levels).IsCutOff) : schema.expand.IsCutOff := by
  obtain ⟨before, root, after, hsplit, hbefore, hreach⟩ := h
  obtain ⟨mark, first, c, rest, hsplit', hfirst, hc⟩ :=
    Node.exists_first_isCutOff hbefore
      (Node.isCutOff_of_reflTransGen hreach hnode (schema.nodeCount + 1)) after
  exact ⟨mark, mapRoots_eq_error_iff.2 ⟨first, c, rest, hsplit.trans hsplit', hfirst, hc⟩⟩

/-- An expansion that is cut off comes back to a node. -/
theorem comesBack_of_isCutOff_expand {schema : Schema} (h : schema.expand.IsCutOff) :
    schema.ComesBack := by
  obtain ⟨mark, hmark⟩ := h
  obtain ⟨before, root, after, hsplit, hbefore, hroot⟩ := mapRoots_eq_error_iff.1 hmark
  have hmem : root ∈ schema.roots := by simp [hsplit]
  obtain ⟨node, hreach, hback⟩ := comesBack_of_isCutOff (mem_nodes_of_mem_roots hmem) ⟨mark, hroot⟩
  exact ⟨node, ⟨before, root, after, hsplit, fun r hr => ⟨_, hbefore r hr⟩, hreach⟩, hback⟩

/-- An expansion goes down forever. -/
def IsEndless (schema : Schema) : Prop :=
  ∃ walk : Nat → Node, schema.ComesTo (walk 0) ∧
    ∀ n, (walk n).LeadsTo schema.types (walk (n + 1))

theorem ComesBack.isEndless {schema : Schema} (h : schema.ComesBack) : schema.IsEndless := by
  obtain ⟨node, hnode, hback⟩ := h
  obtain ⟨walk, rfl, hwalk⟩ := Node.exists_endless_of_comesBack .refl hback
  exact ⟨walk, hnode, hwalk⟩

theorem IsEndless.isCutOff {schema : Schema} (h : schema.IsEndless) : schema.expand.IsCutOff := by
  obtain ⟨walk, hstart, hwalk⟩ := h
  exact hstart.isCutOff (Node.isCutOff_of_endless hwalk)

/-- An expansion that is not cut off ends well or with a problem of inheriting. -/
theorem expand_ends_of_not_isCutOff {schema : Schema} (h : ¬ schema.expand.IsCutOff) :
    (∃ whole, schema.expand = .ok whole) ∨ ∃ p, schema.expand = .error p ∧ p.IsOfInheritance := by
  cases hexpand : schema.expand with
  | ok whole => exact Or.inl ⟨whole, rfl⟩
  | error p =>
    obtain ⟨before, root, after, -, -, hroot⟩ := mapRoots_eq_error_iff.1 hexpand
    refine Or.inr ⟨p, rfl, (Node.isOfInheritance_of_expand_eq_error hroot).resolve_right ?_⟩
    rintro ⟨mark, hmark⟩
    rw [hroot] at hmark
    exact h ⟨mark, hexpand.trans (congrArg _ (Except.error.inj hmark))⟩

/-- **Where inheriting never ends.**  An expansion goes down forever exactly when it comes to some node
again below that node, and then it is cut off.  Every other expansion ends, well or with one of the four
problems of inheriting. -/
theorem expand_endless_iff (schema : Schema) :
    (schema.IsEndless ↔ schema.ComesBack) ∧
    (schema.IsEndless ↔ schema.expand.IsCutOff) ∧
    (schema.IsEndless ∨ (∃ whole, schema.expand = .ok whole) ∨
      ∃ p, schema.expand = .error p ∧
        p.code ∈ [.typeNotFound, .allOfNotObject, .allOfDuplicateKey, .infiniteRecursion]) := by
  have hcut : schema.IsEndless ↔ schema.expand.IsCutOff :=
    ⟨IsEndless.isCutOff, fun h => (comesBack_of_isCutOff_expand h).isEndless⟩
  refine ⟨⟨fun h => comesBack_of_isCutOff_expand h.isCutOff, ComesBack.isEndless⟩, hcut, ?_⟩
  by_cases h : schema.expand.IsCutOff
  · exact Or.inl (hcut.2 h)
  · exact Or.inr (expand_ends_of_not_isCutOff h)

/-! ## An object inside the type that it takes over -/

/-- A type with one property, an object that takes over the properties of the type. -/
def nestingType : Source := .ofString "@A" "\x7b\"x\": \x7b\x7d // \x7ballOf: \"@A\"\x7d\n\x7d"

/-- A document that takes over the properties of that type. -/
def nestingDocument : Source := .ofString "root" "\x7b\x7d // \x7ballOf: \"@A\"\x7d"

/-- The schema of the document, with the type in its registry. -/
def nesting : Outcome Schema := do
  let type ← Schema.load nestingType "@A"
  let schema ← Schema.load nestingDocument "root"
  return schema.register [("@A", ⟨type, nestingType⟩)]

/-- What the expansion of that schema fails with. -/
def nestingCode? : Option ErrorCode :=
  match nesting with
  | .ok schema =>
    match schema.expand with
    | .ok _ => none
    | .error p => some p.code
  | .error _ => none

theorem nesting_isCutOff : ∃ schema, nesting = .ok schema ∧ schema.expand.IsCutOff := by
  have h : nestingCode? = some .internal := by decide +kernel
  unfold nestingCode? at h
  split at h
  · next schema hschema =>
    refine ⟨schema, hschema, by_contra fun hcut => ?_⟩
    rcases expand_ends_of_not_isCutOff hcut with ⟨whole, hwhole⟩ | ⟨p, hp, hcode⟩
    · rw [hwhole] at h
      cases h
    · rw [hp] at h
      rw [Problem.IsOfInheritance, Option.some.inj h] at hcode
      simp [ErrorCode.ofInheritance] at hcode
  · cases h

/-- A schema that the loader produces need not have an end of its expansion. -/
theorem nesting_isEndless : ∃ schema, nesting = .ok schema ∧ schema.IsEndless ∧
    ¬ ((∃ whole, schema.expand = .ok whole) ∨ ∃ p, schema.expand = .error p ∧
      p.code ∈ [.typeNotFound, .allOfNotObject, .allOfDuplicateKey, .infiniteRecursion]) := by
  obtain ⟨schema, hschema, hcut⟩ := nesting_isCutOff
  refine ⟨schema, hschema, (comesBack_of_isCutOff_expand hcut).isEndless, ?_⟩
  obtain ⟨mark, hmark⟩ := hcut
  rintro (⟨whole, hwhole⟩ | ⟨p, hp, hcode⟩)
  · rw [hmark] at hwhole
    cases hwhole
  · rw [hmark] at hp
    exact Problem.IsOfInheritance.ne_cutOff hcode mark (Except.error.inj hp).symm

end Schema
end ExampleSchema
