import ExampleSchema.Proofs.Containment
import ExampleSchema.Proofs.Satisfiable
import Mathlib.Data.List.Chain

/-!
# Types that lead back to themselves

The registered types are the vertices of a graph.  From a type, an edge goes to each registered type that
its values have to contain, be it by the root of the type or by something that a required property asks for.
The search for endless types shares what it has settled between its starting points, and never goes there
again.  It still misses no cycle of the graph, and what it prints is one.

* `Node.Requires`: the types that a node asks for, by how it is written.
* `Registry.Leads`: the edges of the graph.
* `Registry.IsCycle`: a way round.
* `isCycle_of_followReferences`: the way to a type is a path of the graph, and closes where the search fails.
* `Registry.checkEndless_finds_cycles`: the search fails exactly when there is a cycle, and names one.
-/

namespace ExampleSchema

/-- **A value of a node has to contain a value of a type**: the node is not nullable, and it lists the type itself,
or one of its properties does in turn which is not optional and whose name is not a type. -/
inductive Node.Requires : Node → String → Prop where
  | listed {node : Node} {name : String} (hnull : node.isNullable = false)
      (hname : name ∈ node.rules.typeNames) : Requires node name
  | property {header : Header} {properties : Properties} {p : PropertyKey × Node} {name : String}
      (hnull : (Node.object header properties).isNullable = false) (hp : p ∈ properties)
      (hkey : p.1.isShortcut = false) (hneeded : p.2.isOptional = false) (h : Requires p.2 name) :
      Requires (.object header properties) name

/-- The required parts of an object are the values of its properties that may not be missing. -/
theorem Node.mem_requiredParts_iff {node part : Node} : part ∈ node.requiredParts ↔
    ∃ header properties, node = .object header properties ∧
      ∃ p ∈ properties, p.1.isShortcut = false ∧ p.2.isOptional = false ∧ p.2 = part := by
  cases node with
  | object header properties =>
    simp only [requiredParts, List.mem_map, List.mem_filter, Bool.not_eq_true', Bool.or_eq_false_iff, and_assoc]
    constructor
    · rintro ⟨p, hp, hkey, hneeded, rfl⟩
      exact ⟨header, properties, rfl, p, hp, hkey, hneeded, rfl⟩
    · rintro ⟨_, _, hnode, p, hp, hkey, hneeded, rfl⟩
      obtain ⟨rfl, rfl⟩ := object.inj hnode
      exact ⟨p, hp, hkey, hneeded, rfl⟩
  | literal | array | mixed | reference => simp [requiredParts]

/-- The references that the search follows are those to the required types. -/
theorem Node.mem_strictReferences_iff_requires {node : Node} {name : String} :
    name ∈ node.strictReferences.map Prod.fst ↔ node.Requires name := by
  constructor
  · intro h
    induction node using Node.inductionOn with
    | step node ih =>
      obtain ⟨hnull, hname | ⟨part, hpart, hname⟩⟩ := Registry.mem_strictReferences_iff.1 h
      · exact .listed hnull hname
      · have hrequires := ih part (Registry.mem_children_of_mem_requiredParts hpart) hname
        obtain ⟨header, properties, rfl, p, hp, hkey, hneeded, rfl⟩ := mem_requiredParts_iff.1 hpart
        exact .property hnull hp hkey hneeded hrequires
  · intro h
    induction h with
    | listed hnull hname => exact Registry.mem_strictReferences_iff.2 ⟨hnull, Or.inl hname⟩
    | @property header properties p _ hnull hp hkey hneeded _ ih =>
      have hpart : p.2 ∈ (object header properties).requiredParts :=
        mem_requiredParts_iff.2 ⟨header, properties, rfl, p, hp, hkey, hneeded, rfl⟩
      exact Registry.mem_strictReferences_iff.2 ⟨hnull, Or.inr ⟨p.2, hpart, ih⟩⟩

namespace Registry

/-- An edge of the graph of registered types: the root of the one requires the other. -/
def Leads (types : Registry) (name target : String) : Prop :=
  target ∈ Catalog.keys types ∧ ∃ root, types.root? name = some root ∧ root.Requires target

/-- **A way round**: names that begin and end with the same one and pass no other twice, each leading to the next. -/
def IsCycle (types : Registry) (path : List String) : Prop :=
  ∃ name between, path = name :: (between ++ [name]) ∧ (name :: between).Nodup ∧ path.IsChain types.Leads

variable {types part : Registry} {entered settled : List String} {name target : String}
  {blamed? : Option Mark} {path : List String}

theorem leads_iff : types.Leads name target ↔ target ∈ Catalog.keys types ∧ types.Contains name target := by
  simp only [Leads, Contains, Node.mem_strictReferences_iff_requires]

theorem IsCycle.transGen (h : types.IsCycle path) : ∃ name, Relation.TransGen types.Leads name name := by
  obtain ⟨name, between, rfl, -, hchain⟩ := h
  obtain ⟨next, rest, hrest⟩ := List.exists_cons_of_ne_nil (List.append_ne_nil_of_right_ne_nil between
    (List.cons_ne_nil name []))
  rw [hrest, List.isChain_cons_cons] at hchain
  refine ⟨name, Relation.TransGen.head' hchain.1 ?_⟩
  refine List.relationReflTransGen_of_exists_isChain_cons rest hchain.2 ?_
  simp only [← hrest, List.getLast_append_singleton]

/-! ## The way to a type -/

/-- The way from a type that has been entered back to it is a cycle. -/
theorem isCycle_of_mem_entered (hchain : (entered ++ [name]).IsChain types.Contains) (hnodup : entered.Nodup)
    (hkeys : ∀ other ∈ entered, other ∈ Catalog.keys types) (hname : name ∈ entered) :
    types.IsCycle (entered.dropWhile (· != name) ++ [name]) := by
  obtain ⟨before, after, rfl, hbefore⟩ := List.eq_append_cons_of_mem hname
  have hdrop : (before ++ name :: after).dropWhile (· != name) = name :: after := by
    rw [List.dropWhile_append_of_pos, List.dropWhile_cons_of_neg (by simp)]
    intro other hother
    exact bne_iff_ne.2 fun heq => hbefore (heq ▸ hother)
  rw [hdrop]
  refine ⟨name, after, List.cons_append .., (List.nodup_append.1 hnodup).2.1, ?_⟩
  rw [List.append_assoc] at hchain
  refine hchain.right_of_append.imp_of_mem_imp fun other target _ htarget hcontains => ?_
  refine leads_iff.2 ⟨?_, hcontains⟩
  rcases List.mem_append.1 htarget with htarget | htarget
  · exact hkeys target (List.mem_append_right before htarget)
  · rw [List.mem_singleton.1 htarget]
    exact hkeys name hname

/-- **Where the search fails it has gone round a cycle**: the types on the way to a type are registered, pairwise
different, and each contains the next. -/
theorem isCycle_of_followReferences (hpart : ∀ other ∉ entered, part.root? other = types.root? other)
    (hchain : (entered ++ [name]).IsChain types.Contains) (hnodup : entered.Nodup)
    (hkeys : ∀ other ∈ entered, other ∈ Catalog.keys types) :
    (followReferences part entered settled name blamed?).FailsOnly fun problem =>
      ∃ path, problem.cause = .endlessType path ∧ types.IsCycle path := by
  induction part, entered, settled, name, blamed? using followReferences.induct with
  | case1 part entered settled name blamed? hentered =>
    rw [followReferences, if_pos hentered]
    exact ⟨_, rfl, isCycle_of_mem_entered hchain hnodup hkeys (by simpa using hentered)⟩
  | case2 part entered settled name blamed? hentered hsettled =>
    rw [followReferences_of_settled hentered hsettled]
    trivial
  | case3 part entered settled name blamed? hentered hsettled hroot =>
    rw [followReferences_of_none hentered hsettled hroot]
    trivial
  | case4 part entered settled name blamed? hentered hsettled root hroot ih =>
    rw [followReferences_of_root? hentered hsettled hroot]
    have hname : name ∉ entered := by simpa using hentered
    rw [hpart name hname] at hroot
    refine Except.Meets.bind (Except.FailsOnly.foldlM fun settled reference hreference => ?_) fun _ _ => trivial
    refine ih settled reference.1 reference.2 (fun _ => root?_without_of_notMem hpart) ?_ ?_ ?_
    · rw [List.append_assoc, List.singleton_append, List.isChain_append_cons_cons]
      exact ⟨hchain, ⟨root, hroot, List.mem_map_of_mem hreference⟩, .singleton _⟩
    · rw [← List.concat_eq_append]
      exact hnodup.concat hname
    · intro other hother
      rcases List.mem_append.1 hother with hother | hother
      · exact hkeys other hother
      · rw [List.mem_singleton.1 hother]
        exact mem_keys_of_root?_eq_some hroot

/-! ## The search from all types -/

/-- An endless type is reported by a cycle. -/
theorem isCycle_of_checkEndless (types : Registry) : types.checkEndless.FailsOnly fun problem =>
    ∃ path, problem.cause = .endlessType path ∧ types.IsCycle path :=
  Except.Meets.bind (Except.FailsOnly.foldlM fun _ name _ => isCycle_of_followReferences (fun _ _ => rfl)
    (.singleton name) List.nodup_nil (List.forall_mem_nil _)) fun _ _ => trivial

/-- A registry with a cycle is refused. -/
theorem checkEndless_ne_ok (h : Relation.TransGen types.Leads name name) : types.checkEndless ≠ .ok () := by
  intro hok
  refine (types.checkEndless_eq_ok_iff.1 hok name).not_transGen ?_
  exact Relation.TransGen.mono (fun _ _ hleads => (leads_iff.1 hleads).2) name name h

/-- **The search for endless types fails exactly when some registered type leads back to itself.**  Its error then
has its own code, and its message is a cycle. -/
theorem checkEndless_finds_cycles (types : Registry) :
    ((∃ problem, types.checkEndless = .error problem ∧ problem.code = .infiniteRecursion) ↔
      ∃ name, Relation.TransGen types.Leads name name) ∧
    ∀ problem, types.checkEndless = .error problem → problem.code = .infiniteRecursion ∧
      ∃ path, types.IsCycle path ∧ problem.message = "infinite recursion: " ++ " -> ".intercalate path := by
  have hreport : ∀ problem, types.checkEndless = .error problem → problem.code = .infiniteRecursion ∧
      ∃ path, types.IsCycle path ∧ problem.message = "infinite recursion: " ++ " -> ".intercalate path := by
    intro problem hproblem
    obtain ⟨path, hcause, hcycle⟩ := types.isCycle_of_checkEndless.of_error hproblem
    refine ⟨by rw [Problem.code, hcause]; rfl, path, hcycle, ?_⟩
    rw [Problem.message, hcause]
    rfl
  refine ⟨⟨?_, ?_⟩, hreport⟩
  · rintro ⟨problem, hproblem, -⟩
    obtain ⟨-, path, hcycle, -⟩ := hreport problem hproblem
    exact hcycle.transGen
  · rintro ⟨name, hname⟩
    cases hsearch : types.checkEndless with
    | ok u => exact (checkEndless_ne_ok hname hsearch).elim
    | error problem => exact ⟨problem, rfl, (hreport problem hsearch).1⟩

end Registry
end ExampleSchema
