import ExampleSchema.Proofs.Accept.Data
import ExampleSchema.Proofs.Check
import ExampleSchema.Proofs.Json.Writing
import ExampleSchema.Proofs.Load.Layout

/-!
# The example that a tree is written as

A schema is written as an example of its values: a tree has samples for its literals, in its objects and
arrays.  The check of a schema looks at the example piece by piece, at each literal by itself and at the
number of the items of each array.  Validation goes down the whole value, and counts the levels on the way.
Both come to the same where nodes describe values themselves, but for mixed nodes, which are unions.

* `Node.datum?`: the example that a tree is written as.
* `Node.describesLiteral_of_checkSample`, `Node.accept_of_checkSample`, `Node.allowsCount_of_checkItems`: what
  the checks say of the pieces.
* `Node.IsSampled`: a node has its piece of the example, and describes values of that kind itself or, if it
  is mixed, as a union.
* `Registry.accept_datum`: a tree of such nodes that pass their checks accepts its example.
* `Node.exists_datum?`: such a tree has an example, and some text writes it.
-/

namespace ExampleSchema

open Scan (maxDepth)

/-! ## The example of a tree -/

namespace Node

mutual

/-- The value that a tree is written as: its samples, in its objects and arrays. -/
def datum? : Node → Option Datum
  | literal _ sample? | mixed _ sample? => sample?.map fun sample => .literal sample.bytes
  | object _ properties => (membersOf? properties).map .object
  | array _ items => (itemsOf? items).map .array
  | reference _ _ => none

/-- The members that properties are written as. -/
def membersOf? : List (PropertyKey × Node) → Option (List (String × Datum))
  | [] => some []
  | (key, node) :: rest => do return (key.name, ← node.datum?) :: (← membersOf? rest)

/-- The items that nodes are written as. -/
def itemsOf? : List Node → Option (List Datum)
  | [] => some []
  | node :: rest => do return (← node.datum?) :: (← itemsOf? rest)

end

/-- A member is that of a property. -/
def IsMemberOf (p : PropertyKey × Node) (member : String × Datum) : Prop :=
  member.1 = p.1.name ∧ p.2.datum? = some member.2

theorem membersOf?_eq_some_iff {properties : Properties} {members : List (String × Datum)} :
    membersOf? properties = some members ↔ List.Forall₂ IsMemberOf properties members := by
  induction properties generalizing members with
  | nil => simp [membersOf?, eq_comm]
  | cons p rest ih =>
    obtain ⟨key, node⟩ := p
    simp only [membersOf?, Option.bind_eq_bind, Option.bind_eq_some_iff, Option.pure_def, Option.some.injEq,
      ih, List.forall₂_cons_left_iff, IsMemberOf]
    constructor
    · rintro ⟨d, hd, others, hothers, rfl⟩
      exact ⟨(key.name, d), others, ⟨rfl, hd⟩, hothers, rfl⟩
    · rintro ⟨⟨name, d⟩, others, ⟨rfl, hd⟩, hothers, rfl⟩
      exact ⟨d, hd, others, hothers, rfl⟩

theorem itemsOf?_eq_some_iff {items : List Node} {data : List Datum} :
    itemsOf? items = some data ↔ List.Forall₂ (fun item d => item.datum? = some d) items data := by
  induction items generalizing data with
  | nil => simp [itemsOf?, eq_comm]
  | cons item rest ih =>
    simp only [itemsOf?, Option.bind_eq_bind, Option.bind_eq_some_iff, Option.pure_def, Option.some.injEq, ih,
      List.forall₂_cons_left_iff]
    constructor
    · rintro ⟨d, hd, others, hothers, rfl⟩
      exact ⟨d, others, hd, hothers, rfl⟩
    · rintro ⟨d, others, hd, hothers, rfl⟩
      exact ⟨d, hd, others, hothers, rfl⟩

/-! ## The checks of samples -/

variable {types : Registry} {header : Header} {sample : Mark}

/-- The sample of a literal is `null`, where that is accepted anyway, or as the node describes it. -/
theorem describesLiteral_of_checkSample
    (h : (literal header (some sample)).checkSample types sample = .ok ()) :
    (literal header (some sample)).AcceptsAnyway (.literal sample) ∨
      (literal header (some sample)).DescribesLiteral sample := by
  rcases checkSample_eq_ok_iff.1 h with hnull | ⟨-, hkept⟩
  · exact Or.inl (Or.inl ⟨beq_iff_eq.2 hnull.1, hnull.2⟩)
  · exact Or.inr hkept

/-- The sample of a mixed node is validated. -/
theorem accept_of_checkSample (h : (mixed header (some sample)).checkSample types sample = .ok ()) :
    types.accept (acceptLimit + 1) (mixed header (some sample)) (.literal sample) = .ok () := by
  rcases checkSample_eq_ok_iff.1 h with hnull | ⟨-, hkept⟩
  · exact accept_succ_of_acceptsAnyway _ (Or.inl ⟨beq_iff_eq.2 hnull.1, hnull.2⟩)
  · exact hkept

/-- The number of sample items is allowed, unless others describe the items. -/
theorem allowsCount_of_checkItems {node : Node} {items : List Node} (h : node.checkItems items = .ok ())
    (hown : node.describesNoItems items = false) : node.header.AllowsCount items.length := by
  rcases (checkItems_eq_ok_iff.1 h).2 with hothers | hcount
  · exact absurd hown (by simp [hothers])
  · exact hcount

/-- A node has its part of the example of a tree, and describes values of that kind itself or, if it is mixed,
as a union. -/
inductive IsSampled (types : Registry) : Node → Prop
  | literal {header : Header} {sample : Mark} (hnames : header.rules.typeNames = []) :
    IsSampled types (.literal header (some sample))
  | mixed {header : Header} {sample : Mark}
      (hrefers : types.RefersWithin maxDepth (.mixed header (some sample))) :
    IsSampled types (.mixed header (some sample))
  | object {header : Header} {properties : Properties} (hnames : header.rules.typeNames = [])
      (hkeys : ∀ p ∈ properties, p.1.isShortcut = false) :
    IsSampled types (.object header properties)
  | array {header : Header} {items : List Node} (hnames : header.rules.typeNames = []) :
    IsSampled types (.array header items)

end Node

/-! ## Accepting the example -/

section

variable {types : Registry} {visit : Node → Value → Outcome Unit} {header : Header} {mark : Mark}

/-- What stands on the right of a list of pairs stands beside something on the left. -/
theorem exists_mem_of_forall₂ {α β : Type} {R : α → β → Prop} {xs : List α} {ys : List β}
    (h : List.Forall₂ R xs ys) {y : β} (hy : y ∈ ys) : ∃ x ∈ xs, R x y := by
  induction h with
  | nil => cases hy
  | cons hR _ ih =>
    rcases List.mem_cons.1 hy with rfl | hy
    · exact ⟨_, List.mem_cons_self .., hR⟩
    · obtain ⟨x, hx, hR⟩ := ih hy
      exact ⟨x, List.mem_cons_of_mem _ hx, hR⟩

/-- Entries that are named like properties, one beside the other, have the names of the properties. -/
theorem keys_eq_of_forall₂ {α : Type} {properties : Properties} {entries : List (String × α)}
    (h : List.Forall₂ (fun p entry => entry.1 = p.1.name) properties entries) :
    Catalog.keys entries = properties.map fun p => p.1.name := by
  have hnames : List.Forall₂ (· = ·) (Catalog.keys entries) (properties.map fun p => p.1.name) :=
    List.forall₂_map_left_iff.2 (List.forall₂_map_right_iff.2 h.flip)
  rwa [List.forall₂_eq_eq_eq] at hnames

/-- An object with a member for each property is accepted, if each member is. -/
theorem Properties.accept_members {properties : Properties} {members : List (String × Mark × Value)}
    (hkeys : ∀ p ∈ properties, p.1.isShortcut = false) (hnodup : (properties.map fun p => p.1.name).Nodup)
    (hmembers : List.Forall₂ (fun p member => member.1 = p.1.name ∧ visit p.2 member.2.2 = .ok ())
      properties members) :
    Properties.accept properties header types visit (.object mark members) = .ok () := by
  have hnames := keys_eq_of_forall₂ (hmembers.imp fun _ _ h => h.1)
  refine Except.bind_eq_ok_iff.2 ⟨(), Except.forM_eq_ok_iff.2 fun p hp => ?_,
    Except.forM_eq_ok_iff.2 fun member hmember => ?_⟩
  · obtain ⟨⟨name, m, value⟩, hmember, rfl, hvisit⟩ := exists_mem_of_forall₂ hmembers.flip hp
    have hfound : Catalog.find? members p.1.name = some (m, value) :=
      Catalog.find?_eq_some_of_unique hmember fun _ =>
        Catalog.eq_of_mem_of_nodup (hnames ▸ hnodup) hmember
    dsimp only
    rw [if_neg (by simp [hkeys p hp]), hfound]
    exact hvisit
  · obtain ⟨p, hp, hname, -⟩ := exists_mem_of_forall₂ hmembers hmember
    have hdeclared : (Properties.declared? properties member.1).isNone = false := by
      rw [declared?, Option.isNone_map, Option.isNone_eq_false_iff, List.find?_isSome]
      exact ⟨p, hp, by simp [hname, hkeys p hp]⟩
    dsimp only
    rw [hdeclared]
    rfl

/-- An array with an item for each sample is accepted, if each item is. -/
theorem acceptItems_samples {samples : List Node} (mark : Mark) {items : List Value}
    (hcount : header.AllowsCount samples.length)
    (hitems : List.Forall₂ (fun sample item => visit sample item = .ok ()) samples items) :
    acceptItems header samples visit (.array mark items) = .ok () := by
  rw [hitems.length_eq] at hcount
  rw [acceptItems_eq hcount]
  split
  · rfl
  · refine Except.forM_eq_ok_iff.2 fun item hitem => ?_
    obtain ⟨sample, hsample, hvisit⟩ := exists_mem_of_forall₂ hitems hitem
    exact (acceptFirst_eq_ok_iff fun _ _ _ _ _ => Iff.rfl).2 ⟨sample, hsample, hvisit⟩

end

namespace Registry

variable {types : Registry} {node : Node} {v : Value} {levels : Nat}

/-- A node without types accepts what it describes, unless it accepts it anyway. -/
theorem accept_succ_of_acceptSelf (hnames : node.rules.typeNames = [])
    (h : ¬ node.AcceptsAnyway v → node.acceptSelf types (types.accept levels) v = .ok ()) :
    types.accept (levels + 1) node v = .ok () := by
  by_cases hanyway : node.AcceptsAnyway v
  · exact accept_succ_of_acceptsAnyway levels hanyway
  · rw [accept_eq_acceptSelf hanyway hnames, h hanyway]
    rfl

/-- A literal or a mixed node that passes its checks accepts its sample, and what is written like it. -/
theorem accept_sample {sample mark : Mark} (hsampled : node.IsSampled types)
    (hcheck : types.checkNode node = .ok ()) (hsample : node.sample? = some sample)
    (hbytes : sample.bytes = mark.bytes) (hlevels : maxDepth ≤ levels) :
    types.accept (levels + 1) node (.literal mark) = .ok () := by
  have hshape := (checkNode_eq_ok_iff.1 hcheck).2.2.2
  have hlimit : maxDepth ≤ acceptLimit := by decide
  cases hsampled with
  | @literal header own hnames =>
    obtain rfl := Option.some.inj hsample
    have hrefers : types.RefersWithin maxDepth (.literal header (some own)) :=
      refersWithin_of_typeNames_eq_nil (by exact hnames) maxDepth
    refine accept_literal_congr hrefers hlimit hbytes ?_ hlevels
    refine accept_succ_of_acceptSelf hnames fun hanyway => acceptLiteral_eq_ok_iff.2 ?_
    have hown : (Node.literal header (some own)).checkSample types own = .ok () := hshape
    exact (Node.describesLiteral_of_checkSample hown).resolve_left hanyway
  | @mixed header own hrefers =>
    obtain rfl := Option.some.inj hsample
    exact accept_literal_congr hrefers hlimit hbytes (Node.accept_of_checkSample hshape) hlevels
  | object | array => cases hsample

/-- An object node accepts an object of which the members are accepted by its properties, one by one. -/
theorem accept_object_of_children {header : Header} {properties : List (PropertyKey × Node)} {mark : Mark}
    {entries : List (String × Mark × Value)} {depth : Nat}
    (hself : (Node.object header properties).IsSampled types)
    (hlaidOut : (Node.object header properties).IsLaidOut (depth + 1))
    (hdatum : (Node.object header properties).datum? = some (Value.object mark entries).datum)
    (hchild : ∀ p ∈ properties, ∀ value : Value, p.2.IsLaidOut depth → p.2.datum? = some value.datum →
      types.accept levels p.2 value = .ok ()) :
    types.accept (levels + 1) (.object header properties) (.object mark entries) = .ok () := by
  obtain ⟨members, hmembers, hdatum⟩ := Option.map_eq_some_iff.1 hdatum
  obtain rfl := Datum.object.inj hdatum
  rw [Node.membersOf?_eq_some_iff, Value.dataOfMembers_eq, List.forall₂_map_right_iff] at hmembers
  cases hself with
  | object hnames hkeys =>
    obtain ⟨⟨hnodup, -⟩, hchildren⟩ := hlaidOut
    refine accept_succ_of_acceptSelf hnames fun _ => Properties.accept_members hkeys hnodup ?_
    refine ((List.forall₂_and_left _ _).2 ⟨fun p hp => hp, hmembers⟩).imp fun p member h => ?_
    obtain ⟨hp, hname, hdatum⟩ := h
    exact ⟨hname, hchild p hp member.2.2 (hchildren p.2 (List.mem_map_of_mem hp)) hdatum⟩

/-- An array node accepts an array of which the items are accepted by its items, one by one. -/
theorem accept_array_of_children {header : Header} {items : List Node} {mark : Mark} {values : List Value}
    {depth : Nat} (hself : (Node.array header items).IsSampled types)
    (hchecked : types.checkNode (Node.array header items) = .ok ())
    (hlaidOut : (Node.array header items).IsLaidOut (depth + 1))
    (hdatum : (Node.array header items).datum? = some (Value.array mark values).datum)
    (hchild : ∀ item ∈ items, ∀ value : Value, item.IsLaidOut depth → item.datum? = some value.datum →
      types.accept levels item value = .ok ()) :
    types.accept (levels + 1) (.array header items) (.array mark values) = .ok () := by
  obtain ⟨data, hdata, hdatum⟩ := Option.map_eq_some_iff.1 hdatum
  obtain rfl := Datum.array.inj hdatum
  rw [Node.itemsOf?_eq_some_iff, Value.dataOfItems_eq, List.forall₂_map_right_iff] at hdata
  cases hself with
  | array hnames =>
    obtain ⟨-, hchildren⟩ := hlaidOut
    refine accept_succ_of_acceptSelf hnames fun hanyway => acceptItems_samples mark ?_ ?_
    · refine Node.allowsCount_of_checkItems (checkNode_eq_ok_iff.1 hchecked).2.2.2 ?_
      -- An array that leaves its items to others accepts anything.
      rw [Node.describesNoItems, show (Node.array header items).rules.typeNames = [] from hnames]
      refine Bool.and_eq_false_imp.2 fun _ => beq_eq_false_iff_ne.2 fun hany => ?_
      exact hanyway (Or.inr ⟨.any, hany, rfl⟩)
    · refine ((List.forall₂_and_left _ _).2 ⟨fun item hitem => hitem, hdata⟩).imp fun item value h => ?_
      exact hchild item h.1 value (hchildren item h.1) h.2

/-- **A tree accepts its example**, if its nodes are sampled and pass their checks. -/
theorem accept_datum {depth : Nat} (hlaidOut : node.IsLaidOut depth)
    (hsampled : ∀ part ∈ node.subnodes, part.IsSampled types)
    (hcheck : ∀ part ∈ node.subnodes, types.checkNode part = .ok ()) (hdatum : node.datum? = some v.datum)
    (hlevels : depth + maxDepth < levels) : types.accept levels node v = .ok () := by
  induction node using Node.inductionOn generalizing depth v levels with
  | step node ih =>
    obtain ⟨levels, rfl⟩ : ∃ others, levels = others + 1 := ⟨levels - 1, by omega⟩
    have hself := hsampled node node.mem_subnodes_self
    have hchecked := hcheck node node.mem_subnodes_self
    -- What holds of the whole tree holds of the trees of its children, one level further down.
    have hchild : ∀ child ∈ node.children, ∀ {depth : Nat} {value : Value}, child.IsLaidOut depth →
        child.datum? = some value.datum → depth + maxDepth < levels →
        types.accept levels child value = .ok () := fun child hchild depth value hlaidOut hdatum hlevels =>
      ih child hchild hlaidOut
        (fun part hpart => hsampled part (Node.mem_subnodes_iff.2 (Or.inr ⟨child, hchild, hpart⟩)))
        (fun part hpart => hcheck part (Node.mem_subnodes_iff.2 (Or.inr ⟨child, hchild, hpart⟩)))
        hdatum hlevels
    cases node with
    | literal header sample? | mixed header sample? =>
      obtain ⟨sample, hsample, hdatum⟩ := Option.map_eq_some_iff.1 hdatum
      cases v with
      | object | array => cases hdatum
      | literal mark =>
        exact accept_sample hself hchecked hsample (Datum.literal.inj hdatum) (by omega)
    | reference => cases hdatum
    | object header properties =>
      obtain ⟨members, -, hwhole⟩ := Option.map_eq_some_iff.1 hdatum
      cases v with
      | literal | array => cases hwhole
      | object mark entries =>
        cases depth with
        | zero => exact hlaidOut.elim
        | succ depth =>
          refine accept_object_of_children hself hlaidOut hdatum fun p hp value hlaidOut hdatum => ?_
          exact hchild p.2 (List.mem_map_of_mem hp) hlaidOut hdatum (by omega)
    | array header items =>
      obtain ⟨data, -, hwhole⟩ := Option.map_eq_some_iff.1 hdatum
      cases v with
      | literal | object => cases hwhole
      | array mark values =>
        cases depth with
        | zero => exact hlaidOut.elim
        | succ depth =>
          refine accept_array_of_children hself hchecked hlaidOut hdatum fun item hitem value hlaidOut hdatum => ?_
          exact hchild item hitem hlaidOut hdatum (by omega)

end Registry

/-! ## Writing the example -/

/-- Where each entry of a list has something beside it, so has the list. -/
theorem exists_forall₂ {α β : Type} {R : α → β → Prop} {xs : List α} (h : ∀ x ∈ xs, ∃ y, R x y) :
    ∃ ys, List.Forall₂ R xs ys := by
  induction xs with
  | nil => exact ⟨[], .nil⟩
  | cons x xs ih =>
    obtain ⟨⟨y, hy⟩, hxs⟩ := List.forall_mem_cons.1 h
    obtain ⟨ys, hys⟩ := ih hxs
    exact ⟨y :: ys, .cons hy hys⟩

namespace Node

variable {types : Registry} {node : Node}

/-- **A tree whose nodes are sampled has an example**, which can be written. -/
theorem exists_datum? {depth : Nat} (hlaidOut : node.IsLaidOut depth)
    (hsampled : ∀ part ∈ node.subnodes, part.IsSampled types)
    (hliteral : ∀ part ∈ node.subnodes, ∀ mark, part.sample? = some mark → IsLiteral mark.bytes) :
    ∃ d, node.datum? = some d ∧ d.IsWritable depth := by
  induction node using inductionOn generalizing depth with
  | step node ih =>
    have hchild : ∀ child ∈ node.children, ∀ {depth : Nat}, child.IsLaidOut depth →
        ∃ d, child.datum? = some d ∧ d.IsWritable depth := fun child hchild depth hlaidOut =>
      ih child hchild hlaidOut
        (fun part hpart => hsampled part (mem_subnodes_iff.2 (Or.inr ⟨child, hchild, hpart⟩)))
        (fun part hpart => hliteral part (mem_subnodes_iff.2 (Or.inr ⟨child, hchild, hpart⟩)))
    have hself := hsampled node node.mem_subnodes_self
    have hsample := hliteral node node.mem_subnodes_self
    cases hself with
    | literal | mixed => exact ⟨_, rfl, Datum.isWritable_literal (hsample _ rfl) depth⟩
    | @object header properties hnames hkeys =>
      cases depth with
      | zero => exact hlaidOut.elim
      | succ depth =>
        obtain ⟨⟨hnodup, hread⟩, hchildren⟩ := hlaidOut
        have hmember : ∀ p ∈ properties, ∃ member, IsMemberOf p member ∧
            (∃ bytes, Quoted.decode? bytes = some member.1) ∧ member.2.IsWritable depth := by
          intro p hp
          have hpart := List.mem_map_of_mem (f := Prod.snd) hp
          obtain ⟨d, hd, hwritable⟩ := hchild p.2 hpart (hchildren p.2 hpart)
          exact ⟨(p.1.name, d), ⟨rfl, hd⟩, ⟨_, Literal.string_eq_ok_iff.1 ((hread p hp).name (hkeys p hp))⟩, hwritable⟩
        obtain ⟨members, hmembers⟩ := exists_forall₂ hmember
        have hall := membersOf?_eq_some_iff.2 (hmembers.imp fun _ _ h => h.1)
        refine ⟨.object members, by rw [datum?, hall]; rfl, Datum.isWritable_object ?_ fun member hmem => ?_⟩
        · rwa [keys_eq_of_forall₂ (hmembers.imp fun _ _ h => h.1.1)]
        · obtain ⟨p, -, -, h⟩ := exists_mem_of_forall₂ hmembers hmem
          exact h
    | @array header items hnames =>
      cases depth with
      | zero => exact hlaidOut.elim
      | succ depth =>
        obtain ⟨-, hchildren⟩ := hlaidOut
        obtain ⟨data, hdata⟩ := exists_forall₂ fun item hitem => hchild item hitem (hchildren item hitem)
        have hall : itemsOf? items = some data := itemsOf?_eq_some_iff.2 (hdata.imp fun _ _ h => h.1)
        refine ⟨.array data, by rw [datum?, hall]; rfl, Datum.isWritable_array fun item hmem => ?_⟩
        obtain ⟨_, -, -, hwritable⟩ := exists_mem_of_forall₂ hdata hmem
        exact hwritable

end Node

end ExampleSchema
