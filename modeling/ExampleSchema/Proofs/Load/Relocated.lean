import ExampleSchema.Proofs.Load.Parts
import ExampleSchema.Proofs.Load.Unplaced
import ExampleSchema.Proofs.Order.Notes

/-!
# Documents with the same texts

Two documents tell the same events in other places, and what they tell the texts of has the same bytes.  Then they are
loaded as the same tree, up to the places in it.

* `Mark.seen`: what the loader sees of an event.
* `RuleValue.unplaced`, `Note.unplaced`: rules and notes without places.
* `RuleValue.agree_constraintsOf_of_unplaced`: the constraints of rules.
* `Source.agreeVia_partsOf`: the parts of a document.
* `Loader.agree_addPart`: what one of them does.
* `Schema.agree_load`: the same tree.
-/

namespace ExampleSchema

open Except

/-! ## Marks -/

namespace EventKind

/-- Whether the bytes of the event are looked at, by a note or outside of notes. -/
def isSpelled : EventKind → Bool
  | .closing .literal | .closing .objectKey | .closing .keyShortcut | .closing .typesShortcut | .closing .mixedValue
  | .closing .inlineNoteText | .closing .blockNoteText => true
  | _ => false

end EventKind

namespace Mark

/-- The mark without its place and its bytes: only the kind is left. -/
def blank (mark : Mark) : Mark := ⟨default, ⟨mark.kind, 0, 0⟩⟩

/-- What is looked at of the mark. -/
def seen (mark : Mark) : Mark := if mark.kind.isSpelled then mark.unplaced else mark.blank

variable {mark mark' : Mark}

@[simp] theorem kind_seen (mark : Mark) : mark.seen.kind = mark.kind := by
  rw [seen]
  split <;> rfl

theorem seen_of_isSpelled (h : mark.kind.isSpelled = true) : mark.seen = mark.unplaced := if_pos h

theorem seen_of_not_isSpelled (h : mark.kind.isSpelled = false) : mark.seen = mark.blank :=
  if_neg (Bool.eq_false_iff.1 h)

/-- The same is looked at of events of one kind, with the same bytes where these are looked at. -/
theorem seen_eq_iff : mark.seen = mark'.seen ↔
    mark.kind = mark'.kind ∧ (mark.kind.isSpelled = true → mark.bytes = mark'.bytes) := by
  constructor
  · intro h
    have hkind : mark.kind = mark'.kind := by rw [← mark.kind_seen, h, mark'.kind_seen]
    refine ⟨hkind, fun hspelled => ?_⟩
    rw [seen_of_isSpelled hspelled, seen_of_isSpelled (hkind ▸ hspelled)] at h
    exact (unplaced_eq_iff.1 h).2
  · rintro ⟨hkind, hbytes⟩
    rw [seen, seen, ← hkind]
    split
    · next hspelled => exact unplaced_eq_iff.2 ⟨hkind, hbytes hspelled⟩
    · rw [blank, blank, hkind]

end Mark

/-! ## Unnamed types -/

/-- A type is registered among others, wherever they are written. -/
theorem Registry.insert_unplaced (types : Registry) (name : String) (entry : TypeEntry) :
    Catalog.insert types.unplaced name entry.unplaced = Registry.unplaced (Catalog.insert types name entry) := by
  induction types with
  | nil => rfl
  | cons e rest ih =>
    change (if name == e.1 then _ else _) = Registry.unplaced (if name == e.1 then _ else _)
    split
    · rfl
    · exact congrArg _ ih

namespace Unnamed

variable {u u' : Unnamed}

theorem register_unplaced (u : Unnamed) (root : Node) (start : Nat) :
    u.unplaced.register root.unplaced 0 = Prod.map id unplaced (u.register root start) := by
  have hlength : u.unplaced.types.length = u.types.length := List.length_map _
  rw [register, hlength]
  dsimp only [unplaced]
  rw [show (⟨root.unplaced, default, 0⟩ : TypeEntry) = TypeEntry.unplaced ⟨root, u.source, start⟩ from rfl,
    Registry.insert_unplaced]
  rfl

/-- Results with the same unnamed types after them. -/
def Coincide {α : Type} (same : α → α → Prop) (x y : α × Unnamed) : Prop := same x.1 y.1 ∧ x.2.unplaced = y.2.unplaced

theorem register_coincide (hu : u.unplaced = u'.unplaced) {root root' : Node} (hroot : root.unplaced = root'.unplaced)
    (start start' : Nat) : Coincide Eq (u.register root start) (u'.register root' start') := by
  have hsame := u.register_unplaced root start
  rw [hu, hroot, u'.register_unplaced root' start'] at hsame
  obtain ⟨hname, hregistry⟩ := Prod.mk.inj hsame
  exact ⟨hname.symm, hregistry.symm⟩

end Unnamed

open Unnamed (Coincide)

/-! ## Rules -/

namespace RuleValue

mutual
/-- The value of a rule, wherever it is written. -/
def unplaced : RuleValue → RuleValue
  | literal mark => literal mark.unplaced
  | shortcut mark => shortcut mark.unplaced
  | array mark items => array mark.blank (unplacedItems items)
  | object mark rules => object mark.blank (unplacedRules rules)

/-- The items of a list, wherever they are written. -/
def unplacedItems : List RuleValue → List RuleValue
  | [] => []
  | item :: rest => item.unplaced :: unplacedItems rest

/-- Rules, wherever they are written. -/
def unplacedRules : List (String × Mark × RuleValue) → List (String × Mark × RuleValue)
  | [] => []
  | (name, key, value) :: rest => (name, key.unplaced, value.unplaced) :: unplacedRules rest
end

theorem unplacedItems_eq (items : List RuleValue) : unplacedItems items = items.map unplaced := by
  induction items with
  | nil => rfl
  | cons item rest ih => rw [unplacedItems, ih, List.map_cons]

theorem unplacedRules_eq (rules : List (String × Mark × RuleValue)) :
    unplacedRules rules = rules.map fun e => (e.1, e.2.1.unplaced, e.2.2.unplaced) := by
  induction rules with
  | nil => rfl
  | cons e rest ih => rw [unplacedRules, ih, List.map_cons]

theorem contains_unplacedRules (rules : List (String × Mark × RuleValue)) (name : String) :
    Catalog.contains (unplacedRules rules) name = Catalog.contains rules name := by
  rw [Bool.eq_iff_iff, Catalog.contains_eq_true_iff, Catalog.contains_eq_true_iff, Catalog.keys, unplacedRules_eq,
    List.map_map]
  rfl

mutual
/-- A value differs from the one without places only in where it is written. -/
theorem rearranges_unplaced : ∀ value : RuleValue, value.Rearranges value.unplaced
  | literal mark => .literal mark.bytes_unplaced.symm
  | shortcut mark => .shortcut mark.bytes_unplaced.symm
  | array _ items => .of_items (forall₂_unplacedItems items)
  | object _ rules => .of_entries (.of_forall₂ (forall₂_unplacedRules rules))

theorem forall₂_unplacedItems : ∀ items : List RuleValue, List.Forall₂ Rearranges items (unplacedItems items)
  | [] => .nil
  | item :: rest => .cons item.rearranges_unplaced (forall₂_unplacedItems rest)

theorem forall₂_unplacedRules : ∀ rules : List (String × Mark × RuleValue),
    List.Forall₂ (fun e e' => e.1 = e'.1 ∧ Rearranges e.2.2 e'.2.2) rules (unplacedRules rules)
  | [] => .nil
  | (_, _, value) :: rest => .cons ⟨rfl, value.rearranges_unplaced⟩ (forall₂_unplacedRules rest)
end

/-! ### Members of unions -/

variable {u u' : Unnamed}

theorem memberNode_unplaced (type : TypeName) (mark : Mark) :
    (memberNode type mark).unplaced = memberNode type default := by
  rw [memberNode.eq_def, memberNode.eq_def]
  split <;> rfl

/-- **A member that is written as rules.** -/
theorem agreeVia_memberOfRules (mark : Mark) (added : List Rule) :
    AgreeVia Node.unplaced (memberOfRules mark added) (memberOfRules default (Rules.unplaced added)) := by
  have htype : typeOf? (Rules.unplaced added) = typeOf? added := by
    rw [typeOf?, typeOf?, Rules.unplaced, List.findSome?_map]
    rfl
  have hstart : (memberStart (typeOf? added) mark).unplaced = memberStart (typeOf? added) default := by
    cases typeOf? added with
    | none => rfl
    | some type => exact memberNode_unplaced type mark
  rw [memberOfRules_eq, memberOfRules_eq, htype, ← hstart]
  refine ((memberStart (typeOf? added) mark).agreeVia_apply added).bind fun node _ => ?_
  have hunion : node.unplaced.rules.has .or = node.rules.has .or := by
    rw [Node.rules, Node.header_unplaced]
    exact node.rules.has_unplaced .or
  rw [hunion, Node.header_unplaced]
  split
  · have hmixed : (Header.unplaced node.unplacedBasis { node.header with jsonType := .mixed }) =
        { node.header.unplaced node.unplacedBasis with jsonType := .mixed } := rfl
    exact agree_ok.2 (hmixed ▸ node.withHeader_unplaced rfl)
  · rfl

/-- **A member that is written as a string.** -/
theorem agree_memberOfName_of_bytes (hu : u.unplaced = u'.unplaced) {mark mark' : Mark} (h : mark.bytes = mark'.bytes) :
    Agree (Coincide Eq) (memberOfName u mark) (memberOfName u' mark') := by
  rw [memberOfName, memberOfName, h]
  refine (agree_refl (Literal.string mark'.bytes)).mapError.bind fun name _ hname => ?_
  subst hname
  split
  · exact ⟨rfl, hu⟩
  split
  · trivial
  · next type _ =>
    have hnode (mark : Mark) : AgreeVia Node.unplaced
        ((memberNode (.builtin type) mark).apply [{ constraint := .type (.builtin type), mark? := some mark }])
        ((memberNode (.builtin type) default).apply [{ constraint := .type (.builtin type) }]) := by
      rw [← memberNode_unplaced _ mark]
      exact Node.agreeVia_apply _ _
    exact ((hnode mark).agree (hnode mark') rfl).bind fun _ _ hroot => Unnamed.register_coincide hu hroot _ _

/-! ### Unions -/

/-- Rules that are the same, wherever they are written. -/
abbrev SameRules (added added' : List Rule) : Prop := Rules.unplaced added = Rules.unplaced added'

mutual
/-- What the rules of a note become. -/
theorem agree_constraintsOf_unplaced {u u' : Unnamed} (hu : u.unplaced = u'.unplaced) :
    ∀ rules : List (String × Mark × RuleValue),
      Agree (Coincide SameRules) (constraintsOf u rules) (constraintsOf u' (unplacedRules rules))
  | [] => by
    rw [unplacedRules, constraintsOf, constraintsOf]
    exact ⟨rfl, hu⟩
  | (name, key, value) :: rest => by
    rw [unplacedRules, constraintsOf, constraintsOf]
    refine Agree.bind (R := Coincide Eq) (Agree.mapError ?_) fun first first' hfirst => ?_
    · split
      · exact (agree_unionNames_unplaced name hu value).bind fun x y hnames => ⟨by rw [hnames.1], hnames.2⟩
      · exact (value.rearranges_unplaced.agree_constraint name key key.unplaced).bind fun _ _ hc => ⟨by rw [hc], hu⟩
    · refine (agree_constraintsOf_unplaced hfirst.2 rest).bind fun others others' hothers => ⟨?_, hothers.2⟩
      have hrest : List.map Rule.unplaced others.1 = List.map Rule.unplaced others'.1 := hothers.1
      simp only [SameRules, Rules.unplaced, List.map_append, List.map_map, hfirst.1, hrest]
      rfl

theorem agree_unionNames_unplaced (rule : String) {u u' : Unnamed} (hu : u.unplaced = u'.unplaced) :
    ∀ value : RuleValue, Agree (Coincide Eq) (value.unionNames rule u) (value.unplaced.unionNames rule u')
  | .shortcut mark => by
    rw [unplaced, unionNames, unionNames]
    exact (agree_shortcutNames mark.bytes_unplaced.symm).bind fun _ _ hnames => ⟨hnames, hu⟩
  | .array mark items => by
    rw [unplaced, unionNames, unionNames]
    have hempty : (unplacedItems items).isEmpty = items.isEmpty := by rw [unplacedItems_eq, List.isEmpty_map]
    rw [hempty]
    split
    · trivial
    · exact agree_memberNames_unplaced rule hu items
  | .literal mark => by
    rw [unplaced, unionNames, unionNames]
    trivial
  | .object mark rules => by
    rw [unplaced, unionNames, unionNames]
    trivial

theorem agree_memberNames_unplaced (rule : String) {u u' : Unnamed} (hu : u.unplaced = u'.unplaced) :
    ∀ items : List RuleValue,
      Agree (Coincide Eq) (memberNames rule u items) (memberNames rule u' (unplacedItems items))
  | [] => by
    rw [unplacedItems, memberNames, memberNames]
    exact ⟨rfl, hu⟩
  | item :: rest => by
    rw [unplacedItems, memberNames, memberNames]
    refine (agree_memberNamesOf_unplaced rule hu item).bind fun x y hnames => ?_
    refine (agree_memberNames_unplaced rule hnames.2 rest).bind fun z w hothers => ⟨?_, hothers.2⟩
    rw [hnames.1, hothers.1]

theorem agree_memberNamesOf_unplaced (rule : String) {u u' : Unnamed} (hu : u.unplaced = u'.unplaced) :
    ∀ item : RuleValue, Agree (Coincide Eq) (item.memberNamesOf rule u) (item.unplaced.memberNamesOf rule u')
  | .shortcut mark => by
    rw [unplaced, memberNamesOf, memberNamesOf]
    exact (agree_shortcutNames mark.bytes_unplaced.symm).bind fun _ _ hnames => ⟨hnames, hu⟩
  | .object mark rules => by
    rw [unplaced, memberNamesOf, memberNamesOf]
    rw [contains_unplacedRules]
    split
    · refine (agree_constraintsOf_unplaced hu rules).bind fun x y hadded => ?_
      have hadded' : Rules.unplaced x.1 = Rules.unplaced y.1 := hadded.1
      have hnode := (agreeVia_memberOfRules mark x.1).agree (agreeVia_memberOfRules mark.blank y.1) (by rw [hadded'])
      refine hnode.bind fun node node' hroot => ?_
      obtain ⟨hname, hregistry⟩ := Unnamed.register_coincide hadded.2 hroot mark.start mark.blank.start
      exact ⟨congrArg (fun name => [name]) hname, hregistry⟩
    · trivial
  | .literal mark => by
    rw [unplaced, memberNamesOf, memberNamesOf, mark.bytes_unplaced]
    split
    · exact (agree_memberOfName_of_bytes hu mark.bytes_unplaced.symm).bind fun x y hname => ⟨by rw [hname.1], hname.2⟩
    · trivial
  | .array mark items => by
    rw [unplaced, memberNamesOf, memberNamesOf]
    trivial
end

/-- **What the rules of a note become**, wherever they are written. -/
theorem agree_constraintsOf_of_unplaced (hu : u.unplaced = u'.unplaced)
    {rules rules' : List (String × Mark × RuleValue)} (h : unplacedRules rules = unplacedRules rules') :
    Agree (Coincide SameRules) (constraintsOf u rules) (constraintsOf u' rules') := by
  have hright := agree_constraintsOf_unplaced (rfl : u'.unplaced = u'.unplaced) rules'
  rw [← h] at hright
  refine (agree_constraintsOf_unplaced hu rules).trans hright.swap fun x y z hleft hright => ?_
  exact ⟨hleft.1.trans hright.1.symm, hleft.2.trans hright.2.symm⟩

end RuleValue

/-! ## Notes -/

namespace Note

/-- The note, wherever it is written. -/
def unplaced (note : Note) : Note := ⟨note.mark.blank, note.rules?.map RuleValue.unplacedRules, note.text?⟩

/-- The open list or object of rule values, wherever it is written. -/
def Frame.unplaced : Frame → Frame
  | .object rules name? => .object (RuleValue.unplacedRules rules) (name?.map (Prod.map id Mark.unplaced))
  | .array items => .array (RuleValue.unplacedItems items)

namespace Builder

/-- What is read of a note, wherever it is written. -/
def unplaced (b : Builder) : Builder :=
  ⟨b.mark.blank, b.frames.map Frame.unplaced, b.rules?.map RuleValue.unplacedRules, b.text?⟩

variable (b : Builder) (mark : Mark)

theorem agreeVia_place (value : RuleValue) : AgreeVia unplaced (b.place value) (b.unplaced.place value.unplaced) := by
  obtain ⟨begun, frames, rules?, text?⟩ := b
  cases frames with
  | nil => cases value <;> first | rfl | trivial
  | cons frame rest =>
    cases frame with
    | array items => rfl
    | object rules name? =>
      cases name? with
      | none => trivial
      | some e =>
        obtain ⟨name, key⟩ := e
        change AgreeVia _ _ (if Catalog.contains (RuleValue.unplacedRules rules) name then _ else _)
        rw [RuleValue.contains_unplacedRules, place.eq_def]
        dsimp only
        split
        · trivial
        · have hlast : RuleValue.unplacedRules (rules ++ [(name, key, value)]) =
              RuleValue.unplacedRules rules ++ [(name, key.unplaced, value.unplaced)] := by
            rw [RuleValue.unplacedRules_eq, RuleValue.unplacedRules_eq, List.map_append]
            rfl
          refine agree_ok.2 ?_
          simp only [unplaced, List.map_cons, Frame.unplaced, hlast]
          rfl

theorem agreeVia_takeName : AgreeVia unplaced (b.takeName mark) (b.unplaced.takeName mark.unplaced) := by
  refine AgreeVia.bind (F := id) ?_ fun name _ => ?_
  · rw [nameOf, nameOf, Mark.text, Mark.text, mark.bytes_unplaced]
    split
    · cases Quoted.decode? mark.bytes <;> trivial
    · rfl
  · obtain ⟨begun, frames, rules?, text?⟩ := b
    rcases frames with _ | ⟨_ | _, _⟩ <;> rfl

/-- Closing an object or a list of rule values. -/
theorem agreeVia_leave : AgreeVia unplaced (b.leave mark) (b.unplaced.leave mark.blank) := by
  obtain ⟨begun, frames, rules?, text?⟩ := b
  obtain ⟨source, kind, start, stop⟩ := mark
  rcases frames with _ | ⟨⟨rules, name?⟩ | items, rest⟩
  · trivial
  · cases kind with
    | closing c =>
      cases c
      case object =>
        exact agreeVia_place ⟨begun, rest, rules?, text?⟩ (.object ⟨source, .closing .object, start, stop⟩ rules)
      all_goals trivial
    | opening | newLine | endTop => trivial
  · cases kind with
    | closing c =>
      cases c
      case array =>
        have hplaced := agreeVia_place ⟨begun, rest, rules?, text?⟩
          (.array ⟨source, .closing .array, start, stop⟩ items.reverse)
        rwa [RuleValue.unplaced, RuleValue.unplacedItems_eq, List.map_reverse, ← RuleValue.unplacedItems_eq] at hplaced
      all_goals trivial
    | opening | newLine | endTop => trivial

theorem takeText_unplaced : b.unplaced.takeText mark.unplaced = (b.takeText mark).unplaced := by
  rw [takeText, takeText, mark.bytes_unplaced]
  split <;> rfl

/-- **An event of a note.** -/
theorem agreeVia_add : AgreeVia unplaced (b.add mark) (b.unplaced.add mark.seen) := by
  rw [add, add, mark.kind_seen]
  split
  · rfl
  · rfl
  · next h =>
    rw [Mark.seen_of_isSpelled (h ▸ rfl)]
    exact b.agreeVia_takeName mark
  · next h =>
    rw [Mark.seen_of_isSpelled (h ▸ rfl)]
    exact b.agreeVia_place (.literal mark)
  · next h =>
    rw [Mark.seen_of_isSpelled (h ▸ rfl)]
    exact b.agreeVia_place (.shortcut mark)
  · next h =>
    rw [Mark.seen_of_not_isSpelled (h ▸ rfl)]
    exact b.agreeVia_leave mark
  · next h =>
    rw [Mark.seen_of_not_isSpelled (h ▸ rfl)]
    exact b.agreeVia_leave mark
  · next h =>
    rw [Mark.seen_of_isSpelled (h ▸ rfl)]
    exact agree_ok.2 (b.takeText_unplaced mark)
  · next h =>
    rw [Mark.seen_of_isSpelled (h ▸ rfl)]
    exact agree_ok.2 (b.takeText_unplaced mark)
  · rfl

end Builder
end Note

/-! ## The parts of a document -/

namespace Source

/-- The part of a document, wherever it is written. -/
def Part.unplaced : Part → Part
  | .event mark => .event mark.seen
  | .note found => .note found.unplaced

/-- **The parts that events make up.** -/
theorem agreeVia_partsOf (marks : List Mark) (builder? : Option Note.Builder) :
    AgreeVia (List.map Part.unplaced) (partsOf builder? marks)
      (partsOf (builder?.map Note.Builder.unplaced) (marks.map Mark.seen)) := by
  induction marks generalizing builder? with
  | nil => cases builder? <;> simp [partsOf]
  | cons mark rest ih =>
    have hfirst (part : Part) : AgreeVia (List.map Part.unplaced) (do return part :: (← partsOf none rest))
        (do return part.unplaced :: (← partsOf none (rest.map Mark.seen))) := (ih none).bind fun _ _ => rfl
    cases builder? with
    | none =>
      rw [List.map_cons, Option.map_none, partsOf, partsOf, mark.kind_seen]
      split
      · next h =>
        rw [Mark.seen_of_not_isSpelled (h ▸ rfl)]
        exact ih (some { mark })
      · next h =>
        rw [Mark.seen_of_not_isSpelled (h ▸ rfl)]
        exact ih (some { mark })
      · exact hfirst (.event mark)
    | some builder =>
      rw [List.map_cons, Option.map_some, partsOf, partsOf, mark.kind_seen]
      split
      · exact hfirst (.note builder.note)
      · exact hfirst (.note builder.note)
      · exact (builder.agreeVia_add mark).bind fun next _ => ih (some next)

end Source

/-! ## The loader -/

/-- A value without parts, wherever it is written. -/
theorem Loader.sampleNode_unplaced {mark mark' : Mark} (h : mark.unplaced = mark'.unplaced) :
    (sampleNode mark).unplaced = (sampleNode mark').unplaced := by
  rw [sampleNode, sampleNode, (Mark.unplaced_eq_iff.1 h).2]
  exact congrArg (Node.literal _) (congrArg some h)

namespace Shortcut

/-- The node of names in place of a value. -/
theorem agreeVia_reference (mark : Mark) (names : List String) :
    AgreeVia Node.unplaced
      (do return .reference (← ({ jsonType := .mixed, basis := mark } : Header).addRules (rules mark names)) names)
      (do return .reference (← ({ jsonType := .mixed, basis := mark.unplaced } : Header).addRules
        (Rules.unplaced (rules mark names))) names) := by
  refine (Header.agreeVia_addRules { jsonType := .mixed, basis := mark } _).bind fun header hheader => ?_
  obtain ⟨added, -, hheader⟩ := Except.bind_eq_ok_iff.1 hheader
  obtain rfl := Except.ok.inj hheader
  rfl

/-- The node of a shortcut, wherever it is written. -/
theorem agree_node {mark mark' : Mark} (h : mark.unplaced = mark'.unplaced) :
    Agree (fun node node' : Node => node.unplaced = node'.unplaced) (node mark) (node mark') := by
  refine (RuleValue.agree_shortcutNames (Mark.unplaced_eq_iff.1 h).2).bind fun names _ hnames => ?_
  subst hnames
  have hrules : Rules.unplaced (rules mark' names) = Rules.unplaced (rules mark names) := by
    rw [rules.eq_def, rules.eq_def]
    split <;> rfl
  exact (agreeVia_reference mark names).agree (agreeVia_reference mark' names) (by rw [hrules, h])

end Shortcut

namespace Loader

/-- Two loaders have read the same, up to places. -/
abbrev Coincide (l l' : Loader) : Prop := l.unplaced = l'.unplaced

variable {l l' : Loader} (h : l.Coincide l')
include h

theorem agree_place {node node' : Node} (hnode : node.unplaced = node'.unplaced) :
    Agree Coincide (l.place node) (l'.place node') :=
  (l.agreeVia_place node).agree (l'.agreeVia_place node') (by rw [h, hnode])

theorem agree_leave (mark mark' : Mark) : Agree Coincide (l.leave mark) (l'.leave mark') :=
  (l.agreeVia_leave mark).agree (l'.agreeVia_leave mark') (by rw [h])

theorem enter_coincide (mark mark' : Mark) (type : JsonType) (filling : Filling) :
    Coincide (l.enter mark type filling) (l'.enter mark' type filling) := by
  rw [Coincide, ← enter_unplaced, ← enter_unplaced, h]

theorem takeKey_coincide {key key' : PropertyKey} (hkey : key.unplaced = key'.unplaced) :
    Coincide (l.takeKey key) (l'.takeKey key') := by
  rw [Coincide, ← takeKey_unplaced, ← takeKey_unplaced, h, hkey]

theorem agree_takeName {mark mark' : Mark} (hmark : mark.unplaced = mark'.unplaced) :
    Agree Coincide (l.takeName mark) (l'.takeName mark') :=
  (l.agreeVia_takeName mark).agree (l'.agreeVia_takeName mark') (by rw [h, hmark])

theorem agree_describe {note note' : Note} (htext : note.text? = note'.text?) {added added' : List Rule}
    (hadded : Rules.unplaced added = Rules.unplaced added') :
    Agree Coincide (l.describe note added) (l'.describe note' added') := by
  have hright := l'.agreeVia_describe (rfl : note'.text? = note'.text?) added'
  exact (l.agreeVia_describe htext added).agree hright (by rw [h, hadded])

/-- **A note.** -/
theorem agree_applyNote {note note' : Note} (hnote : note.unplaced = note'.unplaced) :
    Agree Coincide (l.applyNote note) (l'.applyNote note') := by
  have hunnamed : l.unnamed.unplaced = l'.unnamed.unplaced := (congrArg Loader.unnamed h :)
  have htarget : l.target = l'.target := (congrArg Loader.target h :)
  have htext : note.text? = note'.text? := (congrArg Note.text? hnote :)
  have hrules : note.rules?.map RuleValue.unplacedRules = note'.rules?.map RuleValue.unplacedRules :=
    (congrArg Note.rules? hnote :)
  rw [applyNote, applyNote, ← htext]
  cases hleft : note.rules? with
  | none =>
    rw [hleft] at hrules
    rw [Option.map_eq_none_iff.1 hrules.symm]
    cases note.text? with
    | none => exact h
    | some text => exact agree_describe h htext rfl
  | some rules =>
    rw [hleft] at hrules
    obtain ⟨rules', hright, hsame⟩ := Option.map_eq_some_iff.1 hrules.symm
    rw [hright]
    dsimp only
    by_cases hnothing : l.target = .nothing
    · rw [if_pos hnothing, if_pos (htarget.symm.trans hnothing)]
      trivial
    · rw [if_neg hnothing, if_neg fun hnothing' => hnothing (htarget.trans hnothing')]
      refine (RuleValue.agree_constraintsOf_of_unplaced hunnamed hsame.symm).bind fun x y hbuilt => ?_
      have hread : Coincide { l with unnamed := x.2 } { l' with unnamed := y.2 } := by
        change ({ l.unplaced with unnamed := x.2.unplaced } : Loader) = { l'.unplaced with unnamed := y.2.unplaced }
        rw [h, hbuilt.2]
      exact agree_describe hread htext hbuilt.1

/-- **An event outside of notes.** -/
theorem agree_addEvent {mark mark' : Mark} (hmark : mark.seen = mark'.seen) :
    Agree Coincide (l.addEvent mark) (l'.addEvent mark') := by
  have hkind := (Mark.seen_eq_iff.1 hmark).1
  have hspelled (hspelled : mark.kind.isSpelled = true) : mark.unplaced = mark'.unplaced :=
    Mark.unplaced_eq_iff.2 ⟨hkind, (Mark.seen_eq_iff.1 hmark).2 hspelled⟩
  rw [addEvent, addEvent, ← hkind]
  split
  · exact enter_coincide h mark mark' _ _
  · exact enter_coincide h mark mark' _ _
  · exact agree_leave h mark mark'
  · exact agree_leave h mark mark'
  · next hclosing =>
    have hsame := hspelled (hclosing ▸ rfl)
    refine takeKey_coincide h ?_
    rw [PropertyKey.unplaced, PropertyKey.unplaced, hsame, Mark.text, Mark.text, (Mark.unplaced_eq_iff.1 hsame).2]
  · next hclosing => exact agree_takeName h (hspelled (hclosing ▸ rfl))
  · next hclosing => exact agree_place h (sampleNode_unplaced (hspelled (hclosing ▸ rfl)))
  · next hclosing =>
    exact (Shortcut.agree_node (hspelled (hclosing ▸ rfl))).bind fun _ _ hnode => agree_place h hnode
  · exact h
  · exact h
  · exact congrArg (fun l : Loader => { l with target := .nothing }) h
  · exact h

/-- **A part of a document.** -/
theorem agree_addPart {part part' : Source.Part} (hpart : part.unplaced = part'.unplaced) :
    Agree Coincide (l.addPart part) (l'.addPart part') := by
  cases part with
  | event mark =>
    cases part' with
    | event mark' => exact agree_addEvent h (Source.Part.event.inj hpart)
    | note => cases hpart
  | note note =>
    cases part' with
    | event => cases hpart
    | note note' => exact agree_applyNote h (Source.Part.note.inj hpart)

theorem agree_schema : Agree (fun s s' : Schema => s.unplaced = s'.unplaced) l.schema l'.schema := by
  have hroot : l.root?.map Node.unplaced = l'.root?.map Node.unplaced := congrArg (fun l : Loader => l.root?) h
  have htypes : l.unnamed.types.unplaced = l'.unnamed.types.unplaced :=
    congrArg (fun l : Loader => l.unnamed.types) h
  rw [schema, schema]
  cases hleft : l.root? with
  | none =>
    rw [hleft] at hroot
    rw [Option.map_eq_none_iff.1 hroot.symm]
    trivial
  | some root =>
    rw [hleft] at hroot
    obtain ⟨root', hright, hsame⟩ := Option.map_eq_some_iff.1 hroot.symm
    rw [hright]
    exact congrArg₂ Schema.mk hsame.symm htypes

end Loader

/-! ## Documents -/

/-- **Documents in which the same is looked at** are loaded as the same tree, wherever its parts are written. -/
theorem Schema.agree_load {source source' : Source} (owner : String)
    (h : Agree (fun marks marks' : List Mark => marks.map Mark.seen = marks'.map Mark.seen) (Scan.marks {} source)
      (Scan.marks {} source')) :
    Agree (fun s s' : Schema => s.unplaced = s'.unplaced) (load source owner) (load source' owner) := by
  have hparts : Agree (List.Forall₂ fun part part' : Source.Part => part.unplaced = part'.unplaced)
      source.parts source'.parts := by
    refine h.bind fun marks marks' hmarks => ?_
    have hagree := (Source.agreeVia_partsOf marks none).agree (Source.agreeVia_partsOf marks' none) (by rw [hmarks])
    refine hagree.mono fun parts parts' hsame => ?_
    rwa [← List.forall₂_eq_eq_eq, List.forall₂_map_left_iff, List.forall₂_map_right_iff] at hsame
  have hload : Agree (fun s s' : Schema => s.unplaced = s'.unplaced) (source.loadParts owner)
      (source'.loadParts owner) := by
    refine hparts.bind fun parts parts' hsame => ?_
    refine Agree.bind (R := Loader.Coincide) ?_ fun l l' hl => Loader.agree_schema hl
    exact Agree.foldlM hsame rfl fun _ _ _ _ hl hpart => Loader.agree_addPart hl hpart
  have hright : Agree (fun s s' : Schema => s.unplaced = s'.unplaced) (source.loadParts owner) (load source' owner) :=
    hload.trans (agree_loadParts source' owner).swap fun _ _ _ hsame heq => heq ▸ hsame
  exact (agree_loadParts source owner).trans hright fun _ _ _ heq hsame => heq ▸ hsame

end ExampleSchema
