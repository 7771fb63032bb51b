import ExampleSchema.Proofs.Json.Quoting
import ExampleSchema.Proofs.Location.Load
import ExampleSchema.Proofs.Validation

/-!
# Where problems with values point

A value is written in the document of its text.  A problem with a literal, or with the number of items, knows no
place; the level at which it comes up says which value it is about.  The name of a member is read as a value of its
own where a property may stand for it, but what is wrong with that value is never told.

So whatever is wrong with a document, with an enum rule, with the types of a session or with a value, the problem
points into one of the texts that were handed in.

* `Value.LiesIn`, `Value.parse_meets`: a value that is parsed is written in its document.
* `Node.acceptSelf_staysIn`: one level.
* `Schema.accept_pointsTo`: all levels.
* `Session.documents`: the document of a session and those of its types.
* `Session.Arises.compiled_pointsTo`, `Session.Arises.validate_pointsTo`: compiling and validating.
* `Session.Arises.problems_located`: all that is handed in.
-/

namespace ExampleSchema

variable {places : Location → Prop}

namespace Value

/-- A value is written at some places, with its parts and the names of its members. -/
inductive LiesIn (places : Location → Prop) : Value → Prop where
  | literal {mark : Mark} (hmark : mark.LiesIn places) : LiesIn places (.literal mark)
  | object {mark : Mark} {members : List (String × Mark × Value)} (hmark : mark.LiesIn places)
      (hnames : ∀ member ∈ members, member.2.1.LiesIn places)
      (hvalues : ∀ member ∈ members, LiesIn places member.2.2) : LiesIn places (.object mark members)
  | array {mark : Mark} {items : List Value} (hmark : mark.LiesIn places)
      (hitems : ∀ item ∈ items, LiesIn places item) : LiesIn places (.array mark items)

theorem LiesIn.mark {value : Value} (h : value.LiesIn places) : value.mark.LiesIn places := by cases h <;> assumption

/-! ## Parsing -/

/-- What a container has so far is written at some places. -/
def Frame.LiesIn (places : Location → Prop) : Frame → Prop
  | .object members name? => (∀ member ∈ members, member.2.1.LiesIn places ∧ member.2.2.LiesIn places) ∧
      ∀ name, name? = some name → name.2.LiesIn places
  | .array items => ∀ item ∈ items, item.LiesIn places

namespace Builder

variable {mark : Mark}

/-- What is read of a value is written at some places. -/
structure LiesIn (places : Location → Prop) (b : Builder) : Prop where
  frames : ∀ frame ∈ b.frames, frame.LiesIn places
  root : ∀ value, b.root? = some value → value.LiesIn places

variable {b : Builder}

theorem place_meets (h : b.LiesIn places) {value : Value} (hvalue : value.LiesIn places) :
    (b.place value).Meets (LiesIn places) (Problem.PointsTo places) := by
  obtain ⟨frames, root?⟩ := b
  obtain ⟨hframes, hroot⟩ := h
  cases frames with
  | nil =>
    refine ⟨hframes, fun value' hvalue' => ?_⟩
    obtain rfl := Option.some.inj hvalue'
    exact hvalue
  | cons frame rest =>
    obtain ⟨hframe, hrest⟩ := List.forall_mem_cons.1 hframes
    rcases frame with ⟨members, _ | ⟨name, key⟩⟩ | items
    · exact Cause.on_pointsTo _ hvalue.mark
    · refine ⟨List.forall_mem_cons.2 ⟨⟨fun member hmember => ?_, nofun⟩, hrest⟩, hroot⟩
      rcases Catalog.mem_or_eq_of_mem_insert hmember with hmember | rfl
      · exact hframe.1 member hmember
      · exact ⟨hframe.2 _ rfl, hvalue⟩
    · exact ⟨List.forall_mem_cons.2 ⟨List.forall_mem_cons.2 ⟨hvalue, hframe⟩, hrest⟩, hroot⟩

theorem takeName_meets (h : b.LiesIn places) (hmark : mark.LiesIn places) :
    (b.takeName mark).Meets (LiesIn places) (Problem.PointsTo places) := by
  unfold takeName
  split
  · exact Cause.on_pointsTo _ hmark
  · next name members name? rest _ hopen =>
    have hframes := h.frames
    rw [hopen, List.forall_mem_cons] at hframes
    refine ⟨List.forall_mem_cons.2 ⟨⟨hframes.1.1, fun named hnamed => ?_⟩, hframes.2⟩, h.root⟩
    obtain rfl := Option.some.inj hnamed
    exact hmark
  · exact h

theorem leave_meets (h : b.LiesIn places) (hmark : mark.LiesIn places) :
    (b.leave mark).Meets (LiesIn places) (Problem.PointsTo places) := by
  have hframes := h.frames
  unfold leave
  split
  · next members name? rest hopen =>
    rw [hopen, List.forall_mem_cons] at hframes
    have hrest : LiesIn places { b with frames := rest } := ⟨hframes.2, h.root⟩
    refine place_meets hrest (.object hmark ?_ ?_)
    · exact fun member hmember => (hframes.1.1 member hmember).1
    · exact fun member hmember => (hframes.1.1 member hmember).2
  · next items rest hopen =>
    rw [hopen, List.forall_mem_cons] at hframes
    have hrest : LiesIn places { b with frames := rest } := ⟨hframes.2, h.root⟩
    exact place_meets hrest (.array hmark fun item hitem => hframes.1 item (List.mem_reverse.1 hitem))
  · exact Cause.on_pointsTo _ hmark

/-- **An event** is taken, or it is to blame. -/
theorem add_meets (h : b.LiesIn places) (hmark : mark.LiesIn places) :
    (b.add mark).Meets (LiesIn places) (Problem.PointsTo places) := by
  unfold add
  split
  · exact ⟨List.forall_mem_cons.2 ⟨⟨fun _ hmember => (List.not_mem_nil hmember).elim, nofun⟩, h.frames⟩, h.root⟩
  · exact ⟨List.forall_mem_cons.2 ⟨fun _ hitem => (List.not_mem_nil hitem).elim, h.frames⟩, h.root⟩
  · exact takeName_meets h hmark
  · exact place_meets h (.literal hmark)
  · exact leave_meets h hmark
  · exact leave_meets h hmark
  · exact h

theorem add_endTop (b : Builder) (hkind : mark.kind = .endTop) : b.add mark = .ok b := by rw [add, hkind]

end Builder

/-- **A value that is parsed** is written in its document, and a problem with a text is in that document. -/
theorem parse_meets (source : Source) :
    (parse source).Meets (LiesIn (Location.IsIn [source])) (Problem.PointsTo (Location.IsIn [source])) := by
  have hstart : Builder.LiesIn (Location.IsIn [source]) {} :=
    ⟨fun _ hframe => (List.not_mem_nil hframe).elim, fun _ hvalue => (by cases hvalue)⟩
  have hfold := Scan.foldMarks_pointsTo { plain := true } source hstart (fun b mark => b.add_endTop)
    fun b hb mark hmark => Builder.add_meets hb hmark
  unfold parse
  cases hbuilder : Scan.foldMarks { plain := true } source Builder.add {} with
  | error p => exact hfold.of_error hbuilder
  | ok b =>
    -- a scan that comes to the end has seen a value
    obtain ⟨t, -, -, -, rfl⟩ := exists_document_of_foldMarks hbuilder
    exact (hfold.of_ok hbuilder).root _ rfl

end Value

/-! ## One level -/

section

variable {value : Value}

theorem wrongType_pointsTo {α : Type} (h : value.LiesIn places) (expected : JsonType) :
    (wrongType expected value : Outcome α).FailsOnly (Problem.PointsTo places) := Cause.on_pointsTo _ h.mark

theorem Node.acceptLiteral_staysIn (h : value.LiesIn places) (node : Node) :
    (node.acceptLiteral value).FailsOnly (Problem.StaysIn places) := by
  have hwrong := Outcome.staysIn (@wrongType_pointsTo places value Unit h node.jsonType)
  cases value with
  | literal mark => exact .ite (Except.FailsOnly.forM fun r _ => Verdict.anywhere_staysIn _) hwrong
  | object | array => exact hwrong

theorem BuiltinType.accept_pointsTo (h : value.LiesIn places) (type : BuiltinType) :
    (type.accept value).FailsOnly (Problem.PointsTo places) := by
  refine .ite trivial (.ite ?_ (wrongType_pointsTo h _))
  split
  · exact Verdict.on_pointsTo _ h.mark
  · trivial

end

namespace Schema

variable {schema : Schema} {visit : Node → Value → Outcome Unit} {node : Node} {value : Value}

/-- A type that is looked up may be missing, and then nothing is to blame yet. -/
theorem visit_root_staysIn (hvisit : ∀ node ∈ schema.nodes, (visit node value).FailsOnly (Problem.PointsTo places))
    (name : String) : (do visit (← schema.types.root name) value).FailsOnly (Problem.StaysIn places) := by
  cases hroot : schema.types.root? name with
  | none =>
    rw [Registry.root, hroot]
    exact Cause.anywhere_staysIn _
  | some root =>
    rw [Registry.root_eq_ok_iff.2 hroot]
    exact Outcome.staysIn (hvisit root (mem_nodes_of_root?_eq_some hroot))

/-- **One level** points at a part of the value or nowhere, if the visits of the nodes of the schema point at what
they visit. -/
theorem acceptSelf_staysIn (hvisit : ∀ node ∈ schema.nodes, ∀ v : Value, v.LiesIn places →
      (visit node v).FailsOnly (Problem.PointsTo places))
    (hnode : node ∈ schema.nodes) (hvalue : value.LiesIn places) :
    (node.acceptSelf schema.types visit value).FailsOnly (Problem.StaysIn places) := by
  have hchildren : ∀ child ∈ node.children, ∀ v : Value, v.LiesIn places →
      (visit child v).FailsOnly (Problem.StaysIn places) := fun child hchild v hv =>
    Outcome.staysIn (hvisit child (mem_nodes_of_mem_children hnode hchild) v hv)
  have hwrong := fun type => Outcome.staysIn (@wrongType_pointsTo places value Unit hvalue type)
  cases node with
  | object header properties =>
    cases hvalue with
    | object hmark hnames hvalues =>
      refine Properties.acceptObject_failsOnly (fun _ => (Cause.on_pointsTo _ hmark).staysIn) ?_ ?_ ?_ ?_
      · exact fun member hmember => (Cause.on_pointsTo _ (hnames member hmember)).staysIn
      · exact fun member hmember type => Outcome.staysIn (type.accept_pointsTo (hvalues member hmember))
      · exact fun p hp member hmember => hchildren p.2 (List.mem_map_of_mem hp) _ (hvalues member hmember)
      · exact fun type _ member hmember =>
          visit_root_staysIn (fun node hnode => hvisit node hnode _ (hvalues member hmember)) type
    | literal | array => exact hwrong .object
  | array header samples =>
    cases hvalue with
    | @array mark _ hmark hitems =>
      refine @acceptArray_failsOnly _ _ _ _ mark _ (fun _ _ => Cause.anywhere_staysIn _) (fun _ _ => Cause.anywhere_staysIn _) ?_ ?_
      · exact fun item hitem => (Cause.on_pointsTo _ (hitems item hitem).mark).staysIn
      · exact fun sample hsample item hitem => hchildren sample hsample item (hitems item hitem)
    | literal | object => exact hwrong .array
  | literal | mixed => exact Node.acceptLiteral_staysIn hvalue _
  | reference => trivial

/-! ## All levels -/

/-- **A schema whose nodes have passed their checks** points at a part of the value that it refuses. -/
theorem accept_pointsTo (hcheck : ∀ node ∈ schema.nodes, schema.types.checkNode node = .ok ()) (levels : Nat) :
    ∀ node ∈ schema.nodes, ∀ value : Value, value.LiesIn places →
      (schema.types.accept levels node value).FailsOnly (Problem.PointsTo places) := by
  refine accept_failsOnly_of_level hcheck ?_ ?_ ?_ levels
  · exact fun _ hvalue => Cause.on_pointsTo _ hvalue.mark
  · exact fun _ hvalue _ => Cause.on_pointsTo _ hvalue.mark
  · intro visit hvisit node hnode value hvalue
    exact Outcome.orOn_meets (acceptSelf_staysIn hvisit hnode hvalue) hvalue.mark

end Schema

/-! ## Sessions -/

namespace Session

/-- The document of a session and those of the registered types. -/
def documents (s : Session) : List Source := s.source :: s.types.map fun e => e.2.source

namespace Arises

variable {s : Session} (hs : s.Arises)
include hs

/-- A session is refused for something that is written in one of its documents. -/
theorem compiled_pointsTo : s.compiled.FailsOnly (Problem.PointsTo (Location.IsIn s.documents)) := by
  have hown : ∀ l : Location, l.IsIn [s.source] → l.IsIn s.documents := Location.IsIn.of_mem (List.mem_cons_self ..)
  have hload := (Schema.load_meets s.source s.source.name).imp (fun _ h => h.mono hown) fun _ h => h.imp hown
  rw [hs.compiled_eq]
  refine hload.bind fun loaded hloaded => Schema.compile_pointsTo hloaded (fun e he => ?_) s.rules
  have htype := (Schema.load_meets e.2.source e.1).of_ok (hs.load_of_mem_types he).2
  exact htype.mono (Location.IsIn.of_mem (List.mem_cons_of_mem _ (List.mem_map_of_mem he)))

/-- A value is refused for something in its text. -/
theorem validate_pointsTo {schema : Schema} (h : s.compiled = .ok schema) (text : Bytes) :
    (s.validate text).FailsOnly (Problem.PointsTo (Location.IsIn [⟨"value", text⟩])) := by
  have hroot := Schema.mem_nodes_of_mem_roots (List.mem_cons_self : schema.root ∈ schema.roots)
  rw [validate, h, Except.ok_bind]
  refine (Value.parse_meets ⟨"value", text⟩).bind fun value hvalue => ?_
  exact Schema.accept_pointsTo (fun _ hnode => hs.checkNode_eq_ok h hnode) _ schema.root hroot value hvalue

/-- **Every problem is located.**  Where a document or an enum rule cannot be loaded, a session does not compile, or
a value is refused by a compiled schema, the problem has a location, in the document, in the enum rule, in a
document of the session, or in the text of the value, and there no further than its end.  The name of a member that
is looked at as a value is always a value, so no problem comes of reading it. -/
theorem problems_located (source : Source) (owner : String) (text : Bytes) :
    (Schema.load source owner).FailsOnly (Problem.PointsTo (Location.IsIn [source])) ∧
    (Enumeration.load source).FailsOnly (Problem.PointsTo (Location.IsIn [source])) ∧
    s.compiled.FailsOnly (Problem.PointsTo (Location.IsIn s.documents)) ∧
    (∀ schema, s.compiled = .ok schema →
      (s.validate text).FailsOnly (Problem.PointsTo (Location.IsIn [⟨"value", text⟩]))) ∧
    ∀ name, Value.parse ⟨"key", Bytes.ofString (Quoted.encode name)⟩ = .ok (Value.ofText "key" name) := by
  refine ⟨?_, Enumeration.load_pointsTo source, hs.compiled_pointsTo, ?_, Value.parse_encode "key"⟩
  · exact (Schema.load_meets source owner).imp (fun _ _ => trivial) fun _ => id
  · exact fun schema h => hs.validate_pointsTo h text

end Arises

/-- A document that is written as the name of a type, and the type, which does not keep its own rule. -/
def shortCat : Outcome Session :=
  addType { source := .ofString "root" "@Cat" } "@Cat" (.ofString "@Cat" "\"Tom\" // \x7bminLength: 4\x7d")

/-- Where the problem of that session points, and where that of a value of the type that keeps its rule. -/
def catPlaces? : Option ((String × Nat) × String × Nat) :=
  match shortCat, cat with
  | .ok short, .ok s =>
    match short.compiled, s.compiled, s.validate (Bytes.ofString " 1") with
    | .error ⟨_, some l⟩, .ok _, .error ⟨_, some m⟩ => some ((l.source.name, l.offset), m.source.name, m.offset)
    | _, _, _ => none
  | _, _ => none

/-- The type is refused in its own document, and a number in the text of the value. -/
theorem shortCat_located : ∃ short s schema p q l m,
    shortCat = .ok short ∧ short.compiled = .error p ∧ p.location = some l ∧ l.IsIn short.documents ∧
      l.source.name = "@Cat" ∧ l.offset = 0 ∧
    cat = .ok s ∧ s.compiled = .ok schema ∧ s.validate (Bytes.ofString " 1") = .error q ∧
      q.location = some m ∧ m.IsIn [⟨"value", Bytes.ofString " 1"⟩] ∧ m.offset = 1 := by
  have hplaces : catPlaces? = some (("@Cat", 0), "value", 1) := by decide +kernel
  rw [catPlaces?] at hplaces
  split at hplaces
  · next short s hshort hcat =>
    split at hplaces
    · next cause l schema cause' m hp hcompiled hq =>
      obtain ⟨hl, hm⟩ := Prod.mk.inj (Option.some.inj hplaces)
      obtain ⟨hname, hoffset⟩ := Prod.mk.inj hl
      obtain ⟨-, -, hrefused, -⟩ := (Arises.addType (.start _) hshort).problems_located short.source "" []
      obtain ⟨-, -, -, hvalidated, -⟩ := (Arises.addType (.start _) hcat).problems_located s.source "" (Bytes.ofString " 1")
      obtain ⟨l', hl', hin⟩ := hrefused.of_error hp
      obtain rfl := Option.some.inj hl'
      obtain ⟨m', hm', hin'⟩ := (hvalidated schema hcompiled).of_error hq
      obtain rfl := Option.some.inj hm'
      exact ⟨short, s, schema, _, _, l, m, hshort, hp, rfl, hin, hname, hoffset, hcat, hcompiled, hq, rfl, hin',
        (Prod.mk.inj hm).2⟩
    · cases hplaces
  · cases hplaces

end Session

end ExampleSchema
