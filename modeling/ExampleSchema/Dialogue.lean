import ExampleSchema.Session

/-!
# Dialogues

A session is used step by step: types and rules are registered, the document is read, and values are
validated.  The length of the document, the schema on its own and the compiled schema are each worked out
once.  The first step that needs one of them remembers the outcome, which may be a failure, and later
steps are answered from memory.

* `Step`, `Answer`: the steps, and what they are answered.
* `Dialogue`: a session with what is remembered of it.
* `Dialogue.answer`: the answer to a step, and the dialogue after it.
-/

namespace ExampleSchema

/-- A step in the use of a session. -/
inductive Step where
  | add (addition : Session.Addition)
  | length
  | load
  | userTypes
  | compile
  | check
  | outline
  /-- Checks the schema and reports what is wrong with it. -/
  | report
  | validate (text : Bytes)
  | validateMember (name : String) (text : Bytes)
  deriving Inhabited

/-- Whether a step needs the compiled schema. -/
def Step.compiles : Step → Bool
  | .add _ | .length | .load | .userTypes => false
  | .compile | .check | .outline | .report | .validate _ | .validateMember _ _ => true

/-- What a step is answered. -/
inductive Answer where
  | verdict (outcome : Outcome Unit)
  | length (outcome : Outcome Nat)
  | schema (outcome : Outcome Schema)
  | names (outcome : Outcome (List String))
  | outline (outcome : Outcome Outline)
  | report (report? : Option Report)
  deriving Inhabited

/-- What is answered by a session that is only asked. -/
def Session.answer (s : Session) : Step → Answer
  | .add addition => .verdict (discard (s.add addition))
  | .length => .length s.length
  | .load => .schema s.load
  | .userTypes => .names s.userTypes
  | .compile | .check => .verdict (discard s.compiled)
  | .outline => .outline s.outline
  | .report =>
    .report (match s.compiled with
      | .ok _ => none
      | .error problem => problem.report?)
  | .validate text => .verdict (s.validate text)
  | .validateMember name text => .verdict (s.validateMember name text)

/-- A session, whose compiled schema may be remembered, with what else is remembered of it. -/
structure Dialogue where
  session : Session
  length? : Option (Outcome Nat) := none
  loaded? : Option (Outcome Schema) := none
  deriving Inhabited

namespace Dialogue

/-- A dialogue about a document of which nothing is remembered. -/
def start (source : Source) : Dialogue := { session := { source } }

/-- The length of the document, which is remembered. -/
def length (d : Dialogue) : Outcome Nat × Dialogue :=
  match d.length? with
  | some outcome => (outcome, d)
  | none => (d.session.length, { d with length? := some d.session.length })

/-- The schema of the document on its own, which is remembered. -/
def load (d : Dialogue) : Outcome Schema × Dialogue :=
  match d.loaded? with
  | some outcome => (outcome, d)
  | none => (d.session.load, { d with loaded? := some d.session.load })

/-- The dialogue with the compiled schema in memory, for which the schema on its own is taken from
memory too. -/
def compile (d : Dialogue) : Dialogue :=
  match d.session.compiled? with
  | some _ => d
  | none =>
    let (loaded, d) := d.load
    let outcome := do (← loaded).compile d.session.types d.session.rules
    { d with session := { d.session with compiled? := some outcome } }

/-- The answer to a step, and the dialogue after it. -/
def answer (d : Dialogue) : Step → Answer × Dialogue
  | .add addition =>
    match d.session.add addition with
    | .ok session => (.verdict (.ok ()), { d with session })
    | .error problem => (.verdict (.error problem), d)
  | .length =>
    let (outcome, d) := d.length
    (.length outcome, d)
  | .load =>
    let (outcome, d) := d.load
    (.schema outcome, d)
  | .userTypes =>
    let (outcome, d) := d.load
    (.names (Schema.userTypes <$> outcome), d)
  | step => (d.compile.session.answer step, d.compile)

/-- The dialogue after some steps. -/
def after (d : Dialogue) (steps : List Step) : Dialogue :=
  steps.foldl (fun d step => (d.answer step).2) d

end Dialogue
end ExampleSchema
