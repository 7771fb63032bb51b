import ExampleSchema.Dialogue
import ExampleSchema.Proofs.Session
import Mathlib.Data.List.TakeWhile

/-!
# What a dialogue may rely on

Memory is filled at different times: reading fills in the length and the schema on its own, compiling
fills in the compiled schema and takes the other from memory.  No answer shows it.  Every answer is that
of a session that remembers nothing and has the same types and rules, and since nothing is registered
once a schema is compiled, what is compiled is settled by the first step that needs it.

* `Dialogue.IsFaithful`: what is remembered is what would be worked out.
* `IsFaithful.answer_fst`, `IsFaithful.answer_snd`: one step.
* `IsFaithful.after`, `IsFaithful.addAll_added`, `IsFaithful.session_after`: any number of steps.
* `after_isSteady`: what holds at every place in a sequence of steps.
-/

namespace ExampleSchema

/-! ## Sessions that are compiled -/

namespace Session

/-- A session whose compiled schema is remembered registers nothing. -/
theorem add_of_isSome {s : Session} (h : s.compiled?.isSome = true) (addition : Addition) :
    s.add addition = .error Cause.alreadyCompiled.anywhere := by
  cases addition <;> simp only [add, addType, addRule, checkNew, h] <;> rfl

theorem compile_of_isSome {s : Session} (h : s.compiled?.isSome = true) : s.compile = s := by
  obtain ⟨outcome, houtcome⟩ := Option.isSome_iff_exists.1 h
  have hcompiled : s.compiled = outcome := by rw [compiled, houtcome]
  rw [compile, hcompiled, ← houtcome]

/-- Registering does not touch the document or what is remembered. -/
theorem eq_of_add_eq_ok {s s' : Session} {addition : Addition} (h : s.add addition = .ok s') :
    s'.source = s.source ∧ s'.compiled? = s.compiled? := by
  cases addition with
  | type name source =>
    obtain ⟨-, -, -, schema, -, rfl⟩ := addType_eq_ok_iff.1 h
    exact ⟨rfl, rfl⟩
  | rule name rule =>
    obtain ⟨-, rules, rfl⟩ := exists_of_addRule_eq_ok h
    exact ⟨rfl, rfl⟩

/-- A step that compiles is answered alike before and after compiling. -/
theorem answer_compile (s : Session) {step : Step} (h : step.compiles = true) :
    s.compile.answer step = s.answer step := by
  cases step <;> first | rfl | cases h

/-- The problem that keeps a session from being compiled is told by every answer that needs the compiled
schema. -/
theorem answers_of_compiled_eq_error {s : Session} {problem : Problem} (h : s.compiled = .error problem) :
    s.answer .check = .verdict (.error problem) ∧ s.answer .outline = .outline (.error problem) ∧
      s.answer .report = .report problem.report? ∧
      (∀ text, s.answer (.validate text) = .verdict (.error problem)) ∧
      ∀ name text, s.answer (.validateMember name text) = .verdict (.error problem) := by
  refine ⟨?_, ?_, ?_, fun text => ?_, fun name text => ?_⟩
  · rw [answer, h]
    rfl
  · rw [answer, outline, h, Except.error_bind]
  · rw [answer, h]
  · rw [answer, validate, h, Except.error_bind]
  · rw [answer, validateMember, h, Except.error_bind]

end Session

namespace Dialogue

/-- The dialogue is about a document, and what it remembers is what would be worked out. -/
structure IsFaithful (source : Source) (d : Dialogue) : Prop where
  source_eq : d.session.source = source
  length : ∀ outcome, d.length? = some outcome → outcome = Scan.length source
  loaded : ∀ outcome, d.loaded? = some outcome → outcome = Schema.load source source.name
  arises : d.session.Arises

theorem start_isFaithful (source : Source) : (start source).IsFaithful source :=
  ⟨rfl, nofun, nofun, .start source⟩

/-! ## Steps one by one -/

theorem compile_of_isSome {d : Dialogue} (h : d.session.compiled?.isSome = true) : d.compile = d := by
  obtain ⟨outcome, houtcome⟩ := Option.isSome_iff_exists.1 h
  rw [compile, houtcome]

theorem answer_snd_of_compiles (d : Dialogue) {step : Step} (h : step.compiles = true) :
    (d.answer step).2 = d.compile := by
  cases step <;> first | rfl | cases h

theorem answer_add_of_ok {d : Dialogue} {addition : Session.Addition} {session : Session}
    (h : d.session.add addition = .ok session) :
    d.answer (.add addition) = (.verdict (.ok ()), { d with session }) := by
  rw [answer, h]

/-- An addition that fails leaves everything as it was. -/
theorem answer_add_of_error {d : Dialogue} {addition : Session.Addition} {problem : Problem}
    (h : d.session.add addition = .error problem) :
    d.answer (.add addition) = (.verdict (.error problem), d) := by
  rw [answer, h]

/-- An addition that is answered by a problem has failed. -/
theorem answer_add_snd {d : Dialogue} {addition : Session.Addition} {problem : Problem}
    (h : (d.answer (.add addition)).1 = .verdict (.error problem)) : (d.answer (.add addition)).2 = d := by
  cases hadd : d.session.add addition with
  | ok session =>
    rw [answer_add_of_ok hadd] at h
    cases h
  | error problem => rw [answer_add_of_error hadd]

namespace IsFaithful

variable {source : Source} {d : Dialogue}

theorem length_fst (hd : d.IsFaithful source) : d.length.1 = d.session.length := by
  rw [Dialogue.length]
  split
  · next outcome h => rw [hd.length outcome h, Session.length, hd.source_eq]
  · rfl

theorem load_fst (hd : d.IsFaithful source) : d.load.1 = d.session.load := by
  rw [Dialogue.load]
  split
  · next outcome h => rw [hd.loaded outcome h, Session.load, hd.source_eq]
  · rfl

theorem length_snd (hd : d.IsFaithful source) :
    d.length.2.session = d.session ∧ d.length.2.IsFaithful source := by
  rw [Dialogue.length]
  split
  · exact ⟨rfl, hd⟩
  · refine ⟨rfl, hd.source_eq, fun outcome h => ?_, hd.loaded, hd.arises⟩
    rw [← Option.some.inj h, Session.length, hd.source_eq]

theorem load_snd (hd : d.IsFaithful source) :
    d.load.2.session = d.session ∧ d.load.2.IsFaithful source := by
  rw [Dialogue.load]
  split
  · exact ⟨rfl, hd⟩
  · refine ⟨rfl, hd.source_eq, hd.length, fun outcome h => ?_, hd.arises⟩
    rw [← Option.some.inj h, Session.load, hd.source_eq]

/-- What is remembered of the document does not change with what is registered. -/
theorem withSession (hd : d.IsFaithful source) {session : Session}
    (hsource : session.source = source) (hs : session.Arises) :
    IsFaithful source { d with session } :=
  ⟨hsource, hd.length, hd.loaded, hs⟩

/-- The schema that is compiled from what is remembered is the schema that the session compiles to. -/
theorem compile_of_none (hd : d.IsFaithful source) (h : d.session.compiled? = none) :
    d.compile = { d.load.2 with session := d.session.compile } := by
  have hcompiled : d.session.compiled
      = d.session.load >>= fun loaded => loaded.compile d.session.types d.session.rules := by
    rw [Session.compiled, h]
  rw [Dialogue.compile, h, Session.compile, hcompiled]
  simp only [hd.load_fst, hd.load_snd.1]

theorem session_compile (hd : d.IsFaithful source) : d.compile.session = d.session.compile := by
  cases h : d.session.compiled? with
  | none => rw [hd.compile_of_none h]
  | some outcome =>
    have hsome : d.session.compiled?.isSome = true := by rw [h]; rfl
    rw [compile_of_isSome hsome, Session.compile_of_isSome hsome]

theorem compile (hd : d.IsFaithful source) : d.compile.IsFaithful source := by
  cases h : d.session.compiled? with
  | none =>
    rw [hd.compile_of_none h]
    exact hd.load_snd.2.withSession hd.source_eq hd.arises.compile
  | some outcome =>
    have hsome : d.session.compiled?.isSome = true := by rw [h]; rfl
    rwa [compile_of_isSome hsome]

/-- **A step is answered as by a session that remembers nothing of the document.** -/
theorem answer_fst (hd : d.IsFaithful source) (step : Step) :
    (d.answer step).1 = d.session.answer step := by
  have hcompiles : step.compiles = true →
      d.compile.session.answer step = d.session.answer step := by
    intro h
    rw [hd.session_compile, Session.answer_compile _ h]
  cases step with
  | add addition =>
    rw [answer, Session.answer]
    cases d.session.add addition <;> rfl
  | length => exact congrArg Answer.length hd.length_fst
  | load => exact congrArg Answer.schema hd.load_fst
  | userTypes =>
    exact congrArg (fun outcome => Answer.names (Schema.userTypes <$> outcome)) hd.load_fst
  | _ => exact hcompiles rfl

/-- After a step, what is remembered is what would be worked out. -/
theorem answer_snd (hd : d.IsFaithful source) (step : Step) :
    (d.answer step).2.IsFaithful source := by
  cases step with
  | add addition =>
    cases hadd : d.session.add addition with
    | ok session =>
      rw [answer_add_of_ok hadd]
      have hsource := (Session.eq_of_add_eq_ok hadd).1.trans hd.source_eq
      exact hd.withSession hsource (hd.arises.add hadd)
    | error problem => rwa [answer_add_of_error hadd]
  | length => exact hd.length_snd.2
  | load => exact hd.load_snd.2
  | userTypes => exact hd.load_snd.2
  | _ => exact hd.compile

/-- Once the schema is compiled, a step leaves the session as it was. -/
theorem session_answer_snd (hd : d.IsFaithful source) {step : Step}
    (h : d.session.compiled?.isSome = true) : (d.answer step).2.session = d.session := by
  cases step with
  | add addition => rw [answer_add_of_error (Session.add_of_isSome h addition)]
  | length => exact hd.length_snd.1
  | load => exact hd.load_snd.1
  | userTypes => exact hd.load_snd.1
  | _ => exact congrArg Dialogue.session (compile_of_isSome h)

end IsFaithful

/-! ## Steps one after another -/

/-- The additions among some steps that succeed. -/
def added (d : Dialogue) : List Step → List Session.Addition
  | [] => []
  | step :: rest =>
    let later := added (d.answer step).2 rest
    match step, (d.answer step).1 with
    | .add addition, .verdict (.ok _) => addition :: later
    | _, _ => later

theorem after_cons (d : Dialogue) (step : Step) (rest : List Step) :
    d.after (step :: rest) = (d.answer step).2.after rest := rfl

namespace IsFaithful

variable {source : Source} {d : Dialogue}

theorem after (hd : d.IsFaithful source) (steps : List Step) : (d.after steps).IsFaithful source := by
  induction steps generalizing d with
  | nil => exact hd
  | cons step rest ih => exact ih (hd.answer_snd step)

/-- Steps that do not compile register what they add, and do nothing else to the session. -/
theorem addAll_added (hd : d.IsFaithful source) {steps : List Step}
    (h : ∀ step ∈ steps, step.compiles = false) :
    d.session.addAll (d.added steps) = .ok (d.after steps).session := by
  induction steps generalizing d with
  | nil => rfl
  | cons step rest ih =>
    obtain ⟨hstep, hrest⟩ := List.forall_mem_cons.1 h
    have hlater := ih (hd.answer_snd step) hrest
    rw [after_cons]
    cases step with
    | add addition =>
      cases hadd : d.session.add addition with
      | ok session =>
        simp only [added, answer_add_of_ok hadd] at hlater ⊢
        rw [Session.addAll, List.foldlM_cons, hadd, Except.ok_bind]
        exact hlater
      | error problem =>
        simp only [added, answer_add_of_error hadd] at hlater ⊢
        exact hlater
    | length =>
      rw [← hd.length_snd.1]
      exact hlater
    | load =>
      rw [← hd.load_snd.1]
      exact hlater
    | userTypes =>
      rw [← hd.load_snd.1]
      exact hlater
    | _ => cases hstep

/-- Once the schema is compiled, no step changes the session. -/
theorem session_after (hd : d.IsFaithful source) (h : d.session.compiled?.isSome = true)
    (steps : List Step) : (d.after steps).session = d.session := by
  induction steps generalizing d with
  | nil => rfl
  | cons step rest ih =>
    have hstep : (d.answer step).2.session = d.session := hd.session_answer_snd h
    rw [after_cons, ← hstep]
    exact ih (hd.answer_snd step) (by rwa [hstep])

/-- The first step that compiles settles the session. -/
theorem session_after_of_compiles (hd : d.IsFaithful source) {steps : List Step}
    (h : ∃ step ∈ steps, step.compiles = true) :
    (d.after steps).session
      = (d.after (steps.takeWhile fun step => !step.compiles)).session.compile := by
  induction steps generalizing d with
  | nil => simp at h
  | cons step rest ih =>
    rw [after_cons]
    cases hstep : step.compiles with
    | true =>
      have hsome : d.compile.session.compiled?.isSome = true := by
        rw [hd.session_compile]
        rfl
      rw [answer_snd_of_compiles d hstep, hd.compile.session_after hsome, hd.session_compile,
        List.takeWhile_cons_of_neg (by simp [hstep])]
      rfl
    | false =>
      have hrest : ∃ step ∈ rest, step.compiles = true := by simpa [hstep] using h
      rw [ih (hd.answer_snd step) hrest, List.takeWhile_cons_of_pos (by simp [hstep]), after_cons]

/-- A step that compiles is answered by the session as it was before the first such step. -/
theorem answer_after_of_compiles (hd : d.IsFaithful source) (steps : List Step) {step : Step}
    (hstep : step.compiles = true) :
    ((d.after steps).answer step).1
      = (d.after (steps.takeWhile fun step => !step.compiles)).session.answer step := by
  rw [(hd.after steps).answer_fst]
  by_cases h : ∃ step ∈ steps, step.compiles = true
  · rw [hd.session_after_of_compiles h, Session.answer_compile _ hstep]
  · rw [List.takeWhile_eq_self_iff.2 (by simpa using h)]

/-- After a step that compiles, nothing is registered. -/
theorem answer_add_after (hd : d.IsFaithful source) {steps : List Step}
    (h : ∃ step ∈ steps, step.compiles = true) (addition : Session.Addition) :
    ((d.after steps).answer (.add addition)).1 = .verdict (.error Cause.alreadyCompiled.anywhere) := by
  have hsome : (d.after steps).session.compiled?.isSome = true := by
    rw [hd.session_after_of_compiles h]
    rfl
  rw [answer_add_of_error (Session.add_of_isSome hsome addition)]

end IsFaithful

/-! ## What holds at every place -/

/-- What may be relied on after some steps about a document. -/
structure IsSteady (source : Source) (before : List Step) (d : Dialogue) : Prop where
  /-- Reading depends on the document only. -/
  length : (d.answer .length).1 = .length (Scan.length source)
  load : (d.answer .load).1 = .schema (Schema.load source source.name)
  userTypes : (d.answer .userTypes).1 = .names (Schema.userTypes <$> Schema.load source source.name)
  /-- After a step that compiles, whatever it was answered, nothing is registered. -/
  refuses : (∃ step ∈ before, step.compiles = true) → ∀ addition,
    (d.answer (.add addition)).1 = .verdict (.error Cause.alreadyCompiled.anywhere)
  /-- What fails to be registered leaves what is registered, and everything else, as it was. -/
  keeps : ∀ addition problem, (d.answer (.add addition)).1 = .verdict (.error problem) →
    (d.answer (.add addition)).2 = d
  /-- From the first step that compiles on, what is compiled is the document with the types and rules
  that were registered before that step. -/
  settled : ∃ s, Session.addAll { source }
      ((start source).added (before.takeWhile fun step => !step.compiles)) = .ok s ∧
    s.compiled = s.load >>= (·.compile s.types s.rules) ∧
    ∀ step, step.compiles = true → (d.answer step).1 = s.answer step
  /-- What keeps the document from being compiled is the answer to everything that needs the compiled
  schema. -/
  fails : ∀ problem, (d.answer .compile).1 = .verdict (.error problem) →
    (d.answer .check).1 = .verdict (.error problem) ∧
    (d.answer .outline).1 = .outline (.error problem) ∧
    (d.answer .report).1 = .report problem.report? ∧
    (∀ text, (d.answer (.validate text)).1 = .verdict (.error problem)) ∧
    ∀ name text, (d.answer (.validateMember name text)).1 = .verdict (.error problem)

/-- **Memory makes no difference**: after any steps, answers are determined by the document and by the
types and rules that were registered before the first step that compiles. -/
theorem after_isSteady (source : Source) (before : List Step) :
    ((start source).after before).IsSteady source before := by
  have hstart := start_isFaithful source
  have hd := hstart.after before
  -- the steps before the first one that compiles do nothing but register
  set early := before.takeWhile fun step => !step.compiles
  set s := ((start source).after early).session
  have hadded : Session.addAll { source } ((start source).added early) = .ok s :=
    hstart.addAll_added fun step hstep => by simpa using List.mem_takeWhile_imp hstep
  have hcompiles : ∀ step, step.compiles = true → (((start source).after before).answer step).1 = s.answer step :=
    fun step hstep => hstart.answer_after_of_compiles before hstep
  exact {
    length := by rw [hd.answer_fst, Session.answer, Session.length, hd.source_eq]
    load := by rw [hd.answer_fst, Session.answer, Session.load, hd.source_eq]
    userTypes := by rw [hd.answer_fst, Session.answer, Session.userTypes, Session.load, hd.source_eq]
    refuses := hstart.answer_add_after
    keeps := fun _ _ => answer_add_snd
    settled := ⟨s, hadded, (hstart.after early).arises.compiled_eq, hcompiles⟩
    fails := fun problem h => by
      have hcompiled : s.compiled = .error problem := by
        rw [hcompiles _ rfl, Session.answer] at h
        cases hc : s.compiled <;> rw [hc] at h <;> cases h
        rfl
      obtain ⟨hcheck, houtline, hreport, hvalidate, hmember⟩ := Session.answers_of_compiled_eq_error hcompiled
      refine ⟨?_, ?_, ?_, fun text => ?_, fun name text => ?_⟩
      · rw [hcompiles _ rfl, hcheck]
      · rw [hcompiles _ rfl, houtline]
      · rw [hcompiles _ rfl, hreport]
      · rw [hcompiles _ rfl, hvalidate]
      · rw [hcompiles _ rfl, hmember] }

end Dialogue
end ExampleSchema
