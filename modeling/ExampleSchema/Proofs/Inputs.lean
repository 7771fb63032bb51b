import ExampleSchema.Command.Run
import ExampleSchema.Proofs.Outcome
import Mathlib.Data.Prod.Lex
import Mathlib.Data.String.Basic

/-!
# The inputs of a command

A command that takes several inputs reports on each of them, in the order of their paths.  What it reports on an input
depends on that input alone, and the command succeeds if it would for each input.  One command gives up its other
inputs: measuring ends at the first schema that cannot be read.

* `Path.pairwise_sort`: sorting puts paths in order.
* `Reply.ofReports`: a reply that is made of one report for each path.
* `Command.exists_reports`: the replies of a command are made so.
* `Command.ReportsEach`, `Command.StopsAt`: each input is reported on as it is alone, and inputs that end a command.
* `Command.reportsEach_iff`: each input is reported on unless one that ends the command stands before another.
* `Command.ReportsEach.printed`: what is printed then.
-/

namespace ExampleSchema

/-! ## The order of paths -/

namespace Path

/-- What parts are compared by: their rank, then their name. -/
def Part.key : Part → ℕ ×ₗ String
  | name text => toLex (3, text)
  | part => toLex (part.rank, "")

theorem Part.key_injective : Function.Injective key := by
  intro a b h
  cases a <;> cases b <;> simp_all [key, rank]

theorem Part.before_iff {a b : Part} : a.before b = true ↔ a.key < b.key := by
  cases a <;> cases b <;> simp [before, key, rank, Prod.Lex.toLex_lt_toLex]

theorem Part.le_cons_iff {a b : Part} {as bs : List Part} :
    le (a :: as) (b :: bs) = true ↔ a.key < b.key ∨ a = b ∧ le as bs = true := by
  simp [le, before_iff]

theorem Part.trans {as bs cs : List Part} (hab : le as bs = true) (hbc : le bs cs = true) : le as cs = true := by
  induction as generalizing bs cs with
  | nil => rfl
  | cons a as ih =>
    cases bs with
    | nil => cases hab
    | cons b bs =>
      cases cs with
      | nil => cases hbc
      | cons c cs =>
        rw [le_cons_iff] at hab hbc ⊢
        rcases hab with hab | ⟨rfl, hab⟩
        · rcases hbc with hbc | ⟨rfl, -⟩
          · exact Or.inl (hab.trans hbc)
          · exact Or.inl hab
        · exact hbc.imp id fun hbc => ⟨hbc.1, ih hab hbc.2⟩

theorem Part.total (as bs : List Part) : le as bs = true ∨ le bs as = true := by
  induction as generalizing bs with
  | nil => exact Or.inl rfl
  | cons a as ih =>
    cases bs with
    | nil => exact Or.inr rfl
    | cons b bs =>
      rw [le_cons_iff, le_cons_iff]
      rcases lt_trichotomy a.key b.key with hlt | heq | hlt
      · exact Or.inl (Or.inl hlt)
      · exact (ih bs).imp (fun h => Or.inr ⟨key_injective heq, h⟩) fun h => Or.inr ⟨key_injective heq.symm, h⟩
      · exact Or.inr (Or.inl hlt)

/-- **Sorting puts the paths in order**, each as often as it was there. -/
theorem pairwise_sort (texts : List String) :
    (sort texts).Perm texts ∧ (sort texts).Pairwise fun a b => (ofString a).le (ofString b) = true := by
  refine ⟨List.mergeSort_perm .., List.pairwise_mergeSort ?_ ?_ texts⟩
  · intro a b c hab hbc
    exact Part.trans hab hbc
  · intro a b
    rw [Bool.or_eq_true]
    exact Part.total _ _

end Path

/-! ## Reports -/

namespace Reply

/-- The reply that reports on one path after another, up to one that ends the command. -/
def ofReports (report : String → Except Failure Notice) : List String → Reply
  | [] => {}
  | path :: rest =>
    match report path with
    | .ok notice => { ofReports report rest with notices := notice :: (ofReports report rest).notices }
    | .error failure => ofFailure failure

/-- The reports of a reply: what it tells, and what has ended it. -/
def reportCount (r : Reply) : Nat := r.notices.length + r.failure?.toList.length

variable {report : String → Except Failure Notice} {path : String} {paths : List String}

theorem ofReports_of_ok {notice : Notice} (h : report path = .ok notice) : ofReports report (path :: paths) =
    { ofReports report paths with notices := notice :: (ofReports report paths).notices } := by
  rw [ofReports, h]

theorem ofReports_of_error {failure : Failure} (h : report path = .error failure) :
    ofReports report (path :: paths) = ofFailure failure := by
  rw [ofReports, h]

/-- There is one report on a path. -/
theorem reportCount_ofReports_singleton (report : String → Except Failure Notice) (path : String) :
    (ofReports report [path]).reportCount = 1 := by
  rw [ofReports]
  cases report path <;> rfl

/-- If no path ends the command, it reports on all of them. -/
theorem ofReports_eq_of_forall {notice : String → Notice} (h : ∀ path, report path = .ok (notice path))
    (paths : List String) : ofReports report paths = { notices := paths.map notice } := by
  induction paths with
  | nil => rfl
  | cons path rest ih =>
    rw [ofReports, h, ih]
    rfl

theorem join_flatMap {α β : Type} (f : α → List β) (text : β → String) (l : List α) :
    String.join ((l.flatMap f).map text) = String.join (l.map fun a => String.join ((f a).map text)) := by
  induction l with
  | nil => rfl
  | cons a l ih => rw [List.flatMap_cons, List.map_append, String.join_append, ih, List.map_cons, String.join_cons]

/-- The complaint is the text of the failure, if there is one. -/
theorem complaint_eq_join (r : Reply) :
    r.complaint = String.join (r.failure?.toList.map fun failure => failure.text ++ "\n") := by
  rw [complaint]
  cases r.failure? with
  | none => rfl
  | some failure => exact String.empty_append.symm

theorem exitCode_eq_zero_iff (r : Reply) :
    r.exitCode = 0 ↔ r.failure? = none ∧ ∀ notice ∈ r.notices, notice.isFailed = false := by
  simp [exitCode]

/-- **A reply succeeds if each of its reports does.** -/
theorem exitCode_ofReports_eq_zero_iff (report : String → Except Failure Notice) (paths : List String) :
    (ofReports report paths).exitCode = 0 ↔ ∀ path ∈ paths, (ofReports report [path]).exitCode = 0 := by
  induction paths with
  | nil => exact iff_of_true rfl (List.forall_mem_nil _)
  | cons path rest ih =>
    rw [List.forall_mem_cons, ← ih]
    cases hreport : report path with
    | error failure =>
      rw [ofReports_of_error hreport, ofReports_of_error hreport, exitCode_eq_zero_iff]
      simp [ofFailure]
    | ok notice =>
      rw [ofReports_of_ok hreport, ofReports_of_ok hreport, exitCode_eq_zero_iff, exitCode_eq_zero_iff,
        exitCode_eq_zero_iff]
      simp [ofReports, and_left_comm]

/-- **Each path is reported on as it is alone, unless one that ends the command stands before another.** -/
theorem ofReports_eq_iff (report : String → Except Failure Notice) (paths : List String) :
    ((ofReports report paths).notices = paths.flatMap (fun path => (ofReports report [path]).notices) ∧
      (ofReports report paths).failure?.toList = paths.flatMap fun path => (ofReports report [path]).failure?.toList) ↔
    ∀ before path after, paths = before ++ path :: after → (∃ failure, report path = .error failure) → after = [] := by
  induction paths with
  | nil => exact iff_of_true ⟨rfl, rfl⟩ fun before path after h => by simp at h
  | cons path rest ih =>
    rw [List.flatMap_cons, List.flatMap_cons]
    cases hreport : report path with
    | ok notice =>
      rw [ofReports_of_ok hreport, ofReports_of_ok hreport]
      refine Iff.trans (by simp [ofReports]) (ih.trans ?_)
      constructor
      · rintro h before other after heq hends
        rcases List.cons_eq_append_iff.1 heq with ⟨rfl, hother⟩ | ⟨front, rfl, hrest⟩
        · obtain ⟨rfl, -⟩ := List.cons.inj hother
          obtain ⟨failure, hfailure⟩ := hends
          cases hreport.symm.trans hfailure
        · exact h front other after hrest hends
      · rintro h before other after rfl hends
        exact h (path :: before) other after rfl hends
    | error failure =>
      rw [ofReports_of_error hreport, ofReports_of_error hreport]
      constructor
      · rintro ⟨hnotices, hfailures⟩
        -- A path behind this one has a report of its own, and the reply has one report in all.
        have hrest : rest = [] := by
          cases rest with
          | nil => rfl
          | cons next more =>
            have hcount := reportCount_ofReports_singleton report next
            rw [reportCount] at hcount
            have hnotices := congrArg List.length hnotices
            have hfailures := congrArg List.length hfailures
            simp only [ofFailure, List.flatMap_cons, List.length_append, List.length_nil, Option.toList_some,
              List.length_cons] at hnotices hfailures
            omega
        subst hrest
        rintro before other after heq -
        rcases List.cons_eq_append_iff.1 heq with ⟨rfl, hother⟩ | ⟨front, rfl, hrest⟩
        · exact (List.cons.inj hother).2
        · simp at hrest
      · intro h
        obtain rfl := h [] path rest rfl ⟨failure, hreport⟩
        simp

end Reply

/-! ## Commands -/

/-- Inputs that are no patterns stand for themselves. -/
theorem Files.resolve_of_literal (files : Files) {inputs : List String}
    (h : ∀ input ∈ inputs, Glob.isPattern input = false) : files.resolve inputs = .ok (Path.sort inputs) := by
  have hpaths : inputs.mapM files.pathsOf = .ok (inputs.map fun input => [input]) := by
    induction inputs with
    | nil => rfl
    | cons input rest ih =>
      obtain ⟨hinput, hrest⟩ := List.forall_mem_cons.1 h
      rw [List.mapM_cons, ih hrest, Files.pathsOf, hinput]
      rfl
  have hflatten : (inputs.map fun input => [input]).flatten = inputs := by
    rw [← List.flatMap_def, List.flatMap_singleton']
  rw [resolve, hpaths, Except.ok_bind, hflatten]
  rfl

namespace Command

/-- The command for other inputs. -/
def withInputs : Command → List String → Command
  | check _ registrations, inputs => check inputs registrations
  | length _, inputs => length inputs
  | validate schema registrations property? _, inputs => validate schema registrations property? inputs
  | outline schema registrations out?, _ => outline schema registrations out?

/-- A command takes inputs, and what it needs besides them is in order: the schema that values are validated against
can be read with its types and rules, and compiles. -/
def IsReady (files : Files) : Command → Prop
  | check _ _ | length _ => True
  | validate schema registrations _ _ => ∃ session compiled,
      registrations.session files schema = .ok session ∧ session.compiled = .ok compiled
  | outline _ _ _ => False

/-- An input ends the command: a schema that is measured cannot be read. -/
def StopsAt (files : Files) (input : String) : Command → Prop
  | length _ => ∃ error, files.read input = .error error
  | check _ _ | validate _ _ _ _ | outline _ _ _ => False

/-- The command reports on its inputs in the order of their paths, on each as it would on that input alone. -/
def ReportsEach (files : Files) (inputs : List String) (c : Command) : Prop :=
  ((c.withInputs inputs).reply files).notices =
      (Path.sort inputs).flatMap (fun input => ((c.withInputs [input]).reply files).notices) ∧
    ((c.withInputs inputs).reply files).failure?.toList =
      (Path.sort inputs).flatMap fun input => ((c.withInputs [input]).reply files).failure?.toList

variable {files : Files} {c : Command}

theorem lengthReply_eq (files : Files) (paths : List String) :
    lengthReply files paths = Reply.ofReports (lengthNotice files) paths := by
  induction paths with
  | nil => rfl
  | cons path rest ih =>
    cases hnotice : lengthNotice files path with
    | ok notice => rw [lengthReply, hnotice, Reply.ofReports_of_ok hnotice, ih]
    | error failure => rw [lengthReply, hnotice, Reply.ofReports_of_error hnotice]

/-- A schema cannot be measured if it cannot be read, and only then. -/
theorem exists_lengthNotice_eq_error_iff {path : String} :
    (∃ failure, lengthNotice files path = .error failure) ↔ ∃ error, files.read path = .error error := by
  rw [lengthNotice, Files.source, Files.content]
  cases files.read path with
  | error error => exact iff_of_true ⟨_, rfl⟩ ⟨error, rfl⟩
  | ok content =>
    refine iff_of_false ?_ ?_
    · rintro ⟨failure, hfailure⟩
      cases hfailure
    · rintro ⟨error, herror⟩
      cases herror

/-- **A command makes its reply of one report for each input.** -/
theorem exists_reports (h : c.IsReady files) : ∃ report : String → Except Failure Notice,
    (∀ inputs : List String, (∀ input ∈ inputs, Glob.isPattern input = false) →
      (c.withInputs inputs).reply files = Reply.ofReports report (Path.sort inputs)) ∧
    ∀ path, (∃ failure, report path = .error failure) ↔ c.StopsAt files path := by
  have hnever (notice : String → Notice) (path : String) :
      (∃ failure : Failure, (Except.ok (notice path) : Except Failure Notice) = .error failure) ↔ False := by
    refine iff_of_false ?_ id
    rintro ⟨failure, hfailure⟩
    cases hfailure
  cases c with
  | check _ registrations =>
    refine ⟨fun path => .ok (checkNotice files registrations path), fun inputs hliteral => ?_, hnever _⟩
    rw [reply, withInputs, run, files.resolve_of_literal hliteral, Reply.ofReports_eq_of_forall fun _ => rfl]
    rfl
  | length _ =>
    refine ⟨lengthNotice files, fun inputs hliteral => ?_, fun _ => exists_lengthNotice_eq_error_iff⟩
    rw [reply, withInputs, run, files.resolve_of_literal hliteral, ← lengthReply_eq]
    rfl
  | validate schema registrations property? _ =>
    obtain ⟨session, compiled, hsession, hcompiled⟩ := h
    let opened : Session := { session with compiled? := some (.ok compiled) }
    refine ⟨fun path => .ok (valueNotice files opened property? path), fun inputs hliteral => ?_, hnever _⟩
    have hopened : session.compiledOrFail = .ok opened := by rw [Session.compiledOrFail, hcompiled]
    rw [reply, withInputs, run, hsession, Except.ok_bind, hopened, Except.ok_bind,
      files.resolve_of_literal hliteral, Reply.ofReports_eq_of_forall fun _ => rfl]
    rfl
  | outline => exact h.elim

/-- A single input is its own order. -/
theorem sort_singleton (input : String) : Path.sort [input] = [input] := by
  simp [Path.sort]

/-- Each input is reported on as it is alone unless one that ends the command stands before another. -/
theorem reportsEach_iff_forall (hready : c.IsReady files) {inputs : List String}
    (hliteral : ∀ input ∈ inputs, Glob.isPattern input = false) : c.ReportsEach files inputs ↔
      ∀ before input after, Path.sort inputs = before ++ input :: after → c.StopsAt files input → after = [] := by
  obtain ⟨report, hreply, hstops⟩ := exists_reports hready
  have hsame {α : Type} (part : Reply → List α) :
      (Path.sort inputs).flatMap (fun input => part ((c.withInputs [input]).reply files)) =
        (Path.sort inputs).flatMap fun input => part (Reply.ofReports report [input]) := by
    refine List.flatMap_congr fun input hinput => ?_
    rw [hreply [input] (by simpa using hliteral input ((Path.pairwise_sort inputs).1.subset hinput)), sort_singleton]
  rw [ReportsEach, hreply inputs hliteral, hsame Reply.notices, hsame fun r => r.failure?.toList, Reply.ofReports_eq_iff]
  simp only [hstops]

/-- **The inputs of a command are independent of each other**, but for those that end the command.  Sorting orders their
paths; each has one report of its own; the command succeeds if it would for each input; and it reports on each input
as it would on that input alone, unless one that ends it stands before another. -/
theorem reportsEach_iff (files : Files) (c : Command) (inputs : List String) (hready : c.IsReady files)
    (hliteral : ∀ input ∈ inputs, Glob.isPattern input = false) :
    ((Path.sort inputs).Perm inputs ∧
      (Path.sort inputs).Pairwise fun a b => (Path.ofString a).le (Path.ofString b) = true) ∧
    (∀ input ∈ inputs, ((c.withInputs [input]).reply files).reportCount = 1) ∧
    (((c.withInputs inputs).reply files).exitCode = 0 ↔
      ∀ input ∈ inputs, ((c.withInputs [input]).reply files).exitCode = 0) ∧
    (c.ReportsEach files inputs ↔
      ∀ before input after, Path.sort inputs = before ++ input :: after → c.StopsAt files input → after = []) := by
  obtain ⟨report, hreply, -⟩ := exists_reports hready
  have hsorted := Path.pairwise_sort inputs
  have hsingle : ∀ input ∈ inputs, (c.withInputs [input]).reply files = Reply.ofReports report [input] := by
    intro input hinput
    rw [hreply [input] (by simpa using hliteral input hinput), sort_singleton]
  refine ⟨hsorted, fun input hinput => ?_, ?_, reportsEach_iff_forall hready hliteral⟩
  · rw [hsingle input hinput]
    exact Reply.reportCount_ofReports_singleton report input
  · rw [hreply inputs hliteral, Reply.exitCode_ofReports_eq_zero_iff]
    simp only [hsorted.1.mem_iff]
    exact forall₂_congr fun input hinput => by rw [hsingle input hinput]

/-- What is printed for inputs that are each reported on is what is printed for one after another. -/
theorem ReportsEach.printed {inputs : List String} (h : c.ReportsEach files inputs) :
    ((c.withInputs inputs).reply files).output =
        String.join ((Path.sort inputs).map fun input => ((c.withInputs [input]).reply files).output) ∧
      ((c.withInputs inputs).reply files).complaint =
        String.join ((Path.sort inputs).map fun input => ((c.withInputs [input]).reply files).complaint) := by
  obtain ⟨hnotices, hfailures⟩ := h
  refine ⟨?_, ?_⟩
  · rw [Reply.output, hnotices, Reply.join_flatMap]
    rfl
  · simp only [Reply.complaint_eq_join]
    rw [hfailures, Reply.join_flatMap]

/-- A schema and a value of it, each in a file. -/
def twoFiles : Files := Disk.files ⟨[(["schema"], .file (Bytes.ofString "1")), (["value"], .file (Bytes.ofString "2"))]⟩

/-- Whether a command can go on to its inputs. -/
def goesOn (files : Files) : Command → Bool
  | validate schema registrations _ _ =>
    match registrations.session files schema >>= Session.compiledOrFail with
    | .ok _ => true
    | .error _ => false
  | _ => false

theorem isReady_of_goesOn (h : c.goesOn files = true) : c.IsReady files := by
  cases c with
  | validate schema registrations property? inputs =>
    rw [goesOn] at h
    split at h
    · next opened hopened =>
      obtain ⟨session, hsession, hopened⟩ := Except.bind_eq_ok_iff.1 hopened
      rw [Session.compiledOrFail] at hopened
      split at hopened
      · next compiled hcompiled => exact ⟨session, compiled, hsession, hcompiled⟩
      · cases hopened
    · cases h
  | check | length | outline => cases h

theorem sort_missing_value : Path.sort ["missing", "value"] = ["missing", "value"] :=
  List.mergeSort_of_pairwise (by decide)

/-- A value that cannot be read leaves the report on another one as it is. -/
theorem reportsEach_validate_twoFiles : (validate "schema" {} none []).IsReady twoFiles ∧
    (∀ input ∈ ["missing", "value"], Glob.isPattern input = false) ∧
    (validate "schema" {} none []).ReportsEach twoFiles ["missing", "value"] ∧
    ((validate "schema" {} none ["missing", "value"]).reply twoFiles).output =
      "✗ missing\nfailed to read missing: No such file or directory (os error 2)\n✓ value\n" ∧
    ((validate "schema" {} none ["missing", "value"]).reply twoFiles).exitCode ≠ 0 := by
  have hready : (validate "schema" {} none []).IsReady twoFiles := isReady_of_goesOn (by decide +kernel)
  have hliteral : ∀ input ∈ ["missing", "value"], Glob.isPattern input = false := by decide
  obtain ⟨-, -, hexit, hreports⟩ := reportsEach_iff twoFiles _ ["missing", "value"] hready hliteral
  have heach := hreports.2 fun _ _ _ _ hstops => hstops.elim
  refine ⟨hready, hliteral, heach, ?_, fun hzero => ?_⟩
  · have hprinted := heach.printed.1
    rw [sort_missing_value] at hprinted
    exact hprinted.trans (by decide +kernel)
  · have hmissing : ((validate "schema" {} none ["missing"]).reply twoFiles).exitCode = 1 := by decide +kernel
    exact Nat.one_ne_zero (hmissing.symm.trans (hexit.1 hzero "missing" (by simp)))

/-- **Measuring leaves out a schema behind one that cannot be read**, where the other commands report on both. -/
theorem not_reportsEach_length : ¬ ∀ (files : Files) (inputs : List String),
    (∀ input ∈ inputs, Glob.isPattern input = false) → (length inputs).ReportsEach files inputs := by
  intro h
  have hliteral : ∀ input ∈ ["missing", "value"], Glob.isPattern input = false := by decide
  have hready : (length []).IsReady twoFiles := trivial
  have hmissing : (length []).StopsAt twoFiles "missing" := ⟨.notFound, by decide⟩
  have heach : (length []).ReportsEach twoFiles ["missing", "value"] := h twoFiles _ hliteral
  rw [reportsEach_iff_forall hready hliteral] at heach
  cases heach [] "missing" ["value"] sort_missing_value hmissing

end Command
end ExampleSchema
