/-!
# Arguments

What the program is asked to do, read from its arguments.  Options take their values from the same
argument (`-iX`, `-i=X`, `--input=X`) or from the arguments after it; `--` ends the options.

* `Command`: what the program can do.
* `Invocation.ofArguments`: what a list of arguments asks for.
-/

namespace ExampleSchema

/-- What is registered for a schema: names, each with the file it is read from. -/
structure Registrations where
  types : List (String × String) := []
  rules : List (String × String) := []
  deriving DecidableEq, Inhabited

/-- What the program can do. -/
inductive Command where
  /-- Check every schema. -/
  | check (inputs : List String) (registrations : Registrations)
  /-- Write the outline of a schema, into a file if one is given. -/
  | outline (schema : String) (registrations : Registrations) (out? : Option String)
  /-- Measure every schema. -/
  | length (inputs : List String)
  /-- Validate values of a schema, or of a property of its root object. -/
  | validate (schema : String) (registrations : Registrations) (property? : Option String)
      (inputs : List String)
  deriving DecidableEq, Inhabited

/-- What arguments ask for. -/
inductive Invocation where
  /-- The arguments are in disorder. -/
  | refused
  | help
  | version
  | run (command : Command)
  deriving DecidableEq

/-- The options of the commands. -/
inductive Switch where
  | input
  | type
  | rule
  | out
  | schema
  | property
  | verbose
  | help
  deriving DecidableEq

/-- The words that choose a command. -/
inductive Task where
  | check
  | outline
  | length
  | validate
  deriving DecidableEq

namespace Task

/-- The command that a word chooses. -/
def ofWord? : String → Option Task
  | "check" => some check
  | "ast" => some outline
  | "length" => some length
  | "validate" => some validate
  | _ => none

/-- The options of a command that take values. -/
def options : Task → List Switch
  | check => [.input, .type, .rule]
  | outline => [.type, .rule, .out]
  | length => [.input]
  | validate => [.schema, .type, .rule, .property, .input]

/-- Whether a command knows an option. -/
def knows (t : Task) : Switch → Bool
  | .verbose | .help => true
  | s => t.options.contains s

end Task

namespace Switch

/-- The option with a long name. -/
def ofLong? : String → Option Switch
  | "input" => some input
  | "type" => some type
  | "rule" => some rule
  | "out" => some out
  | "schema" => some schema
  | "property" => some property
  | "verbose" => some verbose
  | "help" => some help
  | _ => none

/-- The option with a short name. -/
def ofShort? : Char → Option Switch
  | 'i' => some input
  | 'o' => some out
  | 's' => some schema
  | 'v' => some verbose
  | 'h' => some help
  | _ => none

end Switch

/-- What the arguments of a command have set. -/
structure Settings where
  inputs : List String := []
  types : List (String × String) := []
  rules : List (String × String) := []
  out? : Option String := none
  schema? : Option String := none
  property? : Option String := none
  operand? : Option String := none

namespace Settings

/-- A user type or rule and its file, written `@Name=path`. -/
def named? (text : String) : Option (String × String) :=
  let name := text.toList.takeWhile (· != '=')
  match name.head?, (text.toList.drop name.length).drop 1 with
  | some '@', path@(_ :: _) => some (String.ofList name, String.ofList path)
  | _, _ => none

/-- A value that is set for the first time and, if it is the path of a file, is not empty. -/
def once (old? : Option String) (isPath : Bool) (value : String) : Option (Option String) :=
  if old?.isSome || (isPath && value.isEmpty) then none else some (some value)

/-- Sets an option to values, unless they do not suit it. -/
def set (s : Settings) (switch : Switch) (values : List String) : Option Settings :=
  match switch, values with
  | .input, _ :: _ => some { s with inputs := s.inputs ++ values }
  | .type, [v] => do return { s with types := s.types ++ [← named? v] }
  | .rule, [v] => do return { s with rules := s.rules ++ [← named? v] }
  | .out, [v] => do return { s with out? := ← once s.out? true v }
  | .schema, [v] => do return { s with schema? := ← once s.schema? true v }
  | .property, [v] => do return { s with property? := ← once s.property? false v }
  | _, _ => none

/-- Sets the operand of a command that has one. -/
def setOperand (s : Settings) (t : Task) (value : String) : Option Settings :=
  if t == .outline then do return { s with operand? := ← once s.operand? true value } else none

/-- The registrations among the settings. -/
def registrations (s : Settings) : Registrations := ⟨s.types, s.rules⟩

/-- The command that the settings complete. -/
def command? (s : Settings) (t : Task) : Option Command :=
  match t with
  | .outline => do return .outline (← s.operand?) s.registrations s.out?
  | .validate =>
    if s.inputs.isEmpty then none
    else do return .validate (← s.schema?) s.registrations s.property? s.inputs
  | .check => if s.inputs.isEmpty then none else some (.check s.inputs s.registrations)
  | .length => if s.inputs.isEmpty then none else some (.length s.inputs)

end Settings

/-- An argument, by its shape. -/
inductive Argument where
  /-- The argument `--`. -/
  | stop
  /-- A long name, perhaps with a value. -/
  | long (name : String) (value? : Option String)
  /-- Short names, perhaps with a value at the end. -/
  | short (names : List Char)
  /-- A text. -/
  | plain (text : String)

/-- The shape of an argument.  A lone `-` is a text. -/
def Argument.ofString (text : String) : Argument :=
  match text.toList with
  | ['-', '-'] => stop
  | '-' :: '-' :: rest =>
    let name := rest.takeWhile (· != '=')
    match rest.drop name.length with
    | _ :: value => long (String.ofList name) (some (String.ofList value))
    | [] => long (String.ofList name) none
  | '-' :: c :: rest => short (c :: rest)
  | _ => plain text

/-- How far the arguments of a command have been read: what they set, and the option that may take
further arguments, with those it has. -/
structure ArgumentState where
  settings : Settings := {}
  open? : Option (Switch × List String) := none

namespace ArgumentState

/-- Why reading stops early. -/
inductive Stop where
  | refused
  | help

/-- Refuses where there is no result. -/
def orRefuse {α : Type} : Option α → Except Stop α
  | some a => .ok a
  | none => .error .refused

/-- Gives the open option its values. -/
def close (s : ArgumentState) : Except Stop Settings :=
  match s.open? with
  | some (switch, values) => orRefuse (s.settings.set switch values)
  | none => .ok s.settings

/-- An option without a value of its own, which may take the arguments that follow. -/
def begin (t : Task) (settings : Settings) (switch : Switch) : Except Stop ArgumentState :=
  if !t.knows switch then .error .refused
  else match switch with
    | .help => .error .help
    | .verbose => .ok ⟨settings, none⟩
    | _ => .ok ⟨settings, some (switch, [])⟩

/-- An option with its value. -/
def assign (t : Task) (settings : Settings) (switch : Switch) (value : String) :
    Except Stop ArgumentState :=
  if t.options.contains switch then do return ⟨← orRefuse (settings.set switch [value]), none⟩
  else .error .refused

/-- Short names.  What follows an option that takes values is its value, after `=` if there is one. -/
def cluster (t : Task) (settings : Settings) : List Char → Except Stop ArgumentState
  | [] => .ok ⟨settings, none⟩
  | c :: rest => do
    let switch ← orRefuse (Switch.ofShort? c)
    match rest with
    | [] => begin t settings switch
    | next :: more =>
      if t.options.contains switch then
        assign t settings switch (String.ofList (if next == '=' then more else rest))
      else do
        let s ← begin t settings switch
        cluster t s.settings rest

/-- A text that no option stands before.  An option for one value is full with it. -/
def text (t : Task) (s : ArgumentState) (value : String) : Except Stop ArgumentState :=
  match s.open? with
  | some (.input, values) => .ok { s with open? := some (.input, values ++ [value]) }
  | some (switch, _) => do return ⟨← orRefuse (s.settings.set switch [value]), none⟩
  | none => do return ⟨← orRefuse (s.settings.setOperand t value), none⟩

/-- Reads the arguments of a command. -/
def read (t : Task) (s : ArgumentState) : List String → Except Stop Settings
  | [] => s.close
  | argument :: rest => do
    match Argument.ofString argument with
    | .plain value => read t (← text t s value) rest
    | .stop => rest.foldlM (fun settings value => orRefuse (settings.setOperand t value)) (← s.close)
    | .long name value? => do
      let settings ← s.close
      let switch ← orRefuse (Switch.ofLong? name)
      match value? with
      | some value => read t (← assign t settings switch value) rest
      | none => read t (← begin t settings switch) rest
    | .short names => read t (← cluster t (← s.close) names) rest

end ArgumentState

namespace Invocation

/-- What the arguments after the word of a command ask for. -/
def ofTask (t : Task) (arguments : List String) : Invocation :=
  match ArgumentState.read t {} arguments with
  | .error .help => help
  | .error .refused => refused
  | .ok settings =>
    match settings.command? t with
    | some command => run command
    | none => refused

/-- What is asked for by short names that stand before the word of a command, if they ask for
anything. -/
def ofFlags : List Char → Option Invocation
  | [] => none
  | 'v' :: rest => ofFlags rest
  | 'h' :: _ => some help
  | 'V' :: _ => some version
  | _ => some refused

/-- What is asked for by the arguments after the word `help`. -/
def ofTopic : List String → Invocation
  | [] => help
  | [word] => if word == "help" || (Task.ofWord? word).isSome then help else refused
  | _ => refused

/-- What arguments ask for. -/
def ofArguments : List String → Invocation
  | [] => refused
  | argument :: rest =>
    match Argument.ofString argument with
    | .long "verbose" none => ofArguments rest
    | .long "help" none => help
    | .long "version" none => version
    | .short flags => (ofFlags flags).getD (ofArguments rest)
    | .plain "help" => ofTopic rest
    | .plain word =>
      match Task.ofWord? word with
      | some t => ofTask t rest
      | none => refused
    | _ => refused

end Invocation
end ExampleSchema
