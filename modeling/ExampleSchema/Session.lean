import ExampleSchema.Outline.Node
import ExampleSchema.Schema.Compile
import ExampleSchema.Schema.EnumRule
import ExampleSchema.Schema.Load
import ExampleSchema.Schema.References
import ExampleSchema.Value.Parse

/-!
# Sessions

A session is a schema document with the types and rules that have been registered for it.  The first
question that needs the compiled schema compiles it, and from then on nothing can be registered.

* `Session.addType`, `Session.addRule`: registering, each of which is an `Addition`.
* `Session.compiled`, `Session.compile`: the outcome of compiling, and the session after it.
* `Session.validate`, `Session.validateMember`: the questions about values.
-/

namespace ExampleSchema

/-- A schema document, what is registered for it, and the outcome of compiling it if that has been
done. -/
structure Session where
  source : Source
  types : List (String × RegisteredType) := []
  rules : EnumRules := []
  compiled? : Option (Outcome Schema) := none
  deriving Inhabited

namespace Session

/-! ## Registering -/

/-- Accepts a name that is well formed and new, while nothing is compiled yet. -/
def checkNew (s : Session) (wellFormed isNew : Bool) (malformed taken : Cause) : Outcome Unit :=
  if s.compiled?.isSome then .error Cause.alreadyCompiled.anywhere
  else if !wellFormed then .error malformed.anywhere
  else if !isNew then .error taken.anywhere
  else .ok ()

/-- Registers a document as a type.  It is loaded under the name of the type, after which its unnamed
types are called. -/
def addType (s : Session) (name : String) (source : Source) : Outcome Session := do
  s.checkNew (isUserTypeName name) (!Catalog.contains s.types name) (.badTypeName name)
    (.typeExists name)
  let schema ← Schema.load source name
  return { s with types := Catalog.insert s.types name { schema, source } }

/-- Registers an enum rule. -/
def addRule (s : Session) (name : String) (rule : Enumeration) : Outcome Session := do
  s.checkNew (isUserTypeName name) (!Catalog.contains s.rules name) (.badRuleName name)
    (.ruleExists name)
  return { s with rules := Catalog.insert s.rules name rule.items }

/-- A type or a rule to be registered under a name. -/
inductive Addition where
  | type (name : String) (source : Source)
  | rule (name : String) (rule : Enumeration)
  deriving Inhabited

/-- Registers a type or a rule. -/
def add (s : Session) : Addition → Outcome Session
  | .type name source => s.addType name source
  | .rule name rule => s.addRule name rule

/-- Registers types and rules one after another. -/
def addAll (s : Session) (additions : List Addition) : Outcome Session := additions.foldlM add s

/-! ## Reading -/

/-- How many bytes at the start of the document are the schema. -/
def length (s : Session) : Outcome Nat := Scan.length s.source

/-- The schema of the document on its own. -/
def load (s : Session) : Outcome Schema := Schema.load s.source s.source.name

/-- The types of the user that the document refers to. -/
def userTypes (s : Session) : Outcome (List String) := Schema.userTypes <$> s.load

/-! ## Compiling -/

/-- The outcome of compiling. -/
def compiled (s : Session) : Outcome Schema :=
  match s.compiled? with
  | some outcome => outcome
  | none => do (← s.load).compile s.types s.rules

/-- The session after its schema has been compiled. -/
def compile (s : Session) : Session := { s with compiled? := some s.compiled }

/-- Compiling again gives the same outcome. -/
@[simp] theorem compiled_compile (s : Session) : s.compile.compiled = s.compiled := rfl

/-- The outline of the compiled schema. -/
def outline (s : Session) : Outcome Outline := do return (← s.compiled).root.outline none

/-! ## Validating -/

/-- Accepts the texts of values of the schema. -/
def validate (s : Session) (text : Bytes) : Outcome Unit := do
  let schema ← s.compiled
  schema.accept (← Value.parse ⟨"value", text⟩)

/-- Accepts the texts of values that a member of the root object may have. -/
def validateMember (s : Session) (name : String) (text : Bytes) : Outcome Unit := do
  let schema ← s.compiled
  schema.acceptMember name (← Value.parse ⟨name, text⟩)

end Session
end ExampleSchema
