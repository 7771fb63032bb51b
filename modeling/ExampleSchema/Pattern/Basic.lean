import ExampleSchema.Pattern.Meaning
import ExampleSchema.Pattern.Parse
import ExampleSchema.Pattern.Search
import ExampleSchema.Pattern.Size

/-!
# Patterns

A regular expression that a string may have to match somewhere.  `Pattern.ofText?` reads one; a text
that is malformed, means nothing or makes too large an automaton is none.
-/

namespace ExampleSchema

/-- A regular expression. -/
structure Pattern where
  /-- The expression as it is written. -/
  text : String
  node : Pattern.Node
  deriving Repr, Inhabited

namespace Pattern

/-- Reads a regular expression. -/
def ofText? (text : String) : Option Pattern := do
  let node ← (← Term.parse? text).meaning?
  if node.isSmall then some { text, node } else none

/-- Whether a text has a part that the expression matches. -/
def occursIn (pattern : Pattern) (text : String) : Bool := pattern.node.occursIn text

end Pattern
end ExampleSchema
