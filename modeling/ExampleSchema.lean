import ExampleSchema.Decimal.Binary
import ExampleSchema.Main
import ExampleSchema.Proofs.Expansion.Inherit
import ExampleSchema.Proofs.Tree
import ExampleSchema.Proofs.Expansion.Endless
import ExampleSchema.Proofs.Scan.History
import ExampleSchema.Proofs.Scan.Shape
import ExampleSchema.Scan.Reader
import ExampleSchema.Proofs.Scan.Step
import ExampleSchema.Proofs.Scan.Reading
import ExampleSchema.Proofs.Scan.Completion
import ExampleSchema.Proofs.Scan.Trailing
import ExampleSchema.Proofs.Json.Grammar
import ExampleSchema.Proofs.Json.Number
import ExampleSchema.Proofs.Json.Tokens
import ExampleSchema.Proofs.Json.Events
import ExampleSchema.Proofs.Json.Recognition
import ExampleSchema.Proofs.Json.Building
import ExampleSchema.Proofs.Accept.Acceptance
import ExampleSchema.Proofs.Accept.Visits
import ExampleSchema.Proofs.Accept.Levels
import ExampleSchema.Proofs.Types
import ExampleSchema.Proofs.Unions
import ExampleSchema.Proofs.Validation
import ExampleSchema.Proofs.Enforcement
import ExampleSchema.Proofs.Mismatch
import ExampleSchema.Proofs.Samples
import ExampleSchema.Proofs.Example
import ExampleSchema.Proofs.Faults
import ExampleSchema.Proofs.Members
import ExampleSchema.Proofs.Builtin
import ExampleSchema.Proofs.Dialogue
import ExampleSchema.Proofs.Registration
import ExampleSchema.Proofs.Spelling
import ExampleSchema.Proofs.Order.Verdict
import ExampleSchema.Proofs.Satisfiable
import ExampleSchema.Proofs.Expansion.Reference
import ExampleSchema.Proofs.Accept.Unlimited
import ExampleSchema.Proofs.Accept.Hops
import ExampleSchema.Proofs.Location.Validation
import ExampleSchema.Proofs.Reported
import ExampleSchema.Proofs.Cycles
import ExampleSchema.Proofs.Load.Consistency
import ExampleSchema.Proofs.Enumerations
import ExampleSchema.Proofs.Json.Repeats
import ExampleSchema.Proofs.Load.Values
import ExampleSchema.Proofs.Decimal.Value
import ExampleSchema.Proofs.Decimal.Reading
import ExampleSchema.Proofs.Decimal.Order
import ExampleSchema.Proofs.Scan.Course
import ExampleSchema.Proofs.Load.Annotated
import ExampleSchema.Proofs.Load.Step
import ExampleSchema.Proofs.Load.Places
import ExampleSchema.Proofs.Load.Placement
import ExampleSchema.Proofs.Load.Recording
import ExampleSchema.Proofs.Load.Comments
import ExampleSchema.Proofs.Decimal.Writing
import ExampleSchema.Proofs.Decimal.Checking
import ExampleSchema.Proofs.Json.Spans
import ExampleSchema.Proofs.Scan.Plain
import ExampleSchema.Proofs.Json.Encoding
import ExampleSchema.Proofs.Literals
import ExampleSchema.Proofs.Shortcut.Written
import ExampleSchema.Proofs.Shortcut.Rules
import ExampleSchema.Proofs.Scan.HashComments
import ExampleSchema.Proofs.Load.Unplaced
import ExampleSchema.Proofs.Load.Relocated
import ExampleSchema.Proofs.Load.HashComments
import ExampleSchema.Proofs.Outline
import ExampleSchema.Proofs.Inputs
import ExampleSchema.Proofs.Lines
