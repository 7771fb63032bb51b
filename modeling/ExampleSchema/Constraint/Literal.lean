import ExampleSchema.Error.Problem
import ExampleSchema.Text.Quoted

/-!
# What literals say

Rules and values are written as literals.  The functions here read a literal as a number or a string,
or say why it is none, and `LiteralKey` is what counts when two literals are compared: the text of a
string, whatever its escapes, but a number as it is written, so that `1` and `1.0` differ.
-/

namespace ExampleSchema
namespace Literal

/-- The number that a text writes. -/
def decimal (literal : Bytes) : Verdict Decimal :=
  match Decimal.parse literal with
  | .ok d => .ok d
  | .error refusal => .error (.notADecimal refusal literal.trim.toText)

/-- The text of a string literal. -/
def string (literal : Bytes) : Verdict String :=
  match Quoted.decode? literal with
  | some text => .ok text
  | none => .error (.notAString literal.toText)

/-- Whether a literal is a number, judged by its first byte. -/
def isNumber (literal : Bytes) : Bool :=
  match JsonType.ofBytes? literal with
  | some .integer | some .float => true
  | _ => false

/-- Whether a literal is a string, judged by its first byte. -/
def isString (literal : Bytes) : Bool := JsonType.ofBytes? literal == some .string

/-- The number of a value that has to be one. -/
def decimalValue (value : Bytes) : Verdict Decimal :=
  if isNumber value then decimal value else .error (.numberExpected value.trim.toText)

/-- The text of a value that has to be a string. -/
def stringValue (value : Bytes) : Verdict String :=
  if isString value then string value else .error (.stringExpected value.trim.toText)

end Literal

/-- A literal for comparison. -/
inductive LiteralKey where
  | string (text : String)
  | number (text : String)
  | boolean (value : Bool)
  | null
  deriving Repr, DecidableEq, Inhabited

namespace LiteralKey

/-- What a literal is compared by. -/
def ofBytes (literal : Bytes) : Verdict LiteralKey :=
  let literal := literal.trim
  match JsonType.ofBytes? literal with
  | some .string => do return .string (← Literal.string literal)
  | some .integer | some .float => .ok (.number literal.toText)
  | some .boolean => .ok (.boolean (literal == Bytes.ofString "true"))
  | some .null => .ok .null
  | _ => .error (.notALiteral literal.toText)

/-- The literal in a message: a string with the escapes it needs, a number as written. -/
def text : LiteralKey → String
  | string text => Quoted.encode text
  | number text => text
  | boolean value => toString value
  | null => "null"

end LiteralKey
end ExampleSchema
