import ExampleSchema.Text.Bytes

/-!
# JSON types

The types a JSON value can have, told apart by its first byte.  Whole numbers and other numbers are
two types, by how the number is written: a point or an exponent makes it a float.  `mixed` is the
type of what is not known before user types are looked up.
-/

namespace ExampleSchema

/-- The type of a JSON value. -/
inductive JsonType where
  | string
  | integer
  | float
  | boolean
  | array
  | object
  | null
  /-- Not known until user types are resolved. -/
  | mixed
  deriving Repr, DecidableEq, Inhabited

namespace JsonType

/-- All types, in the order in which sets of types are listed. -/
def every : List JsonType := [.string, .integer, .float, .boolean, .array, .object, .null, .mixed]

theorem mem_every (t : JsonType) : t ∈ every := by cases t <;> decide

/-- The name of the type. -/
def name : JsonType → String
  | .string => "string"
  | .integer => "integer"
  | .float => "float"
  | .boolean => "boolean"
  | .array => "array"
  | .object => "object"
  | .null => "null"
  | .mixed => "mixed"

/-- The type of the value that a text writes, judged by its first byte alone; for a number, by
whether a point or an exponent letter follows anywhere. -/
def ofBytes? (text : Bytes) : Option JsonType :=
  match text.trim with
  | [] => none
  | first :: rest =>
    match Bytes.char first with
    | '"' => some .string
    | '{' => some .object
    | '[' => some .array
    | 't' | 'f' => some .boolean
    | 'n' => some .null
    | '@' => some .mixed
    | c =>
      if c == '-' || c.isDigit then
        if rest.any fun b => Bytes.char b == '.' || Bytes.char b == 'e' || Bytes.char b == 'E' then
          some .float
        else some .integer
      else none

/-- Whether values of the type have no parts. -/
def isLiteral : JsonType → Bool
  | .string | .integer | .float | .boolean | .null => true
  | .array | .object | .mixed => false

/-- Whether a value of type `actual` may stand where `expected` is declared: whole numbers are
accepted wherever floats are. -/
def fits (actual expected : JsonType) : Bool :=
  actual == expected || (actual == .integer && expected == .float)

@[simp] theorem fits_self (t : JsonType) : t.fits t = true := by cases t <;> rfl

end JsonType
end ExampleSchema
