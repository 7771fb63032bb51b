import ExampleSchema.Type.Json

/-!
# Built-in types

The types that a rule can name.  Some are the JSON types themselves; the others narrow one, either
by a format of its strings, or, for `enum`, `mixed` and `any`, without settling the JSON type.
-/

namespace ExampleSchema

/-- A format that the text of a string can have. -/
inductive Format where
  | email
  | uri
  | uuid
  | date
  | dateTime
  deriving Repr, DecidableEq, Inhabited

namespace Format

/-- All formats. -/
def every : List Format := [.email, .uri, .uuid, .date, .dateTime]

/-- The name of the format. -/
def name : Format → String
  | .email => "email"
  | .uri => "uri"
  | .uuid => "uuid"
  | .date => "date"
  | .dateTime => "datetime"

end Format

/-- A built-in type that a rule can name. -/
inductive BuiltinType where
  | string
  | integer
  | float
  | decimal
  | boolean
  | array
  | object
  | null
  | email
  | uri
  | uuid
  | date
  | dateTime
  | enum
  | mixed
  | any
  deriving Repr, DecidableEq, Inhabited

namespace BuiltinType

/-- All built-in types. -/
def every : List BuiltinType :=
  [.string, .integer, .float, .decimal, .boolean, .array, .object, .null, .email, .uri, .uuid,
    .date, .dateTime, .enum, .mixed, .any]

theorem mem_every (t : BuiltinType) : t ∈ every := by cases t <;> decide

/-- The name of the type. -/
def name : BuiltinType → String
  | .string => "string"
  | .integer => "integer"
  | .float => "float"
  | .decimal => "decimal"
  | .boolean => "boolean"
  | .array => "array"
  | .object => "object"
  | .null => "null"
  | .email => "email"
  | .uri => "uri"
  | .uuid => "uuid"
  | .date => "date"
  | .dateTime => "datetime"
  | .enum => "enum"
  | .mixed => "mixed"
  | .any => "any"

/-- The type of a name. -/
def ofName? (name : String) : Option BuiltinType := every.find? fun t => t.name == name

/-- The JSON type of its values, `mixed` where the type does not settle it. -/
def jsonType : BuiltinType → JsonType
  | .string | .email | .uri | .uuid | .date | .dateTime => .string
  | .integer => .integer
  | .float | .decimal => .float
  | .boolean => .boolean
  | .array => .array
  | .object => .object
  | .null => .null
  | .enum | .mixed | .any => .mixed

/-- Whether the type is not one of the JSON types. -/
def isRefinement : BuiltinType → Bool
  | .decimal | .email | .uri | .uuid | .date | .dateTime | .enum | .mixed | .any => true
  | .string | .integer | .float | .boolean | .array | .object | .null => false

/-- The format that values of the type must have. -/
def format? : BuiltinType → Option Format
  | .email => some .email
  | .uri => some .uri
  | .uuid => some .uuid
  | .date => some .date
  | .dateTime => some .dateTime
  | .string | .integer | .float | .decimal | .boolean | .array | .object | .null | .enum | .mixed
  | .any => none

/-- Whether the type accepts every value. -/
def isUnrestricted : BuiltinType → Bool
  | .any | .mixed => true
  | _ => false

/-- A format is implied only by types of strings. -/
theorem jsonType_of_format? {t : BuiltinType} {f : Format} (h : t.format? = some f) :
    t.jsonType = .string := by
  cases t <;> simp_all [format?, jsonType]

/-- A name belongs to one type at most. -/
theorem ofName?_name (t : BuiltinType) : ofName? t.name = some t := by
  cases t <;> decide

end BuiltinType

/-- How a message names the type of a node: by the declared type if there is one, by the JSON type
otherwise. -/
inductive TypeLabel where
  | json (type : JsonType)
  | declared (type : BuiltinType)
  deriving Repr, DecidableEq, Inhabited

/-- The name that the label shows. -/
def TypeLabel.name : TypeLabel → String
  | .json type => type.name
  | .declared type => type.name

end ExampleSchema
