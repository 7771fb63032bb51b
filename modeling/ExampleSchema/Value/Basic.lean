import ExampleSchema.Catalog
import ExampleSchema.Event
import ExampleSchema.Type.Json

/-!
# Values

A value is a JSON text read into a tree that keeps, in place of copies, marks of where each part was
written.  An object lists its members in the order in which their names first came; a name that
comes again replaces the member but not its place.
-/

namespace ExampleSchema

/-- A JSON value.  The mark spans the value. -/
inductive Value where
  | literal (mark : Mark)
  /-- The members: name, mark of the name as written, value. -/
  | object (mark : Mark) (members : List (String × Mark × Value))
  | array (mark : Mark) (items : List Value)
  deriving Inhabited

namespace Value

/-- The mark that spans the value. -/
def mark : Value → Mark
  | literal mark | object mark _ | array mark _ => mark

/-- The bytes of the value. -/
def bytes (v : Value) : Bytes := v.mark.bytes

/-- The bytes of the value as text. -/
def text (v : Value) : String := v.mark.text

/-- The type of the value. -/
def jsonType : Value → JsonType
  | literal mark => (JsonType.ofBytes? mark.bytes).getD .mixed
  | object _ _ => .object
  | array _ _ => .array

/-- Whether the value is `null`. -/
def isNull (v : Value) : Bool := v.jsonType == .null

@[simp] theorem jsonType_object (m : Mark) (members : List (String × Mark × Value)) :
    (object m members).jsonType = .object := rfl

@[simp] theorem jsonType_array (m : Mark) (items : List Value) :
    (array m items).jsonType = .array := rfl

end Value
end ExampleSchema
