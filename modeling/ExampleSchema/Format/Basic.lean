import ExampleSchema.Format.Address
import ExampleSchema.Format.Calendar

/-!
# Formats

`Format.accepts` says which texts have a format.
-/

namespace ExampleSchema
namespace Format

/-- Whether a text has a format. -/
def accepts (format : Format) (text : String) : Bool :=
  match format with
  | .email => isEmail text.toList
  | .uri => isUri text.toList
  | .uuid => isUuid text.toList
  | .date => isDate text.toList
  | .dateTime => isDateTime text.toList

end Format
end ExampleSchema
