import ExampleSchema.Text.CharSet

/-!
# Blank characters

Messages drop the blanks around the texts they quote.  A blank is any character with the white space
property, not only the four that separate the tokens of a document.
-/

namespace ExampleSchema

/-- The characters with the white space property. -/
def blanks : CharSet := .ofTable "9-D 20 85 A0 1680 2000-200A 2028 2029 202F 205F 3000"

/-- A character with the white space property. -/
def isBlank (c : Char) : Bool := blanks.contains c.toNat

/-- A text without the blanks at its end. -/
def trimRight (text : String) : String :=
  String.ofList (text.toList.reverse.dropWhile isBlank).reverse

/-- A text without the blanks at either end. -/
def trimBoth (text : String) : String :=
  trimRight (String.ofList (text.toList.dropWhile isBlank))

end ExampleSchema
