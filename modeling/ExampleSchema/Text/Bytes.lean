/-!
# Bytes

Documents are read as bytes: offsets, columns and spans all count bytes, and a text need not be
valid UTF-8.  A byte is classified through the character with the same number, so the classes below
are the ASCII ones, and no byte from `0x80` on is in any of them.

* `isSpace`: the four blanks a JSON text may hold between its tokens.
* `trim`: a text without the blanks at either end.
* `isUserTypeName`: the shape of a user type name, `@` and at least one name character.
-/

namespace ExampleSchema

/-- A text as it is stored: a sequence of bytes. -/
abbrev Bytes := List UInt8

namespace Bytes

/-- The character whose number is the byte. -/
abbrev char (b : UInt8) : Char := Char.ofUInt8 b

/-- A line ends with a line feed. -/
def isNewLine (b : UInt8) : Bool := char b == '\n'

/-- The blanks between tokens: space, tab, line feed and carriage return. -/
def isSpace (b : UInt8) : Bool :=
  match char b with
  | ' ' | '\t' | '\n' | '\r' => true
  | _ => false

/-- A decimal digit. -/
def isDigit (b : UInt8) : Bool := (char b).isDigit

/-- The value of a hexadecimal digit in either case. -/
def hexValue? (b : UInt8) : Option Nat :=
  let c := char b
  if '0' ≤ c ∧ c ≤ '9' then some (c.toNat - '0'.toNat)
  else if 'a' ≤ c ∧ c ≤ 'f' then some (c.toNat - 'a'.toNat + 10)
  else if 'A' ≤ c ∧ c ≤ 'F' then some (c.toNat - 'A'.toNat + 10)
  else none

/-- A hexadecimal digit in either case. -/
def isHexDigit (b : UInt8) : Bool := (hexValue? b).isSome

/-- A character of a type or rule name: a letter, a digit, `_` or `-`. -/
def isNameChar (b : UInt8) : Bool :=
  (char b).isAlphanum || char b == '_' || char b == '-'

/-- A text without its leading and trailing blanks. -/
def trim (text : Bytes) : Bytes :=
  ((text.dropWhile isSpace).reverse.dropWhile isSpace).reverse

/-- The bytes from offset `start` up to `stop`, as far as the text has them. -/
def slice (text : Bytes) (start stop : Nat) : Bytes :=
  (text.drop start).take (stop - start)

@[simp] theorem trim_nil : trim [] = [] := rfl

/-- A slice is never longer than its two ends are apart. -/
theorem length_slice_le (text : Bytes) (start stop : Nat) :
    (text.slice start stop).length ≤ stop - start := by
  exact List.length_take_le _ _

end Bytes

/-- `@` followed by one or more name characters. -/
def isUserTypeName (name : String) : Bool :=
  match name.toList with
  | '@' :: rest => !rest.isEmpty && rest.all fun c => c.isAlphanum || c == '_' || c == '-'
  | _ => false

end ExampleSchema
