import ExampleSchema.Text.Invisible

/-!
# Text in messages

How a message shows a text or a byte so that every character of it can be seen.

* `Escaped.encode`: a text between double quotes.  Quote and backslash get a backslash, the common
  controls their letter, and every other character that does not show its number, as `\u` and the
  hexadecimal number in braces.
* `Escaped.byte`: one byte between single quotes, by its number unless it is a visible ASCII
  character.
-/

namespace ExampleSchema
namespace Escaped

/-- The digits of a number in base 16, in lower case. -/
def hex (n : Nat) : List Char := Nat.toDigits 16 n

/-- How one character stands inside the quotes. -/
def encodeChar (c : Char) : List Char :=
  match c with
  | '"' => ['\\', '"']
  | '\\' => ['\\', '\\']
  | '\n' => ['\\', 'n']
  | '\r' => ['\\', 'r']
  | '\t' => ['\\', 't']
  | '\x00' => ['\\', '0']
  | c => if invisible.contains c.toNat then ['\\', 'u', '{'] ++ hex c.toNat ++ ['}'] else [c]

/-- A text between double quotes, each character visible. -/
def encode (text : String) : String :=
  String.ofList ('"' :: text.toList.flatMap encodeChar ++ ['"'])

/-- A number below 256 as two hexadecimal digits. -/
def hexByte (b : UInt8) : List Char :=
  if b < 16 then '0' :: hex b.toNat else hex b.toNat

/-- One byte between single quotes; a single quote itself stands between double ones. -/
def byte (b : UInt8) : String :=
  match Bytes.char b with
  | '\n' => "'\\n'"
  | '\r' => "'\\r'"
  | '\t' => "'\\t'"
  | '\'' => "\"'\""
  | c =>
    if 0x20 ≤ b ∧ b ≤ 0x7E then String.ofList ['\'', c, '\'']
    else String.ofList (['\'', '\\', 'x'] ++ hexByte b ++ ['\''])

end Escaped
end ExampleSchema
