import ExampleSchema.Text.Utf8

/-!
# Quoted text

The string literals of JSON: `encode` writes one, `decode?` reads one.

`encode` escapes what it must and nothing else: the quote, the backslash and the control characters
below U+0020, the common ones by their letter and the others as `\u00xx` in lower case.

`decode?` reads exactly one literal, with blanks allowed around it.  Inside, a control character has
to be escaped, a pair of surrogate escapes stands for one character, a surrogate without its partner
is refused, and the bytes that are not escaped must be UTF-8.
-/

namespace ExampleSchema
namespace Quoted

/-! ## Writing -/

/-- A digit of a hexadecimal number, in lower case. -/
def hexDigit (n : Nat) : Char :=
  if n < 10 then Char.ofNat ('0'.toNat + n) else Char.ofNat ('a'.toNat + (n - 10))

/-- How one character stands inside a literal. -/
def encodeChar (c : Char) : List Char :=
  match c with
  | '"' => ['\\', '"']
  | '\\' => ['\\', '\\']
  | '\x08' => ['\\', 'b']
  | '\x0c' => ['\\', 'f']
  | '\n' => ['\\', 'n']
  | '\r' => ['\\', 'r']
  | '\t' => ['\\', 't']
  | c =>
    if c.toNat < 0x20 then ['\\', 'u', '0', '0', hexDigit (c.toNat / 16), hexDigit (c.toNat % 16)]
    else [c]

/-- A text as a literal. -/
def encode (text : String) : String :=
  String.ofList ('"' :: text.toList.flatMap encodeChar ++ ['"'])

/-! ## Reading -/

/-- What a one-letter escape stands for. -/
def letterEscape? (b : UInt8) : Option Char :=
  match Bytes.char b with
  | '"' => some '"'
  | '\\' => some '\\'
  | '/' => some '/'
  | 'b' => some '\x08'
  | 'f' => some '\x0c'
  | 'n' => some '\n'
  | 'r' => some '\r'
  | 't' => some '\t'
  | _ => none

/-- The number that four hexadecimal digits write. -/
def hexUnit? (a b c d : UInt8) : Option Nat := do
  let a ← Bytes.hexValue? a
  let b ← Bytes.hexValue? b
  let c ← Bytes.hexValue? c
  let d ← Bytes.hexValue? d
  return ((a * 16 + b) * 16 + c) * 16 + d

/-- The bytes that one `\uXXXX` escape stands for, with what follows it.  `unit` is its number and
`rest` the text after its digits; a high surrogate takes the escape after it along. -/
def unitEscape? (unit : Nat) (rest : Bytes) : Option (Bytes × Bytes) :=
  if 0xDC00 ≤ unit ∧ unit ≤ 0xDFFF then none
  else if 0xD800 ≤ unit ∧ unit ≤ 0xDBFF then
    match rest with
    | backslash :: u :: a :: b :: c :: d :: rest =>
      if Bytes.char backslash = '\\' ∧ Bytes.char u = 'u' then
        match hexUnit? a b c d with
        | some low =>
          if 0xDC00 ≤ low ∧ low ≤ 0xDFFF then
            some (Utf8.encode [Char.ofNat (0x10000 + (unit - 0xD800) * 0x400 + (low - 0xDC00))],
              rest)
          else none
        | none => none
      else none
    | _ => none
  else some (Utf8.encode [Char.ofNat unit], rest)

/-- An escape never gives back more than the text after its digits. -/
theorem length_unitEscape?_le {unit : Nat} {rest out left : Bytes}
    (h : unitEscape? unit rest = some (out, left)) : left.length ≤ rest.length := by
  unfold unitEscape? at h
  repeat' split at h
  all_goals simp_all
  all_goals grind

/-- The bytes of a literal whose opening quote has been read, up to a closing quote that ends the
text. -/
def body? : Bytes → Option Bytes
  | [] => none
  | b :: rest =>
    if Bytes.char b = '"' then
      if rest.isEmpty then some [] else none
    else if Bytes.char b = '\\' then
      match rest with
      | [] => none
      | e :: rest =>
        if Bytes.char e = 'u' then
          match rest with
          | p :: q :: r :: s :: rest =>
            match hexUnit? p q r s with
            | none => none
            | some unit =>
              match h : unitEscape? unit rest with
              | none => none
              | some (out, left) =>
                have : left.length ≤ rest.length := length_unitEscape?_le h
                (body? left).map (out ++ ·)
          | _ => none
        else match letterEscape? e with
          | none => none
          | some c => (body? rest).map (Utf8.encode [c] ++ ·)
    else if b < 0x20 then none
    else (body? rest).map (b :: ·)
termination_by text => text.length
decreasing_by all_goals simp_all <;> omega

/-- The text of a literal, blanks around it allowed. -/
def decode? (literal : Bytes) : Option String :=
  match literal.trim with
  | b :: rest => if Bytes.char b = '"' then (body? rest).bind Utf8.decode? else none
  | [] => none

end Quoted
end ExampleSchema
