import ExampleSchema.Text.Bytes

/-!
# UTF-8

The encoding of a text, its strict decoding, and the forgiving decoding that error messages use.

The two decoders share one function, `next`, which reads the first character of a non-empty text or
says how many bytes of it cannot begin one.  The forgiving decoder writes one replacement character
for each such group: a group is as long as the bytes still agree with some well-formed character,
and at least one byte.

* `encode`: the bytes of a text.
* `decode?`: the text, or nothing when some group of bytes is not a character.
* `decodeLossy`: the text with U+FFFD for each group that is not a character.
-/

namespace ExampleSchema
namespace Utf8

/-- The bytes of a text. -/
def encode (text : List Char) : Bytes := text.flatMap String.utf8EncodeChar

/-- A byte from `0x80` to `0xBF`, which continues a character. -/
def isTail (b : UInt8) : Bool := 0x80 ≤ b && b ≤ 0xBF

/-- How a character goes on after its first byte: the range of the second byte, and how many
continuation bytes follow that one. -/
structure Lead where
  low : UInt8
  high : UInt8
  more : Nat
  deriving Repr, DecidableEq

/-- The lead that a byte from `0x80` on can be, if any.  The narrowed ranges of the second byte keep
out overlong forms, surrogates and numbers past U+10FFFF. -/
def lead? (b : UInt8) : Option Lead :=
  if 0xC2 ≤ b ∧ b ≤ 0xDF then some ⟨0x80, 0xBF, 0⟩
  else if b = 0xE0 then some ⟨0xA0, 0xBF, 1⟩
  else if b = 0xED then some ⟨0x80, 0x9F, 1⟩
  else if 0xE1 ≤ b ∧ b ≤ 0xEF then some ⟨0x80, 0xBF, 1⟩
  else if b = 0xF0 then some ⟨0x90, 0xBF, 2⟩
  else if 0xF1 ≤ b ∧ b ≤ 0xF3 then some ⟨0x80, 0xBF, 2⟩
  else if b = 0xF4 then some ⟨0x80, 0x8F, 2⟩
  else none

/-- The six payload bits of a continuation byte. -/
def payload (b : UInt8) : Nat := b.toNat % 64

/-- The first character of a text that begins with `b` and goes on with `rest`, or nothing when no
character begins so; and what is left after the bytes that were read. -/
def next (b : UInt8) (rest : Bytes) : Option Char × Bytes :=
  if b < 0x80 then (some (Bytes.char b), rest)
  else match lead? b with
    | none => (none, rest)
    | some lead =>
      match rest with
      | c :: rest₁ =>
        if lead.low ≤ c ∧ c ≤ lead.high then
          match lead.more, rest₁ with
          | 0, _ => (some (Char.ofNat (b.toNat % 32 * 64 + payload c)), rest₁)
          | 1, d :: rest₂ =>
            if isTail d then
              (some (Char.ofNat ((b.toNat % 16 * 64 + payload c) * 64 + payload d)), rest₂)
            else (none, rest₁)
          | _, d :: e :: rest₃ =>
            if isTail d then
              if isTail e then
                (some (Char.ofNat
                  (((b.toNat % 8 * 64 + payload c) * 64 + payload d) * 64 + payload e)), rest₃)
              else (none, e :: rest₃)
            else (none, rest₁)
          | _, [d] => if isTail d then (none, []) else (none, rest₁)
          | _, [] => (none, [])
        else (none, rest)
      | [] => (none, [])

/-- Reading a character leaves no more than what followed its first byte. -/
theorem length_next_le (b : UInt8) (rest : Bytes) : (next b rest).2.length ≤ rest.length := by
  unfold next
  repeat' split
  all_goals simp_all <;> omega

/-- A text read character by character, `none` for each group of bytes that is no character. -/
def groups : Bytes → List (Option Char)
  | [] => []
  | b :: rest => (next b rest).1 :: groups (next b rest).2
termination_by text => text.length
decreasing_by exact Nat.lt_succ_of_le (length_next_le b rest)

/-- The text that the bytes encode, when they are well formed. -/
def decode? (text : Bytes) : Option String :=
  ((groups text).mapM id).map String.ofList

/-- The text with each ill-formed group replaced by U+FFFD. -/
def decodeLossy (text : Bytes) : String :=
  String.ofList ((groups text).map fun group => group.getD (Char.ofNat 0xFFFD))

@[simp] theorem groups_nil : groups [] = [] := by simp [groups]

theorem groups_cons (b : UInt8) (rest : Bytes) :
    groups (b :: rest) = (next b rest).1 :: groups (next b rest).2 := by simp [groups]

end Utf8

namespace Bytes

/-- The bytes of a text. -/
def ofString (text : String) : Bytes := Utf8.encode text.toList

/-- The text of the bytes, with U+FFFD where they are not UTF-8. -/
def toText (bytes : Bytes) : String := Utf8.decodeLossy bytes

end Bytes
end ExampleSchema
