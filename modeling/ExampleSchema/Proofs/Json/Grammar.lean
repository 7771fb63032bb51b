import ExampleSchema.Proofs.Catalog
import ExampleSchema.Scan.State
import ExampleSchema.Text.Quoted
import ExampleSchema.Value.Basic

/-!
# The grammar of JSON texts

A JSON text as its grammar puts it together, with every blank kept, so that a text and its tree have the
same bytes.  The tokens carry the proof that they are what the grammar allows.

* `IsBlank`, `IsString`, `IsNumber`, `IsLiteral`: the tokens.
* `Json`, `Json.Items`, `Json.Members`: values, and what stands between the brackets of a container.
* `Json.Document`: a value with the blanks around it.

Of each there are its `bytes`, how deep its containers nest (`depth`), the names of members as they are
written (`names`), the `value` that it writes in some source from some offset on, and what is left of the
value without the marks (`datum`).
-/

namespace ExampleSchema

/-! ## Tokens -/

/-- Blanks between tokens: spaces, tabs, line feeds and carriage returns. -/
def IsBlank (text : Bytes) : Prop := ∀ b ∈ text, Bytes.isSpace b = true

/-- Any number of decimal digits. -/
def IsDigits (text : Bytes) : Prop := ∀ b ∈ text, Bytes.isDigit b = true

/-- The whole part of a number, which has no leading zero. -/
inductive IsWhole : Bytes → Prop
  | zero : IsWhole [Char.toUInt8 '0']
  | digits {first : UInt8} {rest : Bytes} (hfirst : Bytes.isDigit first = true)
      (hzero : Bytes.char first ≠ '0') (hrest : IsDigits rest) : IsWhole (first :: rest)

/-- The fraction of a number, which may be missing. -/
inductive IsFraction : Bytes → Prop
  | missing : IsFraction []
  | digits {digits : Bytes} (hne : digits ≠ []) (hdigits : IsDigits digits) :
      IsFraction (Char.toUInt8 '.' :: digits)

/-- The sign of an exponent, which may be missing. -/
inductive IsSign : Bytes → Prop
  | missing : IsSign []
  | plus : IsSign [Char.toUInt8 '+']
  | minus : IsSign [Char.toUInt8 '-']

/-- The exponent of a number, which may be missing. -/
inductive IsExponent : Bytes → Prop
  | missing : IsExponent []
  | digits {mark : UInt8} {sign digits : Bytes} (hmark : Bytes.char mark = 'e' ∨ Bytes.char mark = 'E')
      (hsign : IsSign sign) (hne : digits ≠ []) (hdigits : IsDigits digits) :
      IsExponent (mark :: (sign ++ digits))

/-- A number without its sign. -/
def IsUnsigned (text : Bytes) : Prop :=
  ∃ whole fraction exponent, text = whole ++ (fraction ++ exponent) ∧ IsWhole whole ∧
    IsFraction fraction ∧ IsExponent exponent

/-- A number. -/
inductive IsNumber : Bytes → Prop
  | positive {text : Bytes} (h : IsUnsigned text) : IsNumber text
  | negative {text : Bytes} (h : IsUnsigned text) : IsNumber (Char.toUInt8 '-' :: text)

/-- What follows the opening quote of a string, up to its closing quote.  Any byte stands for itself
that is no quote, no backslash and no control character. -/
inductive IsStringTail : Bytes → Prop
  | close : IsStringTail [Char.toUInt8 '"']
  | plain {b : UInt8} {rest : Bytes} (hquote : Bytes.char b ≠ '"') (hescape : Bytes.char b ≠ '\\')
      (hcontrol : 0x20 ≤ b.toNat) (hrest : IsStringTail rest) : IsStringTail (b :: rest)
  | escape {letter : UInt8} {rest : Bytes}
      (hletter : Bytes.char letter ∈ ['"', '\\', '/', 'b', 'f', 'n', 'r', 't'])
      (hrest : IsStringTail rest) : IsStringTail (Char.toUInt8 '\\' :: letter :: rest)
  | unicode {digits rest : Bytes} (hlength : digits.length = 4)
      (hdigits : ∀ b ∈ digits, Bytes.isHexDigit b = true) (hrest : IsStringTail rest) :
      IsStringTail (Char.toUInt8 '\\' :: Char.toUInt8 'u' :: (digits ++ rest))

/-- A string. -/
inductive IsString : Bytes → Prop
  | quoted {tail : Bytes} (h : IsStringTail tail) : IsString (Char.toUInt8 '"' :: tail)

/-- A literal: a string, a number or one of three words. -/
inductive IsLiteral : Bytes → Prop
  | string {text : Bytes} (h : IsString text) : IsLiteral text
  | number {text : Bytes} (h : IsNumber text) : IsLiteral text
  | keyword (word : Keyword) : IsLiteral (Bytes.ofString word.text)

namespace Json

/-- Blanks between tokens. -/
abbrev Blank := { text : Bytes // IsBlank text }

/-- A literal as it is written. -/
abbrev Literal := { text : Bytes // IsLiteral text }

/-- The name of a member as it is written. -/
abbrev Name := { text : Bytes // IsString text }

/-- The colon between a name and its value, with the blanks around it. -/
structure Colon where
  before : Blank
  after : Blank

end Json

/-! ## Trees -/

mutual

/-- A value as it is written. -/
inductive Json where
  | literal (token : Json.Literal)
  | emptyArray (blank : Json.Blank)
  | array (items : Json.Items)
  | emptyObject (blank : Json.Blank)
  | object (members : Json.Members)

/-- The items of an array with the blanks around them and the commas between them. -/
inductive Json.Items where
  | last (before : Json.Blank) (item : Json) (after : Json.Blank)
  | more (before : Json.Blank) (item : Json) (after : Json.Blank) (rest : Json.Items)

/-- The members of an object with the blanks around them and the commas between them. -/
inductive Json.Members where
  | last (before : Json.Blank) (name : Json.Name) (colon : Json.Colon) (value : Json)
      (after : Json.Blank)
  | more (before : Json.Blank) (name : Json.Name) (colon : Json.Colon) (value : Json)
      (after : Json.Blank) (rest : Json.Members)

end

namespace Json

/-- The bytes of the colon and the blanks around it. -/
def Colon.bytes (colon : Colon) : Bytes := colon.before.1 ++ Char.toUInt8 ':' :: colon.after.1

mutual

/-- The bytes of a value. -/
def bytes : Json → Bytes
  | literal token => token.1
  | emptyArray blank => Char.toUInt8 '[' :: (blank.1 ++ [Char.toUInt8 ']'])
  | array items => Char.toUInt8 '[' :: (items.bytes ++ [Char.toUInt8 ']'])
  | emptyObject blank => Char.toUInt8 '{' :: (blank.1 ++ [Char.toUInt8 '}'])
  | object members => Char.toUInt8 '{' :: (members.bytes ++ [Char.toUInt8 '}'])

/-- The bytes between the brackets of an array. -/
def Items.bytes : Items → Bytes
  | .last before item after => before.1 ++ (item.bytes ++ after.1)
  | .more before item after rest =>
    before.1 ++ (item.bytes ++ (after.1 ++ Char.toUInt8 ',' :: rest.bytes))

/-- The bytes between the brackets of an object. -/
def Members.bytes : Members → Bytes
  | .last before name colon value after =>
    before.1 ++ (name.1 ++ (colon.bytes ++ (value.bytes ++ after.1)))
  | .more before name colon value after rest =>
    before.1 ++ (name.1 ++ (colon.bytes ++ (value.bytes ++ (after.1 ++ Char.toUInt8 ',' :: rest.bytes))))

end

mutual

/-- How deep the containers of a value nest, the value included. -/
def depth : Json → Nat
  | literal _ => 0
  | emptyArray _ | emptyObject _ => 1
  | array items => items.depth + 1
  | object members => members.depth + 1

/-- How deep containers nest in some items. -/
def Items.depth : Items → Nat
  | .last _ item _ => item.depth
  | .more _ item _ rest => max item.depth rest.depth

/-- How deep containers nest in some members. -/
def Members.depth : Members → Nat
  | .last _ _ _ value _ => value.depth
  | .more _ _ _ value _ rest => max value.depth rest.depth

end

mutual

/-- The names of all members in a value, as they are written. -/
def names : Json → List Bytes
  | literal _ | emptyArray _ | emptyObject _ => []
  | array items => items.names
  | object members => members.names

/-- The names of all members in some items. -/
def Items.names : Items → List Bytes
  | .last _ item _ => item.names
  | .more _ item _ rest => item.names ++ rest.names

/-- The names of some members, and of all members in their values. -/
def Members.names : Members → List Bytes
  | .last _ name _ value _ => name.1 :: value.names
  | .more _ name _ value _ rest => name.1 :: (value.names ++ rest.names)

end

/-- The text that a name writes, if it writes one. -/
def Name.text (name : Name) : String := (Quoted.decode? name.1).getD ""

/-- The mark of a construct that begins at some offset and has some bytes. -/
def spanOf (source : Source) (construct : Construct) (start : Nat) (bytes : Bytes) : Mark :=
  ⟨source, .closing construct, start, start + bytes.length⟩

mutual

/-- The value that is written from some offset on. -/
def value (source : Source) (start : Nat) : Json → Value
  | literal token => .literal (spanOf source .literal start token.1)
  | emptyArray blank => .array (spanOf source .array start (emptyArray blank).bytes) []
  | array items =>
    .array (spanOf source .array start (array items).bytes) (items.values source (start + 1))
  | emptyObject blank => .object (spanOf source .object start (emptyObject blank).bytes) []
  | object members =>
    .object (spanOf source .object start (object members).bytes)
      (Catalog.gather (members.entries source (start + 1)))

/-- The values of items that are written from some offset on. -/
def Items.values (source : Source) (start : Nat) : Items → List Value
  | .last before item _ => [item.value source (start + before.1.length)]
  | .more before item after rest =>
    let itemStart := start + before.1.length
    let afterStart := itemStart + item.bytes.length
    item.value source itemStart :: rest.values source (afterStart + after.1.length + 1)

/-- The members that are written from some offset on: name, mark of the name, value. -/
def Members.entries (source : Source) (start : Nat) : Members → List (String × Mark × Value)
  | .last before name colon value _ =>
    let nameStart := start + before.1.length
    let valueStart := nameStart + name.1.length + colon.bytes.length
    [(name.text, spanOf source .objectKey nameStart name.1, value.value source valueStart)]
  | .more before name colon value after rest =>
    let nameStart := start + before.1.length
    let valueStart := nameStart + name.1.length + colon.bytes.length
    let afterStart := valueStart + value.bytes.length
    (name.text, spanOf source .objectKey nameStart name.1, value.value source valueStart) ::
      rest.entries source (afterStart + after.1.length + 1)

end

end Json

/-! ## What is written -/

/-- A value without its marks: the bytes of its literals, the items of its arrays and the members of its
objects. -/
inductive Datum where
  | literal (token : Bytes)
  | array (items : List Datum)
  | object (members : List (String × Datum))

namespace Value

mutual

/-- The value without its marks. -/
def datum : Value → Datum
  | literal mark => .literal mark.bytes
  | array _ items => .array (dataOfItems items)
  | object _ members => .object (dataOfMembers members)

/-- The items of an array without their marks. -/
def dataOfItems : List Value → List Datum
  | [] => []
  | item :: rest => item.datum :: dataOfItems rest

/-- The members of an object without their marks. -/
def dataOfMembers : List (String × Mark × Value) → List (String × Datum)
  | [] => []
  | (name, _, value) :: rest => (name, value.datum) :: dataOfMembers rest

end

end Value

namespace Json

mutual

/-- What a text writes.  An object has every name where it first comes, with its last value. -/
def datum : Json → Datum
  | literal token => .literal token.1
  | emptyArray _ => .array []
  | array items => .array items.data
  | emptyObject _ => .object []
  | object members => .object (Catalog.gather members.data)

/-- What some items write. -/
def Items.data : Items → List Datum
  | .last _ item _ => [item.datum]
  | .more _ item _ rest => item.datum :: rest.data

/-- What some members write, under their names. -/
def Members.data : Members → List (String × Datum)
  | .last _ name _ value _ => [(name.text, value.datum)]
  | .more _ name _ value _ rest => (name.text, value.datum) :: rest.data

end

/-- A whole text: a value with the blanks around it. -/
structure Document where
  before : Blank
  root : Json
  after : Blank

namespace Document

/-- The bytes of the text. -/
def bytes (t : Document) : Bytes := t.before.1 ++ (t.root.bytes ++ t.after.1)

/-- The value that the text writes. -/
def value (t : Document) (source : Source) : Value := t.root.value source t.before.1.length

end Document
end Json
end ExampleSchema
