import ExampleSchema.Text.Utf8

/-!
# Sources

A document with the name it goes by, and the positions inside it.  An offset counts bytes from the
start; one past the end stands for the end.  Lines and columns count from one, a line ends with its
line feed, and a column counts bytes.

* `lineColumn`: line and column of an offset.
* `lineAt`: the text of the line around an offset, without the line end.
-/

namespace ExampleSchema

/-- A named document. -/
structure Source where
  name : String
  content : Bytes
  deriving DecidableEq, Inhabited

namespace Source

/-- The document whose bytes are those of a text. -/
def ofString (name text : String) : Source := ⟨name, Bytes.ofString text⟩

/-- The bytes before an offset. -/
def before (s : Source) (offset : Nat) : Bytes := s.content.take offset

/-- The part of the line around an offset that stands before it. -/
def lineStart (s : Source) (offset : Nat) : Bytes :=
  ((s.before offset).reverse.takeWhile (!Bytes.isNewLine ·)).reverse

/-- The part of the line around an offset that stands from it on. -/
def lineRest (s : Source) (offset : Nat) : Bytes :=
  (s.content.drop offset).takeWhile (!Bytes.isNewLine ·)

/-- The line an offset is on: one more than the line ends before it. -/
def line (s : Source) (offset : Nat) : Nat := (s.before offset).countP Bytes.isNewLine + 1

/-- The column of an offset: one more than the bytes of its line before it. -/
def column (s : Source) (offset : Nat) : Nat := (s.lineStart offset).length + 1

/-- A text without one carriage return at its end. -/
def dropCarriageReturn (text : Bytes) : Bytes :=
  if text.getLast?.map Bytes.char = some '\r' then text.dropLast else text

/-- The line around an offset, without its line feed and without a carriage return before that. -/
def lineAt (s : Source) (offset : Nat) : Bytes :=
  dropCarriageReturn (s.lineStart offset ++ s.lineRest offset)

/-- An offset past the end is on the line of the end. -/
theorem before_of_length_le (s : Source) {offset : Nat} (h : s.content.length ≤ offset) :
    s.before offset = s.content := List.take_of_length_le h

/-- No line feed stands between the start of a line and an offset on it. -/
theorem not_isNewLine_of_mem_lineStart {s : Source} {offset : Nat} {b : UInt8}
    (h : b ∈ s.lineStart offset) : Bytes.isNewLine b = false := by
  have := List.all_takeWhile (l := (s.before offset).reverse) (p := (!Bytes.isNewLine ·))
  simp only [lineStart, List.mem_reverse] at h
  have := (List.all_eq_true.1 this) b h
  simpa using this

end Source
end ExampleSchema
