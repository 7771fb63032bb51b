import ExampleSchema.Text.Escaped

/-!
# Where a document cannot go on

A document is refused at the first byte that makes it hopeless.  The message names the byte, the
`Setting` it stands in and, as a `Hint`, what could have stood there.
-/

namespace ExampleSchema

/-- The literals that are words. -/
inductive Keyword where
  | yes
  | no
  | null
  deriving Repr, DecidableEq, Inhabited

/-- The letters of the word. -/
def Keyword.text : Keyword → String
  | .yes => "true"
  | .no => "false"
  | .null => "null"

/-- The part of a document that is being read. -/
inductive Setting where
  | schemaStart
  | afterTopValue
  | string
  | number
  | keyword (word : Keyword)
  | typeShortcut
  | objectKeyStart
  | afterObjectKey
  | objectValueStart
  | afterObjectValue
  | ruleName
  | keyShortcut
  | arrayItemStart
  | afterArrayItem
  | commentStart
  | comment
  | inlineNote
  | blockNote
  deriving Repr, DecidableEq, Inhabited

/-- The setting in a message about the end of the document. -/
def Setting.text : Setting → String
  | .schemaStart => "at the beginning of the schema"
  | .afterTopValue => "after the top-level value"
  | .string => "in string literal"
  | .number => "in number literal"
  | .keyword _ => "in literal"
  | .typeShortcut => "in type shortcut"
  | .objectKeyStart => "at the beginning of an object key"
  | .afterObjectKey => "after object key"
  | .objectValueStart => "at the beginning of an object value"
  | .afterObjectValue => "after object value"
  | .ruleName => "in rule name"
  | .keyShortcut => "in key shortcut"
  | .arrayItemStart => "at the beginning of an array item"
  | .afterArrayItem => "after array item"
  | .commentStart => "at the beginning of a comment"
  | .comment => "in comment"
  | .inlineNote => "in inline annotation"
  | .blockNote => "in multi-line annotation"

/-- The setting in a message about a byte, which also says the word that was being read. -/
def Setting.detail : Setting → String
  | .keyword word => "in literal " ++ word.text
  | setting => setting.text

/-- What could have stood in place of a refused byte. -/
inductive Hint where
  | value
  | endOfSchema
  | sameLine
  | escapedControl
  | knownEscape
  | hexDigit
  | digit
  | noLeadingZero
  | fractionDigit
  | exponentDigit
  | letter (byte : UInt8)
  | typeName
  | typeMark
  | noTrailingComma
  | objectKey
  | colon
  | commaOrBrace
  | commaOrBracket
  | commentKind
  | dashOrNewLine
  | dashOrCommentEnd
  | slash
  deriving Repr, DecidableEq, Inhabited

/-- The hint in a message. -/
def Hint.text : Hint → String
  | .value => "expecting a value"
  | .endOfSchema => "expecting the end of the schema"
  | .sameLine => "the rules of an inline annotation must end on the same line"
  | .escapedControl => "control characters must be escaped"
  | .knownEscape => "unknown escape sequence"
  | .hexDigit => "expecting a hexadecimal digit"
  | .digit => "expecting a digit"
  | .noLeadingZero => "leading zeros are not allowed"
  | .fractionDigit => "expecting a digit after '.'"
  | .exponentDigit => "expecting a digit in the exponent"
  | .letter byte => "expecting " ++ Escaped.byte byte
  | .typeName => "expecting a type name"
  | .typeMark => "expecting '@'"
  | .noTrailingComma => "trailing comma"
  | .objectKey => "expecting an object key"
  | .colon => "expecting ':'"
  | .commaOrBrace => "expecting ',' or '\x7d'"
  | .commaOrBracket => "expecting ',' or ']'"
  | .commentKind => "expecting '/' or '*'"
  | .dashOrNewLine => "expecting '-' or a new line"
  | .dashOrCommentEnd => "expecting '-' or '*/'"
  | .slash => "expecting '/'"

end ExampleSchema
