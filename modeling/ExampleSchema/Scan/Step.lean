import ExampleSchema.Scan.State

/-!
# One step of a scan

`State.feed` takes a state past one byte, and `State.conclude` takes it to the end of the document.
A step either yields the next state, with the events it reports, or the cause for which the document
is hopeless from this byte on.

A name, a number, a shortcut, a comment up to the end of the line and a note up to the end of the
line end *before* the byte that shows their end.  That byte then belongs to the place that is
resumed: `State.land` hands it on, and at the end of the document `State.land?` does the same without
a byte.  Both walk down the places to resume, because the end of a line may end a note whose rules
have just ended too.
-/

namespace ExampleSchema
namespace Scan
namespace State

/-- The document cannot go on with this byte. -/
def refuse (s : State) (b : UInt8) (hint : Hint) : Verdict State :=
  .error (.unexpectedByte b s.mode.setting hint)

/-- Reads something else from here on. -/
def switch (s : State) (mode : Mode) : State := { s with mode := mode }

/-- Reads something, after which a place is resumed. -/
def interrupt (s : State) (mode : Mode) (next : Place) : State :=
  { s with mode := mode, resume := next :: s.resume }

/-- Closes a finished value or key and goes on after it. -/
def finishValue (s : State) (stop : Nat) : Verdict State := do (← s.endValue stop).resumeNext

/-- Closes the open note and goes on where it interrupted. -/
def finishNote (s : State) (stop : Nat) : Verdict State := do (← s.closeNote stop).resumeNext

/-! ## Between tokens -/

/-- Skips a blank.  A line end is reported outside notes and refused among the rules of an inline
note. -/
def skipBlank (s : State) (b : UInt8) (i : Nat) : Verdict State :=
  if Bytes.isNewLine b then
    match s.note? with
    | none => .ok (s.emit .newLine i (i + 1))
    | some .block => .ok s
    | some .inline => s.refuse b .sameLine
  else .ok s

/-- What a byte starts that opens a comment or a note. -/
def commentMode? (b : UInt8) : Option Mode :=
  match Bytes.char b with
  | '#' => some (.hashes 1)
  | '/' => some .commentStart
  | _ => none

/-- Opens a container, unless that would nest too deep. -/
def openContainer (s : State) (construct : Construct) (inside next : Place) (i : Nat) :
    Verdict State :=
  if s.depth < maxDepth then .ok ((s.begin construct i).interrupt (.between inside) next)
  else .error (.nestedTooDeep maxDepth)

/-- Starts a value at its first byte; `next` is resumed when it ends. -/
def startValue (o : Options) (s : State) (next : Place) (b : UInt8) (i : Nat) : Verdict State :=
  let literal (mode : Mode) : Verdict State := .ok ((s.begin .literal i).interrupt mode next)
  match Bytes.char b with
  | '{' => s.openContainer .object .objectStart next i
  | '[' => s.openContainer .array .arrayStart next i
  | '"' => literal .string
  | '-' => literal (.number .minus)
  | '0' => literal (.number .zero)
  | 't' => literal (.keyword .yes (Char.toUInt8 'r') (Bytes.ofString "ue"))
  | 'f' => literal (.keyword .no (Char.toUInt8 'a') (Bytes.ofString "lse"))
  | 'n' => literal (.keyword .null (Char.toUInt8 'u') (Bytes.ofString "ll"))
  | c =>
    if c.isDigit then literal (.number .whole)
    else if c == '@' && !o.plain then
      let construct := if s.inNote then Construct.typesShortcut else Construct.mixedValue
      .ok ((s.begin construct i).interrupt (.shortcut .mark) next)
    else s.refuse b .value

/-- Starts a key at its first byte.  Rules have bare names and no shortcuts for keys. -/
def startKey (o : Options) (s : State) (b : UInt8) (i : Nat) : Verdict State :=
  let key := s.begin .objectKey i
  if Bytes.char b == '"' then .ok (key.interrupt .string .objectColon)
  else if s.inNote then
    if Bytes.char b == '@' then .error .keyShortcutInRules
    else if Bytes.isNameChar b then .ok (key.interrupt .ruleName .objectColon)
    else s.refuse b .objectKey
  else if Bytes.char b == '@' && !o.plain then
    .ok ((key.begin .keyShortcut i).interrupt .keyMark .objectColon)
  else s.refuse b .objectKey

/-- Reads the first byte of a token at a place. -/
def token (o : Options) (s : State) (place : Place) (b : UInt8) (i : Nat) : Verdict State :=
  let item := startValue o (s.begin .arrayItem i) .arrayNext b i
  match place, Bytes.char b with
  | .start, _ => startValue o s .finish b i
  | .finish, _ => if o.lengthOnly then .ok s.stop else s.refuse b .endOfSchema
  | .objectStart, '}' => s.finishValue (i + 1)
  | .objectStart, _ => startKey o s b i
  | .objectKey, '}' => s.refuse b .noTrailingComma
  | .objectKey, _ => startKey o s b i
  | .objectColon, ':' => .ok (s.switch (.between .objectValue))
  | .objectColon, _ => s.refuse b .colon
  | .objectValue, _ => startValue o (s.begin .objectValue i) .objectNext b i
  | .objectNext, ',' => .ok (s.switch (.between .objectKey))
  | .objectNext, '}' => s.finishValue (i + 1)
  | .objectNext, _ => s.refuse b .commaOrBrace
  | .arrayStart, ']' => s.finishValue (i + 1)
  | .arrayStart, _ => item
  | .arrayItem, ']' => s.refuse b .noTrailingComma
  | .arrayItem, _ => item
  | .arrayNext, ',' => .ok (s.switch (.between .arrayItem))
  | .arrayNext, ']' => s.finishValue (i + 1)
  | .arrayNext, _ => s.refuse b .commaOrBracket
  | .afterRules .inline, '-' => .ok (s.switch .inlineDash)
  | .afterRules .inline, _ => s.refuse b .dashOrNewLine
  | .afterRules .block, '-' => .ok (s.switch .blockDash)
  | .afterRules .block, '*' => .ok (s.switch .blockAfterRulesStar)
  | .afterRules .block, _ => s.refuse b .dashOrCommentEnd

/-- Reads a byte at a place: a blank, the start of a comment, or a token. -/
def visit (o : Options) (s : State) (place : Place) (b : UInt8) (i : Nat) : Verdict State :=
  if Bytes.isSpace b then s.skipBlank b i
  else if !o.plain && !s.inNote && place.allowsComment b then
    match commentMode? b with
    | some mode => .ok (s.interrupt mode place)
    | none => s.token o place b i
  else s.token o place b i

/-- Hands a byte to the innermost of some places to resume.  A line end after the rules of an inline
note ends the note and goes on to the place that the note interrupted. -/
def land (o : Options) (b : UInt8) (i : Nat) : List Place → State → Verdict State
  | [], _ => .error (.fault .nothingToResume)
  | place :: rest, s =>
    if place = .afterRules .inline ∧ Bytes.isNewLine b then do land o b i rest (← s.closeNote i)
    else visit o { s with mode := .between place, resume := rest } place b i

/-- Comes to the end of the document with some places to resume. -/
def land? (length : Nat) : List Place → State → Verdict State
  | [], _ => .error (.fault .nothingToResume)
  | .finish :: _, s => .ok s.stop
  | .start :: _, _ => .error .emptySchema
  | .afterRules .inline :: rest, s => do land? length rest (← s.closeNote length)
  | place :: _, _ => .error (.unexpectedEnd place.setting)

/-! ## Inside tokens -/

/-- Reads a byte of a string. -/
def feedString (s : State) (b : UInt8) (i : Nat) : Verdict State :=
  match Bytes.char b with
  | '"' => s.finishValue (i + 1)
  | '\\' => .ok (s.switch .escape)
  | c => if c.toNat < 0x20 then s.refuse b .escapedControl else .ok s

/-- Reads the letter of an escape. -/
def feedEscape (s : State) (b : UInt8) : Verdict State :=
  match Bytes.char b with
  | '"' | '\\' | '/' | 'b' | 'f' | 'n' | 'r' | 't' => .ok (s.switch .string)
  | 'u' => .ok (s.switch (.unicode 0))
  | _ => s.refuse b .knownEscape

/-- Reads a digit of a numeric escape of four digits. -/
def feedUnicode (s : State) (digits : Nat) (b : UInt8) : Verdict State :=
  if Bytes.isHexDigit b then .ok (s.switch (if digits = 3 then .string else .unicode (digits + 1)))
  else s.refuse b .hexDigit

/-- Reads a byte of a number or the byte after it. -/
def feedNumber (o : Options) (s : State) (part : NumberPart) (b : UInt8) (i : Nat) :
    Verdict State :=
  match part.next? b, part.refusal? b with
  | some part, _ => .ok (s.switch (.number part))
  | none, some hint => s.refuse b hint
  | none, none => do land o b i s.resume (← s.endValue i)

/-- Reads a letter of a word. -/
def feedKeyword (s : State) (word : Keyword) (next : UInt8) (rest : Bytes) (b : UInt8) (i : Nat) :
    Verdict State :=
  if b = next then
    match rest with
    | [] => s.finishValue (i + 1)
    | next :: rest => .ok (s.switch (.keyword word next rest))
  else s.refuse b (.letter next)

/-- A blank inside a line. -/
def isInnerBlank (b : UInt8) : Bool := Bytes.isSpace b && !Bytes.isNewLine b

/-- Reads a byte of a type shortcut or the byte after it. -/
def feedShortcut (o : Options) (s : State) (part : ShortcutPart) (b : UInt8) (i : Nat) :
    Verdict State :=
  match part with
  | .mark =>
    if Bytes.isNameChar b then .ok (s.switch (.shortcut .name)) else s.refuse b .typeName
  | .name =>
    if Bytes.isNameChar b then .ok s else afterName { s with nameEnd := i }
  | .afterName => afterName s
  | .afterBar =>
    if isInnerBlank b then .ok s
    else if Bytes.char b == '@' then .ok (s.switch (.shortcut .mark))
    else s.refuse b .typeMark
where
  /-- Reads a byte after a name, which a bar may follow. -/
  afterName (s : State) : Verdict State :=
    if isInnerBlank b then .ok (s.switch (.shortcut .afterName))
    else if Bytes.char b == '|' then .ok (s.switch (.shortcut .afterBar))
    else do land o b i s.resume (← s.endValue s.nameEnd)

/-- Reads a byte of the name of a rule or a key, or the byte after it. -/
def feedName (o : Options) (s : State) (b : UInt8) (i : Nat) : Verdict State :=
  if Bytes.isNameChar b then .ok s else do land o b i s.resume (← s.endValue i)

/-- Reads the first byte of the name of a key shortcut. -/
def feedKeyMark (s : State) (b : UInt8) : Verdict State :=
  if Bytes.isNameChar b then .ok (s.switch .keyName) else s.refuse b .typeName

/-! ## Inside comments -/

/-- Reads the byte after a slash, which opens a note. -/
def feedCommentStart (s : State) (b : UInt8) (i : Nat) : Verdict State :=
  match Bytes.char b with
  | '/' => .ok ((s.begin .inlineNote (i - 1)).switch .inlineStart)
  | '*' => .ok ((s.begin .blockNote (i - 1)).switch .blockStart)
  | _ => s.refuse b .commentKind

/-- Reads a byte of a comment up to the end of the line. -/
def feedLineComment (o : Options) (s : State) (b : UInt8) (i : Nat) : Verdict State :=
  if Bytes.isNewLine b then land o b i s.resume s else .ok (s.switch .lineComment)

/-- Reads a byte of a comment up to three number signs. -/
def feedBlockComment (s : State) (hashes : Nat) (b : UInt8) (i : Nat) : Verdict State :=
  match Bytes.char b with
  | '#' => if hashes = 2 then s.resumeNext else .ok (s.switch (.blockComment (hashes + 1)))
  | '\n' => .ok ((s.emit .newLine i (i + 1)).switch (.blockComment 0))
  | _ => .ok (s.switch (.blockComment 0))

/-- Reads a byte among the number signs that start a comment, or the byte after them: three of them
open a comment that spans lines. -/
def feedHashes (o : Options) (s : State) (count : Nat) (b : UInt8) (i : Nat) : Verdict State :=
  if Bytes.char b == '#' then .ok (s.switch (.hashes (count + 1)))
  else if count = 3 then s.feedBlockComment 0 b i
  else s.feedLineComment o b i

/-! ## Inside notes -/

/-- Opens the text of a note at its first byte. -/
def beginText (s : State) (kind : NoteKind) (start : Nat) : State :=
  { s.begin kind.textConstruct start with textEnd := start }

/-- Reads a byte of the text of an inline note; blanks at its end are not part of it. -/
def feedInlineText (s : State) (b : UInt8) (i : Nat) : State :=
  { s with mode := .inlineText, textEnd := if Bytes.isSpace b then s.textEnd else i + 1 }

/-- Reads a byte of an inline note outside its rules, or the line end after it. -/
def feedInline (o : Options) (s : State) (b : UInt8) (i : Nat) : Verdict State :=
  if Bytes.isNewLine b then do land o b i s.resume (← s.closeNote i)
  else
    match s.mode, Bytes.char b with
    | .inlineText, _ => .ok (s.feedInlineText b i)
    | .inlineStart, '{' => s.openContainer .object .objectStart (.afterRules .inline) i
    | .inlineStart, '-' => .ok (s.switch .inlineDash)
    | _, _ =>
      if Bytes.isSpace b then .ok s else .ok ((s.beginText .inline i).feedInlineText b i)

/-- Reads a byte of the text of a block note; blanks at its end are not part of it. -/
def feedBlockText (s : State) (b : UInt8) (i : Nat) : State :=
  if Bytes.char b == '*' then s.switch .blockTextStar
  else { s with mode := .blockText, textEnd := if Bytes.isSpace b then s.textEnd else i + 1 }

/-- Reads the byte after a star in the text of a block note: the star belongs to the text unless a
slash follows. -/
def feedBlockTextStar (s : State) (b : UInt8) (i : Nat) : Verdict State :=
  match Bytes.char b with
  | '/' => s.finishNote (i + 1)
  | '*' => .ok { s with textEnd := i }
  | _ => .ok ({ s with textEnd := i }.feedBlockText b i)

/-- Reads the byte after a star at the start of a block note: the text starts with the star unless a
slash follows. -/
def feedBlockStartStar (s : State) (b : UInt8) (i : Nat) : Verdict State :=
  if Bytes.char b == '/' then s.finishNote (i + 1)
  else .ok ({ s.beginText .block (i - 1) with textEnd := i }.feedBlockText b i)

/-- Reads a byte of a block note before its text and outside its rules. -/
def feedBlockStart (s : State) (b : UInt8) (i : Nat) : Verdict State :=
  match s.mode, Bytes.char b with
  | .blockStart, '{' => s.openContainer .object .objectStart (.afterRules .block) i
  | .blockStart, '*' => .ok (s.switch .blockStartStar)
  | .blockStart, '-' => .ok (s.switch .blockDash)
  | _, _ =>
    if Bytes.isSpace b then .ok s else .ok ((s.beginText .block i).feedBlockText b i)

/-- Reads the byte after a star behind the rules of a block note. -/
def feedBlockAfterRulesStar (s : State) (b : UInt8) (i : Nat) : Verdict State :=
  if Bytes.char b == '/' then s.finishNote (i + 1) else s.refuse b .slash

/-! ## Every mode -/

/-- Takes the state past the byte at offset `i`. -/
def feed (o : Options) (s : State) (b : UInt8) (i : Nat) : Verdict State :=
  match s.mode with
  | .between place => land o b i (place :: s.resume) s
  | .done => .ok s
  | .string => s.feedString b i
  | .escape => s.feedEscape b
  | .unicode digits => s.feedUnicode digits b
  | .number part => s.feedNumber o part b i
  | .keyword word next rest => s.feedKeyword word next rest b i
  | .shortcut part => s.feedShortcut o part b i
  | .ruleName | .keyName => s.feedName o b i
  | .keyMark => s.feedKeyMark b
  | .commentStart => s.feedCommentStart b i
  | .hashes count => s.feedHashes o count b i
  | .lineComment => s.feedLineComment o b i
  | .blockComment hashes => s.feedBlockComment hashes b i
  | .inlineStart | .inlineDash | .inlineText => s.feedInline o b i
  | .blockStart | .blockDash => s.feedBlockStart b i
  | .blockStartStar => s.feedBlockStartStar b i
  | .blockText => .ok (s.feedBlockText b i)
  | .blockTextStar => s.feedBlockTextStar b i
  | .blockAfterRulesStar => s.feedBlockAfterRulesStar b i

/-- Takes the state to the end of the document: what may end there ends, and then the document must
be complete. -/
def conclude (s : State) (length : Nat) : Verdict State :=
  match s.mode with
  | .done => .ok s
  | .between place => land? length (place :: s.resume) s
  | .number part =>
    if part.isComplete then do land? length s.resume (← s.endValue length) else endsEarly
  | .shortcut .name => do land? length s.resume (← s.endValue length)
  | .shortcut .afterName => do land? length s.resume (← s.endValue s.nameEnd)
  | .lineComment => land? length s.resume s
  | .hashes count => if count = 3 then endsEarly else land? length s.resume s
  | .inlineStart | .inlineDash | .inlineText => do land? length s.resume (← s.closeNote length)
  | _ => endsEarly
where
  /-- The document ends in the middle of something. -/
  endsEarly : Verdict State := .error (.unexpectedEnd s.mode.setting)

end State
end Scan
end ExampleSchema
