import ExampleSchema.Pattern.Term
import ExampleSchema.Text.Blank
import ExampleSchema.Unicode.Query

/-!
# The small parts of a pattern

The parts that need no stack: blanks and comments, escapes, counts, names and flags.  Each function
takes the rest of the pattern and gives what it read with the rest after it, or nothing if the pattern
is malformed there.  Where a pattern is `verbose`, blanks and comments may stand between the signs of
most parts.

* `dropBlanks`, `skip`: blanks and comments.
* `escaped?`: what follows a backslash.
* `counted?`: the counts of a repetition.
* `captureName?`, `flagChanges?`: the head of a group.
-/

namespace ExampleSchema
namespace Pattern

/-! ## Blanks -/

/-- A text without the blanks and comments at its start; it may start inside a comment, which ends
with its line. -/
def dropBlanks : Bool → List Char → List Char
  | _, [] => []
  | true, c :: rest => dropBlanks (c != '\n') rest
  | false, c :: rest =>
    if c == '#' then dropBlanks true rest
    else if isBlank c then dropBlanks false rest
    else c :: rest

/-- A text without the blanks and comments at its start if they do not count. -/
def skip (verbose : Bool) (text : List Char) : List Char :=
  if verbose then dropBlanks false text else text

theorem length_dropBlanks_le (inComment : Bool) (text : List Char) :
    (dropBlanks inComment text).length ≤ text.length := by
  fun_induction dropBlanks inComment text <;> simp_all <;> omega

theorem length_skip_le (verbose : Bool) (text : List Char) :
    (skip verbose text).length ≤ text.length := by
  unfold skip
  split
  · exact length_dropBlanks_le false text
  · exact Nat.le_refl _

/-- The characters up to a closing brace that count, and the text after it.  The text may start
inside a comment. -/
def braced? (verbose : Bool) : Bool → List Char → Option (List Char × List Char)
  | _, [] => none
  | true, c :: rest => braced? verbose (c != '\n') rest
  | false, c :: rest =>
    if c == '}' then some ([], rest)
    else if verbose && c == '#' then braced? verbose true rest
    else if verbose && isBlank c then braced? verbose false rest
    else (braced? verbose false rest).map fun found => (c :: found.1, found.2)

/-! ## Letters by number -/

/-- The character of a code point. -/
def charOf? (code : Nat) : Option Char :=
  if code.isValidChar then some (Char.ofNat code) else none

/-- The value of a hexadecimal digit. -/
def hexDigit? (c : Char) : Option Nat :=
  if c.toNat < 0x80 then Bytes.hexValue? c.toUInt8 else none

/-- Reads a number of hexadecimal digits after the value of those before. -/
def hexFixed? (verbose : Bool) : Nat → Nat → List Char → Option (Nat × List Char)
  | 0, value, text => some (value, text)
  | _ + 1, _, [] => none
  | n + 1, value, c :: rest => do
    hexFixed? verbose n (value * 16 + (← hexDigit? c)) (skip verbose rest)

/-- The value of hexadecimal digits, of which there has to be one. -/
def hexValue? (digits : List Char) : Option Nat :=
  if digits.isEmpty then none
  else digits.foldlM (fun value c => (hexDigit? c).map (value * 16 + ·)) 0

/-- Reads a letter given by hexadecimal digits, either `width` of them or any number in braces. -/
def hexLetter? (verbose : Bool) (width : Nat) (text : List Char) : Option (Term × List Char) :=
  match skip verbose text with
  | '{' :: rest => do
    let (digits, rest) ← braced? verbose false rest
    some (.letter { char := ← charOf? (← hexValue? digits) }, rest)
  | text => do
    let (code, rest) ← hexFixed? verbose width 0 text
    some (.letter { char := ← charOf? code, isByte := width == 2 }, rest)

/-! ## Properties -/

/-- Splits a text at the first place where another starts. -/
def splitAtFirst? (mark : List Char) : List Char → Option (List Char × List Char)
  | [] => none
  | c :: rest =>
    if mark.isPrefixOf (c :: rest) then some ([], (c :: rest).drop mark.length)
    else (splitAtFirst? mark rest).map fun found => (c :: found.1, found.2)

/-- The set that a property in braces means, and whether its sign negates it: a name, or a name and a
value with `!=`, `:` or `=` between them, looked for in this order. -/
def propertySet? (text : List Char) : Option (CharSet × Bool) :=
  let valued (name value : List Char) := Unicode.valued? (.ofList name) (.ofList value)
  match splitAtFirst? ['!', '='] text with
  | some (name, value) => (valued name value).map (·, true)
  | none =>
    match (splitAtFirst? [':'] text).or (splitAtFirst? ['='] text) with
    | some (name, value) => (valued name value).map (·, false)
    | none => (Unicode.named? (.ofList text)).map (·, false)

/-- Reads a property: a single letter, or a property in braces. -/
def property? (verbose isNegated : Bool) (text : List Char) : Option (Term × List Char) :=
  match skip verbose text with
  | [] | '\\' :: _ => none
  | '{' :: rest => do
    let (inside, rest) ← braced? verbose false rest
    let (chars, sign) ← propertySet? inside
    some (.property chars (isNegated != sign), rest)
  | c :: rest => do
    some (.property (← Unicode.named? c.toString) isNegated, rest)

/-! ## Escapes -/

/-- The place of a word that a name in braces means. -/
def wordPlace? (name : List Char) : Option WordPlace :=
  match String.ofList name with
  | "start" => some .start
  | "end" => some .stop
  | "start-half" => some .startHalf
  | "end-half" => some .stopHalf
  | _ => none

/-- Reads what follows `\b`.  A brace belongs to it only if a letter or a dash comes after it; it
starts a count otherwise. -/
def wordAnchor? (verbose : Bool) (text : List Char) : Option (Term × List Char) :=
  match text with
  | '{' :: rest =>
    match skip verbose rest with
    | [] => none
    | c :: inside =>
      if c.isAlpha || c == '-' then do
        let (name, rest) ← braced? verbose false (c :: inside)
        some (.anchor (.word (← wordPlace? name)), rest)
      else some (.anchor (.word .boundary), text)
  | _ => some (.anchor (.word .boundary), text)

/-- Whether a character stands for itself after a backslash: ASCII signs do. -/
def isEscapable (c : Char) : Bool :=
  c.toNat < 0x80 && !c.isAlphanum && c != '<' && c != '>'

/-- What a backslash with one character means. -/
def simpleEscape? (c : Char) : Option Term :=
  let letter (code : Nat) : Option Term := some (.letter { char := Char.ofNat code })
  match c with
  | 'd' => some (.short .digit false)
  | 's' => some (.short .space false)
  | 'w' => some (.short .word false)
  | 'D' => some (.short .digit true)
  | 'S' => some (.short .space true)
  | 'W' => some (.short .word true)
  | 'a' => letter 0x07
  | 'f' => letter 0x0C
  | 't' => letter 0x09
  | 'n' => letter 0x0A
  | 'r' => letter 0x0D
  | 'v' => letter 0x0B
  | 'A' => some (.anchor .textStart)
  | 'z' => some (.anchor .textEnd)
  | 'B' => some (.anchor (.word .noBoundary))
  | '<' => some (.anchor (.word .start))
  | '>' => some (.anchor (.word .stop))
  | c => if isEscapable c then some (.letter { char := c }) else none

/-- Reads what follows a backslash. -/
def escaped? (verbose : Bool) : List Char → Option (Term × List Char)
  | [] => none
  | 'x' :: rest => hexLetter? verbose 2 rest
  | 'u' :: rest => hexLetter? verbose 4 rest
  | 'U' :: rest => hexLetter? verbose 8 rest
  | 'p' :: rest => property? verbose false rest
  | 'P' :: rest => property? verbose true rest
  | 'b' :: rest => wordAnchor? verbose rest
  | c :: rest => (simpleEscape? c).map (·, rest)

/-! ## Counts -/

/-- The decimal digits at the start of a text and the text after them.  The text may start inside a
comment. -/
def digits (verbose : Bool) : Bool → List Char → List Char × List Char
  | _, [] => ([], [])
  | true, c :: rest => digits verbose (c != '\n') rest
  | false, c :: rest =>
    if c.isDigit then
      let found := digits verbose false rest
      (c :: found.1, found.2)
    else if verbose && c == '#' then digits verbose true rest
    else if verbose && isBlank c then digits verbose false rest
    else ([], c :: rest)

/-- The first number that is too large for a count. -/
def countLimit : Nat := UInt32.size

/-- Reads a count; blanks may stand around it. -/
def count? (verbose : Bool) (text : List Char) : Option (Nat × List Char) :=
  let (found, rest) := digits verbose false (text.dropWhile isBlank)
  if found.isEmpty then none
  else
    let value := found.foldl (fun n c => n * 10 + (c.toNat - '0'.toNat)) 0
    if value < countLimit then some (value, rest.dropWhile isBlank) else none

/-- Reads the counts of a repetition after its opening brace: the least, and the most if there is
one. -/
def counted? (verbose : Bool) (text : List Char) : Option (Nat × Option Nat × List Char) := do
  let (low, rest) ← count? verbose (skip verbose text)
  match rest with
  | '}' :: rest => some (low, some low, rest)
  | ',' :: rest =>
    match skip verbose rest with
    | '}' :: rest => some (low, none, rest)
    | rest =>
      let (high, rest) ← count? verbose rest
      match rest with
      | '}' :: rest => if low ≤ high then some (low, some high, rest) else none
      | _ => none
  | _ => none

/-! ## Heads of groups -/

/-- Letters that the tables of properties do not know yet. -/
def laterLetters : CharSet := .ofTable
  "88F C5C CDC A7CE-A7CF A7D2 A7D4 A7F1 10940-10959 10EC5-10EC7 10EFA-10EFB 11B60-11B67 11DB0-11DDB
  16EA0-16EB8 16EBB-16ED3 16FF2-16FF6 187F8-187FF 18D09-18D1E 18D80-18DF2 1E6C0-1E6DE 1E6E0-1E6F5
  1E6FE-1E6FF 2B73A-2B73F 2CEA2-2CEAD 323B0-33479"

/-- Numbers that the tables of properties do not know yet. -/
def laterNumbers : CharSet := .ofTable "11DE0-11DE9 16FF4-16FF6"

/-- Whether a character is a letter in a name. -/
def isLetter (c : Char) : Bool :=
  c.isAlpha || (0x80 ≤ c.toNat &&
    (Unicode.alphabetic.contains c.toNat || laterLetters.contains c.toNat))

/-- Whether a character is a number in a name. -/
def isNumber (c : Char) : Bool :=
  c.isDigit || (0x80 ≤ c.toNat &&
    ((Unicode.inCategories [.decimalNumber, .letterNumber, .otherNumber]).contains c.toNat ||
      laterNumbers.contains c.toNat))

/-- Whether a character may stand in the name of a capture. -/
def isNameChar (c : Char) : Bool :=
  c == '_' || c == '.' || c == '[' || c == ']' || isLetter c || isNumber c

/-- Reads the name of a capture up to its closing bracket. -/
def captureName? (text : List Char) : Option (List Char × List Char) :=
  let name := text.takeWhile (· != '>')
  match name, text.drop name.length with
  | first :: others, _ :: rest =>
    if (first == '_' || isLetter first) && others.all isNameChar then some (name, rest) else none
  | _, _ => none

/-- The flag of a letter. -/
def flag? : Char → Option Flag
  | 'i' => some .caseless
  | 'm' => some .multiLine
  | 's' => some .dotAll
  | 'U' => some .swapGreed
  | 'u' => some .unicode
  | 'R' => some .crlf
  | 'x' => some .verbose
  | _ => none

/-- Reads changes of flags up to the sign that ends them, and says whether it closes the group.  A
dash switches off the flags after it; it stands once and never last.  No flag stands twice. -/
def flagChanges? (changes : List FlagChange) (negated dangling : Bool) :
    List Char → Option (List FlagChange × Bool × List Char)
  | [] => none
  | ')' :: rest => if dangling then none else some (changes, true, rest)
  | ':' :: rest => if dangling then none else some (changes, false, rest)
  | '-' :: rest => if negated then none else flagChanges? changes true true rest
  | c :: rest =>
    match flag? c with
    | none => none
    | some flag =>
      if changes.any fun change => change.flag == flag then none
      else flagChanges? (changes ++ [⟨flag, !negated⟩]) negated false rest

/-- What an opening parenthesis starts. -/
inductive Opening where
  /-- A group, with the name of its capture if it has one. -/
  | group (head : GroupHead) (name? : Option (List Char))
  /-- A change of flags for the rest of the group around it. -/
  | flags (changes : List FlagChange)
  deriving Repr, Inhabited

/-- Reads the head of a group after its parenthesis.  There are no conditions on the text around a
place. -/
def opening? (text : List Char) : Option (Opening × List Char) :=
  let named (text : List Char) := do
    let (name, rest) ← captureName? text
    some (Opening.group .capture (some name), rest)
  match text with
  | '?' :: '=' :: _ | '?' :: '!' :: _ | '?' :: '<' :: '=' :: _ | '?' :: '<' :: '!' :: _ => none
  | '?' :: 'P' :: '<' :: rest => named rest
  | '?' :: '<' :: rest => named rest
  | '?' :: rest => do
    let (changes, closes, rest) ← flagChanges? [] false false rest
    if !closes then some (.group (.plain changes) none, rest)
    else if changes.isEmpty then none
    else some (.flags changes, rest)
  | _ => some (.group .capture none, text)

end Pattern
end ExampleSchema
