import ExampleSchema.Text.CharSet

/-!
# Terms of patterns

A pattern as it is written: letters, classes in brackets, places, groups, repetitions and flags.  A
term knows nothing of the flags in force; what it matches under them is the business of
`Pattern.Meaning`.

* `ClassTerm`: what stands between brackets.
* `Term`: a pattern.
* `Term.depth`: how deep a pattern is nested; `Term.depthLimit` bounds it.
-/

namespace ExampleSchema
namespace Pattern

/-- A named set of ASCII characters, `[:name:]`. -/
inductive AsciiClass where
  | alnum
  | alpha
  | ascii
  | blank
  | cntrl
  | digit
  | graph
  | lower
  | print
  | punct
  | space
  | upper
  | word
  | xdigit
  deriving Repr, DecidableEq, Inhabited

namespace AsciiClass

/-- All classes. -/
def all : List AsciiClass :=
  [.alnum, .alpha, .ascii, .blank, .cntrl, .digit, .graph, .lower, .print, .punct, .space, .upper,
    .word, .xdigit]

/-- The name of a class. -/
def name : AsciiClass → String
  | alnum => "alnum"
  | alpha => "alpha"
  | ascii => "ascii"
  | blank => "blank"
  | cntrl => "cntrl"
  | digit => "digit"
  | graph => "graph"
  | lower => "lower"
  | print => "print"
  | punct => "punct"
  | space => "space"
  | upper => "upper"
  | word => "word"
  | xdigit => "xdigit"

/-- The class of a name. -/
def ofName? (name : String) : Option AsciiClass := all.find? fun c => c.name == name

/-- The members of a class. -/
def chars : AsciiClass → CharSet
  | alnum => .ofTable "30-39 41-5A 61-7A"
  | alpha => .ofTable "41-5A 61-7A"
  | ascii => .ofTable "0-7F"
  | blank => .ofTable "9 20"
  | cntrl => .ofTable "0-1F 7F"
  | digit => .ofTable "30-39"
  | graph => .ofTable "21-7E"
  | lower => .ofTable "61-7A"
  | print => .ofTable "20-7E"
  | punct => .ofTable "21-2F 3A-40 5B-60 7B-7E"
  | space => .ofTable "9-D 20"
  | upper => .ofTable "41-5A"
  | word => .ofTable "30-39 41-5A 5F 61-7A"
  | xdigit => .ofTable "30-39 41-46 61-66"

end AsciiClass

/-- A class that is written as an escape of one letter: `\d`, `\s`, `\w`. -/
inductive ShortClass where
  | digit
  | space
  | word
  deriving Repr, DecidableEq, Inhabited

/-- A character of a pattern. -/
structure Letter where
  char : Char
  /-- Written by two hexadecimal digits, so that it means a byte where patterns match bytes. -/
  isByte : Bool := false
  deriving Repr, DecidableEq, Inhabited

/-- How two classes are combined between brackets. -/
inductive SetOperator where
  | intersection
  | difference
  | symmetricDifference
  deriving Repr, DecidableEq, Inhabited

/-- What stands between brackets. -/
inductive ClassTerm where
  | empty
  | letter (letter : Letter)
  | span (low high : Letter)
  | ascii (kind : AsciiClass) (isNegated : Bool)
  | property (chars : CharSet) (isNegated : Bool)
  | short (kind : ShortClass) (isNegated : Bool)
  | bracket (isNegated : Bool) (inside : ClassTerm)
  | union (items : List ClassTerm)
  | operate (operator : SetOperator) (left right : ClassTerm)
  deriving Repr, Inhabited

/-- Several items between brackets; a single one stands for itself. -/
def ClassTerm.ofItems : List ClassTerm → ClassTerm
  | [] => .empty
  | [item] => item
  | items => .union items

/-- Which word character may stand before and after a place. -/
inductive WordPlace where
  /-- A word character on exactly one side. -/
  | boundary
  /-- A word character on both sides or on neither. -/
  | noBoundary
  /-- A word character after the place only. -/
  | start
  /-- A word character before the place only. -/
  | stop
  /-- No word character before the place. -/
  | startHalf
  /-- No word character after the place. -/
  | stopHalf
  deriving Repr, DecidableEq, Inhabited

/-- A place in a text, as a pattern writes it. -/
inductive Anchor where
  | lineStart
  | lineEnd
  | textStart
  | textEnd
  | word (place : WordPlace)
  deriving Repr, DecidableEq, Inhabited

/-- A flag that changes what the terms after it mean. -/
inductive Flag where
  /-- Case does not count. -/
  | caseless
  /-- `^` and `$` match at the lines of the text. -/
  | multiLine
  /-- `.` matches a line feed too. -/
  | dotAll
  /-- Repetitions and lazy repetitions change their roles. -/
  | swapGreed
  /-- Classes have characters beyond ASCII. -/
  | unicode
  /-- A line ends with a carriage return, a line feed or both. -/
  | crlf
  /-- Blanks and comments in the pattern do not count. -/
  | verbose
  deriving Repr, DecidableEq, Inhabited

/-- A flag that is switched on or off. -/
structure FlagChange where
  flag : Flag
  value : Bool
  deriving Repr, DecidableEq, Inhabited

/-- What some changes make of a flag. -/
def changed? (changes : List FlagChange) (flag : Flag) : Option Bool :=
  (changes.find? fun c => c.flag == flag).map FlagChange.value

/-- How a group opens: as a capture, or plainly with changes of flags. -/
inductive GroupHead where
  | capture
  | plain (changes : List FlagChange)
  deriving Repr, DecidableEq, Inhabited

/-- A pattern. -/
inductive Term where
  | empty
  | flags (changes : List FlagChange)
  | letter (letter : Letter)
  | any
  | anchor (anchor : Anchor)
  | property (chars : CharSet) (isNegated : Bool)
  | short (kind : ShortClass) (isNegated : Bool)
  | bracket (isNegated : Bool) (inside : ClassTerm)
  | repeated (term : Term) (low : Nat) (high? : Option Nat) (isLazy : Bool)
  | group (head : GroupHead) (term : Term)
  | sequence (terms : List Term)
  | choice (terms : List Term)
  deriving Repr, Inhabited

namespace Term

/-- Terms one after the other; a single one stands for itself. -/
def ofSequence : List Term → Term
  | [] => .empty
  | [term] => term
  | terms => .sequence terms

/-- Terms of which one has to match; a single one stands for itself. -/
def ofChoice : List Term → Term
  | [] => .empty
  | [term] => term
  | terms => .choice terms

/-- Whether a term can be repeated: a change of flags cannot. -/
def isRepeatable : Term → Bool
  | .empty | .flags _ => false
  | _ => true

end Term

/-! ## Depth -/

mutual
/-- How deep brackets, lists and operators are nested between brackets. -/
def ClassTerm.depth : ClassTerm → Nat
  | .bracket _ inside => inside.depth + 1
  | .union items => ClassTerm.depths items + 1
  | .operate _ left right => max left.depth right.depth + 1
  | _ => 0

/-- The depth of the deepest of some class terms. -/
def ClassTerm.depths : List ClassTerm → Nat
  | [] => 0
  | item :: rest => max item.depth (ClassTerm.depths rest)
end

mutual
/-- How deep groups, repetitions, lists and brackets are nested. -/
def Term.depth : Term → Nat
  | .bracket _ inside => inside.depth + 1
  | .repeated term _ _ _ => term.depth + 1
  | .group _ term => term.depth + 1
  | .sequence terms => Term.depths terms + 1
  | .choice terms => Term.depths terms + 1
  | _ => 0

/-- The depth of the deepest of some terms. -/
def Term.depths : List Term → Nat
  | [] => 0
  | term :: rest => max term.depth (Term.depths rest)
end

/-- How deep a pattern may be nested. -/
def Term.depthLimit : Nat := 250

end Pattern
end ExampleSchema
