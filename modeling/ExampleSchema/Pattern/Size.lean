import ExampleSchema.Pattern.Node

/-!
# The size of a pattern

A pattern is limited by the size of the two automata over bytes that it makes, one that reads a text
forward and one that reads it backward.  Sizes are counted in bytes of memory: 32 for a state, 8 more
for each of several byte ranges that lead out of it, and 4 more for each of several ways to go on
without a byte.

* `byteRanges`: the sequences of byte ranges that make up a range of characters.
* `Node.size`: the size of the automaton of a node.
* `Node.isSmall`: whether both automata are within the limit.
-/

namespace ExampleSchema
namespace Pattern

/-! ## Sets as byte sequences -/

/-- A range of bytes, with both ends included. -/
abbrev ByteRange := Nat × Nat

/-- The sequences for the code points between two that are written with `n` continuation bytes after
a leading byte; `lead` is added to the value bits of the first byte, and is that of a continuation byte
from the second byte on.  A block of code points in which the later bytes take all their values makes
one sequence. -/
def alignedRanges (lead : Nat) : Nat → Nat → Nat → List (List ByteRange)
  | 0, low, high => [[(lead + low, lead + high)]]
  | n + 1, low, high =>
    let block := Nat.pow 64 (n + 1)
    let first := low / block
    let final := high / block
    let under (digit : Nat) (parts : List (List ByteRange)) :=
      parts.map fun part => (lead + digit, lead + digit) :: part
    if first = final then under first (alignedRanges 0x80 n (low % block) (high % block))
    else
      let head :=
        if low % block = 0 then [] else under first (alignedRanges 0x80 n (low % block) (block - 1))
      let tail :=
        if high % block = block - 1 then []
        else under final (alignedRanges 0x80 n 0 (high % block))
      let low := if low % block = 0 then first else first + 1
      let high := if high % block = block - 1 then final + 1 else final
      let middle :=
        if low < high then
          [(lead + low, lead + (high - 1)) :: List.replicate (n + 1) (0x80, 0xBF)]
        else []
      head ++ middle ++ tail

/-- The code points that take one number of bytes: the least, the greatest, the leading byte and the
number of bytes after it.  The surrogates are left out. -/
def encodings : List (Nat × Nat × Nat × Nat) :=
  [(0, 0x7F, 0, 0), (0x80, 0x7FF, 0xC0, 1), (0x800, 0xD7FF, 0xE0, 2), (0xE000, 0xFFFF, 0xE0, 2),
    (0x10000, 0x10FFFF, 0xF0, 3)]

/-- The sequences of byte ranges of a range of characters. -/
def byteRanges (low high : Nat) : List (List ByteRange) :=
  encodings.flatMap fun (least, greatest, lead, following) =>
    if max low least ≤ min high greatest then
      alignedRanges lead following (max low least) (min high greatest)
    else []

/-- The sequences of byte ranges of a set. -/
def setRanges (s : CharSet) : List (List ByteRange) :=
  s.ranges.flatMap fun r => byteRanges r.1 r.2

/-! ## Automata of sets -/

/-- A state of a forward automaton: the byte ranges that lead out of it, each with the state after
it. -/
inductive Fork where
  | fork (branches : List (ByteRange × Fork))
  deriving Inhabited

mutual
/-- Whether two states read the same sequences in the same branches. -/
def Fork.same : Fork → Fork → Bool
  | .fork s, .fork t => sameBranches s t

/-- Whether two lists of branches are the same. -/
def sameBranches : List (ByteRange × Fork) → List (ByteRange × Fork) → Bool
  | [], [] => true
  | (range, next) :: s, (range', next') :: t => range == range' && next.same next' && sameBranches s t
  | _, _ => false
end

instance : BEq Fork := ⟨Fork.same⟩

/-- Adds a sequence to a state.  Sequences come in order, so that it shares at most the last branch. -/
def Fork.insert : Fork → List ByteRange → Fork
  | fork branches, [] => .fork branches
  | fork branches, range :: rest =>
    match branches with
    | (range', next) :: others =>
      if range' = range then .fork ((range, next.insert rest) :: others)
      else .fork ((range, (Fork.fork []).insert rest) :: branches)
    | [] => .fork [(range, (Fork.fork []).insert rest)]

mutual
/-- The states of an automaton that lead on. -/
def Fork.states : Fork → List Fork
  | .fork [] => []
  | .fork branches => .fork branches :: statesAfter branches

/-- The states behind some branches. -/
def statesAfter : List (ByteRange × Fork) → List Fork
  | [] => []
  | (_, next) :: rest => next.states ++ statesAfter rest
end

/-- The number of branches of a state. -/
def Fork.width : Fork → Nat
  | fork branches => branches.length

/-- The size of the forward automaton of some sequences, in which equal states are one. -/
def forwardSize (sequences : List (List ByteRange)) : Nat :=
  let states := ((sequences.foldl Fork.insert (.fork [])).states).eraseDups
  states.foldl (fun size state => size + 32 + 8 * state.width) 32

/-- The number of elements at the start of two lists that are the same. -/
def agreement [DecidableEq α] : List α → List α → Nat
  | a :: s, b :: t => if a = b then agreement s t + 1 else 0
  | _, _ => 0

/-- The number of different starts of some sequences other than the empty one.  Sequences come in
order, so that a start which is not new is one of the sequence before. -/
def startCount [DecidableEq α] (previous : List α) : List (List α) → Nat
  | [] => 0
  | next :: rest => next.length - agreement previous next + startCount next rest

/-- The size of the backward automaton of some sequences, in which equal starts of sequences are
one. -/
def backwardSize (sequences : List (List ByteRange)) : Nat :=
  64 + 4 * sequences.length + 32 * startCount [] sequences

/-- In which direction an automaton reads. -/
inductive Direction where
  | forward
  | backward
  deriving Repr, DecidableEq, Inhabited

/-- The size of the automaton of a set. -/
def setSize (direction : Direction) (s : CharSet) : Nat :=
  if s.isAscii then 64 + 8 * s.ranges.length
  else match direction with
    | .forward => forwardSize (setRanges s)
    | .backward => backwardSize (setRanges s)

/-! ## Automata of literals -/

/-- The bytes of a literal in the order in which an automaton reads them. -/
def literalBytes (direction : Direction) (chars : List Char) : List UInt8 :=
  let bytes := chars.flatMap String.utf8EncodeChar
  match direction with
  | .forward => bytes
  | .backward => bytes.reverse

/-- The groups of words between those that are empty. -/
def groups (words : List (List UInt8)) : List (List (List UInt8)) :=
  words.foldr (fun word found =>
    if word.isEmpty then [] :: found
    else match found with
      | group :: rest => (word :: group) :: rest
      | [] => [[word]]) [[]]

/-- The groups of words between the places where a word ends.  Ends in front of all other words count
once. -/
def chunks (words : List (List UInt8)) : List (List (List UInt8)) :=
  if words.head?.any List.isEmpty then [] :: groups (words.dropWhile List.isEmpty) else groups words

/-- What follows a byte in the words that start with it. -/
def wordsAfter (byte : UInt8) (words : List (List UInt8)) : List (List UInt8) :=
  words.filterMap fun word =>
    match word with
    | first :: rest => if first = byte then some rest else none
    | [] => none

/-- The size of the states for words that share what is read so far; where all of them end there is
none.  Every turn takes a byte of the words. -/
def wordsSize : Nat → List (List UInt8) → Nat
  | 0, _ => 0
  | fuel + 1, words =>
    if words.all List.isEmpty then 0
    else
      let groups := chunks words
      let full := groups.filter fun group => !group.isEmpty
      full.foldl (fun size group =>
        let heads := (group.filterMap List.head?).eraseDups
        let branches := if heads.length = 1 then 32 else 32 + 8 * heads.length
        heads.foldl (fun size byte => size + wordsSize fuel (wordsAfter byte group))
          (size + branches)) (32 + 4 * (full.length + (groups.length - 1)))

/-- The size of a choice between literals, which share the states of their common starts. -/
def literalsSize (direction : Direction) (literals : List (List Char)) : Nat :=
  let words := literals.map (literalBytes direction)
  32 + wordsSize (words.flatten.length + 1) words

/-! ## Automata of nodes -/

namespace Node

/-- The letters of a literal. -/
def literal? : Node → Option (List Char)
  | .literal chars => some chars
  | _ => none

/-- The size of a repetition of a node of some size. -/
def timesSize (size : Nat) (takesText : Bool) (low : Nat) (high? : Option Nat) : Nat :=
  let copies (n : Nat) := if n = 0 then 32 else n * size
  match low, high? with
  | 0, some 1 => 72 + size
  | 0, none => if takesText then 40 + size else size + 112
  | low, none => low * size + 40
  | low, some high => if low = high then copies low else copies low + 32 + (high - low) * (40 + size)

mutual
/-- The size of the automaton of a node.  Only the forward one notes captures. -/
def size (direction : Direction) : Node → Nat
  | .empty | .look _ => 32
  | .literal chars => 32 * (literalBytes direction chars).length
  | .oneOf chars => setSize direction chars
  | .times node low high? _ =>
    timesSize (node.size direction) (node.least?.any (0 < ·)) low high?
  | .capture node => node.size direction + (if direction = .forward then 64 else 0)
  | .sequence nodes => sizeOfAll direction nodes
  | .choice nodes =>
    match nodes.mapM literal? with
    | some literals => literalsSize direction literals
    | none => 64 + 4 * nodes.length + sizeOfAll direction nodes

/-- The size of some nodes together. -/
def sizeOfAll (direction : Direction) : List Node → Nat
  | [] => 0
  | node :: rest => node.size direction + sizeOfAll direction rest
end

/-- The size that an automaton may have. -/
def sizeLimit : Nat := 10 * 1024 * 1024

/-- The size of a whole automaton: the node, the states that try it from every place on, the match,
and forward the capture of the whole match. -/
def wholeSize (direction : Direction) (node : Node) : Nat :=
  144 + node.size direction + 32 + (if direction = .forward then 64 else 0)

/-- Whether a node is within the limit in both directions. -/
def isSmall (node : Node) : Bool :=
  node.wholeSize .forward ≤ sizeLimit && node.wholeSize .backward ≤ sizeLimit

end Node
end Pattern
end ExampleSchema
