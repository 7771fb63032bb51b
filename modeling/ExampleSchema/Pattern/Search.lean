import ExampleSchema.Pattern.Node
import ExampleSchema.Unicode.Query

/-!
# Searching a text for a pattern

The places of a text of `n` characters are `0` to `n`, and a set of places is a number whose binary
digits say which places are in it.  A node then is a map on sets of places: from the places where a
match may start to those where it may end.  `Plan` is a node prepared for one text, in which every set
of characters has become the set of places before its members.

* `Plan.run`: the places that a plan reaches.
* `Node.occursIn`: whether a node matches somewhere in a text.
-/

namespace ExampleSchema
namespace Pattern

/-- A set of places in a text. -/
abbrev Places := Nat

/-- The places whose number satisfies a condition, of those below a bound. -/
def placesWhere (bound : Nat) (holds : Nat → Bool) : Places :=
  bound.fold (fun i _ places => if holds i then places ||| (1 <<< i) else places) 0

/-! ## Conditions on places -/

/-- Whether a place of a word is one between two characters, said by whether they are word
characters. -/
def WordPlace.holds : WordPlace → (before after : Bool) → Bool
  | .boundary, before, after => before != after
  | .noBoundary, before, after => before == after
  | .start, before, after => !before && after
  | .stop, before, after => before && !after
  | .startHalf, before, _ => !before
  | .stopHalf, _, after => !after

/-- Whether a condition holds between two characters, of which one is missing at an end of the
text. -/
def Look.holds : Look → (before after : Option Char) → Bool
  | .textStart, before, _ => before.isNone
  | .textEnd, _, after => after.isNone
  | .lineStart false, before, _ => before.all (· == '\n')
  | .lineStart true, before, after =>
    before.all (· == '\n') || (before == some '\r' && after != some '\n')
  | .lineEnd false, _, after => after.all (· == '\n')
  | .lineEnd true, before, after =>
    after.all (· == '\r') || (after == some '\n' && before != some '\r')
  | .word place isUnicode, before, after =>
    let chars := if isUnicode then Unicode.word else AsciiClass.word.chars
    let isWord (c : Char) := chars.contains c.toNat
    place.holds (before.any isWord) (after.any isWord)

/-! ## Plans -/

/-- A node prepared for one text. -/
inductive Plan where
  /-- Goes nowhere from the places of a set. -/
  | stay (allowed : Places)
  /-- Goes one character on from the places of a set. -/
  | advance (allowed : Places)
  | times (plan : Plan) (low : Nat) (high? : Option Nat)
  | sequence (plans : List Plan)
  | choice (plans : List Plan)
  deriving Repr, Inhabited

namespace Plan

/-- Applies a map to a set of places a number of times. -/
def iterate (step : Places → Places) : Nat → Places → Places
  | 0, places => places
  | n + 1, places => if places = 0 then 0 else iterate step n (step places)

/-- Adds to the places reached what a map reaches from the newest of them in a number of turns. -/
def spread (step : Places → Places) : Nat → (reached newest : Places) → Places
  | 0, reached, _ => reached
  | n + 1, reached, newest =>
    let newest := step newest
    let newest := newest ^^^ (newest &&& reached)
    if newest = 0 then reached else spread step n (reached ||| newest) newest

mutual
/-- The places that a plan reaches from a set of places.  In a text with `length` characters, one turn
more than that already has a turn that takes no text, so further turns reach nothing else. -/
def run (length : Nat) : Plan → Places → Places
  | .stay allowed, places => places &&& allowed
  | .advance allowed, places => (places &&& allowed) <<< 1
  | .times plan low high?, places =>
    let turns := length + 1
    let reached := iterate (plan.run length) (min low turns) places
    let more := match high? with
      | some high => min (high - low) turns
      | none => turns
    spread (plan.run length) more reached reached
  | .sequence plans, places => runAll length plans places
  | .choice plans, places => runAny length plans places

/-- The places that plans reach one after the other. -/
def runAll (length : Nat) : List Plan → Places → Places
  | [], places => places
  | plan :: rest, places => if places = 0 then 0 else runAll length rest (plan.run length places)

/-- The places that one of some plans reaches. -/
def runAny (length : Nat) : List Plan → Places → Places
  | [], _ => 0
  | plan :: rest, places => plan.run length places ||| runAny length rest places
end

end Plan

namespace Node

/-- The places before the characters of a set. -/
def placesBefore (text : Array Char) (holds : Char → Bool) : Places :=
  placesWhere text.size fun i => text[i]?.any holds

mutual
/-- Prepares a node for a text. -/
def plan (text : Array Char) : Node → Plan
  | .empty => .sequence []
  | .literal chars => .sequence (chars.map fun c => .advance (placesBefore text (· == c)))
  | .oneOf chars => .advance (placesBefore text fun c => chars.contains c.toNat)
  | .look condition =>
    .stay (placesWhere (text.size + 1) fun i =>
      condition.holds (if i = 0 then none else text[i - 1]?) text[i]?)
  | .times node low high? _ => .times (node.plan text) low high?
  | .capture node => node.plan text
  | .sequence nodes => .sequence (plans text nodes)
  | .choice nodes => .choice (plans text nodes)

/-- Prepares some nodes for a text. -/
def plans (text : Array Char) : List Node → List Plan
  | [] => []
  | node :: rest => node.plan text :: plans text rest
end

/-- Whether a node matches somewhere in a text. -/
def occursIn (node : Node) (text : String) : Bool :=
  let chars := text.toList.toArray
  (node.plan chars).run chars.size (1 <<< (chars.size + 1) - 1) != 0

end Node
end Pattern
end ExampleSchema
