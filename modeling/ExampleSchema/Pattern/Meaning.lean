import ExampleSchema.Pattern.Node
import ExampleSchema.Unicode.Query

/-!
# What a pattern means

`Term.meaning?` turns a term into a node under the flags in force.  A change of flags holds for the
terms after it, across alternatives, up to the end of the group around it.  With the `unicode` flag off
a class may have ASCII characters only, and a term that would match anything else has no meaning.
-/

namespace ExampleSchema
namespace Pattern

/-- The flags in force. -/
structure Flags where
  caseless : Bool := false
  multiLine : Bool := false
  dotAll : Bool := false
  swapGreed : Bool := false
  unicode : Bool := true
  crlf : Bool := false
  deriving Repr, DecidableEq, Inhabited

namespace Flags

/-- The flags after a change. -/
def set (f : Flags) (change : FlagChange) : Flags :=
  match change.flag with
  | .caseless => { f with caseless := change.value }
  | .multiLine => { f with multiLine := change.value }
  | .dotAll => { f with dotAll := change.value }
  | .swapGreed => { f with swapGreed := change.value }
  | .unicode => { f with unicode := change.value }
  | .crlf => { f with crlf := change.value }
  | .verbose => f

/-- The flags after some changes. -/
def setAll (f : Flags) (changes : List FlagChange) : Flags := changes.foldl set f

/-- A set of ASCII characters with their other case. -/
def foldAscii (s : CharSet) : CharSet :=
  let lowered := (s.inter (.range 0x41 0x5A)).ranges.map fun r => (r.1 + 0x20, r.2 + 0x20)
  let raised := (s.inter (.range 0x61 0x7A)).ranges.map fun r => (r.1 - 0x20, r.2 - 0x20)
  .normalize (s.ranges ++ lowered ++ raised)

/-- A set in which case does not count if the flags say so. -/
def fold (f : Flags) (s : CharSet) : CharSet :=
  if !f.caseless then s
  else if f.unicode then Unicode.foldCase s
  else foldAscii s

/-- A set or what it leaves.  Without `unicode` a set must not leave ASCII. -/
def signed? (f : Flags) (isNegated : Bool) (s : CharSet) : Option CharSet :=
  if !isNegated then some s
  else if f.unicode then some s.complement
  else none

/-- The set of a letter between brackets. -/
def letterSet? (f : Flags) (low high : Letter) : Option CharSet :=
  if f.unicode || (low.char.toNat < 0x80 && high.char.toNat < 0x80) then
    some (.range low.char.toNat high.char.toNat)
  else none

/-- The set of a property. -/
def propertySet? (f : Flags) (chars : CharSet) (isNegated : Bool) : Option CharSet :=
  if f.unicode then f.signed? isNegated (f.fold chars) else none

/-- The set of a short class, which has either case already. -/
def shortSet? (f : Flags) (kind : ShortClass) (isNegated : Bool) : Option CharSet :=
  let chars := match kind, f.unicode with
    | .digit, true => Unicode.Category.decimalNumber.set
    | .space, true => Unicode.BasicProperty.whiteSpace.set
    | .word, true => Unicode.word
    | .digit, false => AsciiClass.digit.chars
    | .space, false => AsciiClass.space.chars
    | .word, false => AsciiClass.word.chars
  f.signed? isNegated chars

/-- The node of a letter. -/
def letter? (f : Flags) (letter : Letter) : Option Node :=
  let code := letter.char.toNat
  if f.unicode then some (.ofSet (f.fold (.single code)))
  else if letter.isByte && 0x80 ≤ code then none
  else if code < 0x80 then some (.ofSet (f.fold (.single code)))
  else some (.literal [letter.char])

/-- The node of any character. -/
def any? (f : Flags) : Option Node :=
  if !f.unicode then none
  else if f.dotAll then some (.oneOf .all)
  else if f.crlf then some (.oneOf (CharSet.ofTable "A D").complement)
  else some (.oneOf (CharSet.ofTable "A").complement)

/-- The condition of a place. -/
def look (f : Flags) : Anchor → Look
  | .lineStart => if f.multiLine then .lineStart f.crlf else .textStart
  | .lineEnd => if f.multiLine then .lineEnd f.crlf else .textEnd
  | .textStart => .textStart
  | .textEnd => .textEnd
  | .word place => .word place f.unicode

end Flags

mutual
/-- The set of characters that stands between brackets. -/
def ClassTerm.set? (f : Flags) : ClassTerm → Option CharSet
  | .empty => some .none
  | .letter sign => f.letterSet? sign sign
  | .span low high => f.letterSet? low high
  | .ascii kind isNegated => f.signed? isNegated (f.fold kind.chars)
  | .property chars isNegated => f.propertySet? chars isNegated
  | .short kind isNegated => f.shortSet? kind isNegated
  | .bracket isNegated inside => do f.signed? isNegated (f.fold (← inside.set? f))
  | .union items => do some (.normalize (← ClassTerm.ranges? f items))
  | .operate operator left right => do
    let left := f.fold (← left.set? f)
    let right := f.fold (← right.set? f)
    match operator with
    | .intersection => some (left.inter right)
    | .difference => some (left.diff right)
    | .symmetricDifference => some (left.symmDiff right)

/-- The ranges of several items between brackets. -/
def ClassTerm.ranges? (f : Flags) : List ClassTerm → Option (List (Nat × Nat))
  | [] => some []
  | item :: rest => do some ((← item.set? f).ranges ++ (← ClassTerm.ranges? f rest))
end

mutual
/-- The node of a term, and the flags after it. -/
def Term.node? (f : Flags) : Term → Option (Node × Flags)
  | .empty => some (.empty, f)
  | .flags changes => some (.empty, f.setAll changes)
  | .letter sign => (f.letter? sign).map (·, f)
  | .any => f.any?.map (·, f)
  | .anchor place => some (.look (f.look place), f)
  | .property chars isNegated => (f.propertySet? chars isNegated).map (Node.ofSet ·, f)
  | .short kind isNegated => (f.shortSet? kind isNegated).map (Node.ofSet ·, f)
  | .bracket isNegated inside => (ClassTerm.set? f (.bracket isNegated inside)).map (Node.ofSet ·, f)
  | .repeated term low high? isLazy => do
    let (node, g) ← term.node? f
    some (.ofRepeat node low high? (isLazy != g.swapGreed), g)
  | .group .capture term => do some (.capture (← term.node? f).1, f)
  | .group (.plain changes) term => do some ((← term.node? (f.setAll changes)).1, f)
  | .sequence terms => do
    let (nodes, f) ← Term.nodes? f terms
    some (.ofSequence nodes, f)
  | .choice terms => do
    let (nodes, f) ← Term.nodes? f terms
    some (.ofChoice nodes, f)

/-- The nodes of terms of which each has the flags after the one before. -/
def Term.nodes? (f : Flags) : List Term → Option (List Node × Flags)
  | [] => some ([], f)
  | term :: rest => do
    let (node, f) ← term.node? f
    let (nodes, f) ← Term.nodes? f rest
    some (node :: nodes, f)
end

/-- What a whole pattern means. -/
def Term.meaning? (term : Term) : Option Node := (term.node? {}).map Prod.fst

end Pattern
end ExampleSchema
