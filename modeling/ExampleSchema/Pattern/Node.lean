import ExampleSchema.Pattern.Term

/-!
# Simplified patterns

A `Node` is a pattern in which flags are gone: every class is a set of characters and every place says
exactly where it matches.  Nodes are built by the functions below, which simplify as they build:
neighbouring letters join to one literal, lists inside lists are flattened, and alternatives that are
single characters become one set.  The size of a node, which is limited, is taken after that.

* `Node.ofSet`, `Node.ofRepeat`, `Node.ofSequence`, `Node.ofChoice`: the builders.
* `Node.least?`, `Node.isWidthless`: how much text a node takes.
* `Node.alike`: when two nodes are the same.
-/

namespace ExampleSchema
namespace Pattern

/-- A condition on a place in a text. -/
inductive Look where
  | textStart
  | textEnd
  /-- The start of a line, which ends with a line feed or, with `crlf`, in either of three ways. -/
  | lineStart (crlf : Bool)
  /-- The end of a line. -/
  | lineEnd (crlf : Bool)
  /-- A place of a word, with all word characters or only those of ASCII. -/
  | word (place : WordPlace) (unicode : Bool)
  deriving Repr, DecidableEq, Inhabited

/-- A simplified pattern. -/
inductive Node where
  | empty
  | literal (chars : List Char)
  | oneOf (chars : CharSet)
  | look (look : Look)
  | times (node : Node) (low : Nat) (high? : Option Nat) (isLazy : Bool)
  | capture (node : Node)
  | sequence (nodes : List Node)
  | choice (nodes : List Node)
  deriving Repr, Inhabited

namespace Node

/-! ## Widths -/

mutual
/-- The number of characters that a node takes at least.  Nothing can be said of a node with a part
that never matches. -/
def least? : Node → Option Nat
  | .empty => some 0
  | .literal chars => some chars.length
  | .oneOf chars => if chars.isEmpty then none else some 1
  | .look _ => some 0
  | .times node low _ _ => node.least?.map (· * low)
  | .capture node => node.least?
  | .sequence nodes => leastSum? nodes
  | .choice nodes => leastMin? nodes

/-- The least number of characters of nodes one after the other. -/
def leastSum? : List Node → Option Nat
  | [] => some 0
  | node :: rest =>
    match node.least?, leastSum? rest with
    | some a, some b => some (a + b)
    | _, _ => none

/-- The least number of characters of one of some nodes. -/
def leastMin? : List Node → Option Nat
  | [] => none
  | [node] => node.least?
  | node :: rest =>
    match node.least?, leastMin? rest with
    | some a, some b => some (min a b)
    | _, _ => none
end

mutual
/-- Whether a node never takes a character. -/
def isWidthless : Node → Bool
  | .empty | .look _ => true
  | .literal _ | .oneOf _ => false
  | .times node _ _ _ => node.isWidthless
  | .capture node => node.isWidthless
  | .sequence nodes | .choice nodes => areWidthless nodes

/-- Whether none of some nodes ever takes a character. -/
def areWidthless : List Node → Bool
  | [] => true
  | node :: rest => node.isWidthless && areWidthless rest
end

/-! ## Sameness -/

mutual
/-- Whether two nodes are the same.  No two captures are. -/
def alike : Node → Node → Bool
  | .empty, .empty => true
  | .literal a, .literal b => a == b
  | .oneOf a, .oneOf b => a == b
  | .look a, .look b => a == b
  | .times a low high? isLazy, .times b low' high'? isLazy' =>
    alike a b && low == low' && high? == high'? && isLazy == isLazy'
  | .sequence a, .sequence b => allAlike a b
  | .choice a, .choice b => allAlike a b
  | _, _ => false

/-- Whether two lists of nodes are the same. -/
def allAlike : List Node → List Node → Bool
  | [], [] => true
  | a :: s, b :: t => alike a b && allAlike s t
  | _, _ => false
end

/-- The number of nodes at the start of two lists that are the same. -/
def sharedCount : List Node → List Node → Nat
  | a :: s, b :: t => if alike a b then sharedCount s t + 1 else 0
  | _, _ => 0

/-! ## Building -/

/-- A node for a set: a set of one character is a literal. -/
def ofSet (chars : CharSet) : Node :=
  match chars.ranges with
  | [(low, high)] => if low = high then .literal [Char.ofNat low] else .oneOf chars
  | _ => .oneOf chars

/-- A repetition.  What takes no character is repeated at most once. -/
def ofRepeat (node : Node) (low : Nat) (high? : Option Nat) (isLazy : Bool) : Node :=
  let (low, high?) :=
    if node.isWidthless then (min low 1, some (min (high?.getD 1) 1)) else (low, high?)
  if high? = some 0 then .empty
  else if low = 1 ∧ high? = some 1 then node
  else .times node low high? isLazy

/-- Puts a node in front of others, joining two literals. -/
def consLiteral : Node → List Node → List Node
  | .literal a, .literal b :: rest => .literal (a ++ b) :: rest
  | node, rest => node :: rest

/-- The nodes that a node contributes to a sequence. -/
def inSequence : Node → List Node
  | .empty => []
  | .sequence nodes => nodes
  | node => [node]

/-- Nodes one after the other. -/
def ofSequence (nodes : List Node) : Node :=
  match (nodes.flatMap inSequence).foldr consLiteral [] with
  | [] => .empty
  | [node] => node
  | nodes => .sequence nodes

/-- The nodes that a node contributes to a choice. -/
def inChoice : Node → List Node
  | .choice nodes => nodes
  | node => [node]

/-- The set of a literal of one character. -/
def singleton? : Node → Option CharSet
  | .literal [c] => some (.single c.toNat)
  | _ => none

/-- The set of a node that is one. -/
def set? : Node → Option CharSet
  | .oneOf chars => some chars
  | _ => none

/-- The nodes of a sequence. -/
def parts? : Node → Option (List Node)
  | .sequence nodes => some nodes
  | _ => none

/-- The union of some sets. -/
def unionOf (sets : List CharSet) : Node := ofSet (.normalize (sets.flatMap CharSet.ranges))

/-- One of several nodes: single characters, or sets of them, make one set. -/
def ofFlatChoice (nodes : List Node) : Node :=
  match nodes with
  | [] => .oneOf .none
  | [node] => node
  | nodes =>
    match (nodes.mapM singleton?).or (nodes.mapM set?) with
    | some sets => unionOf sets
    | none => .choice nodes

/-- One of several sequences that start with the same nodes, written as these nodes and then a
choice. -/
def factored? (nodes : List Node) : Option Node :=
  match nodes.mapM parts? with
  | some (first :: others) =>
    let shared := others.foldl (fun n parts => min n (sharedCount first parts)) first.length
    if shared = 0 then none
    else
      let rests := (first :: others).map fun parts => ofSequence (parts.drop shared)
      some (ofSequence (first.take shared ++ [ofFlatChoice (rests.flatMap inChoice)]))
  | _ => none

/-- One of several nodes. -/
def ofChoice (nodes : List Node) : Node :=
  match ofFlatChoice (nodes.flatMap inChoice) with
  | .choice nodes => (factored? nodes).getD (.choice nodes)
  | node => node

end Node
end Pattern
end ExampleSchema
