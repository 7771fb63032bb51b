import ExampleSchema.Pattern.Bracket

/-!
# Reading patterns

`Term.parse?` reads a pattern.  Groups nest, so the reader keeps a stack of the groups that are open,
each with the terms and alternatives in front of it.  Nothing tells why a pattern is malformed: it has
a term or it has none.
-/

namespace ExampleSchema
namespace Pattern

/-- A group that is open, with what is in front of it. -/
structure OpenGroup where
  head : GroupHead
  terms : List Term
  branches : List Term
  /-- Whether blanks count in the group around it. -/
  verbose : Bool
  deriving Repr, Inhabited

/-- What is read of a pattern. -/
structure Reader where
  /-- The groups that are open, innermost first. -/
  groups : List OpenGroup := []
  /-- The terms of the alternative that is being read, the last one first. -/
  terms : List Term := []
  /-- The alternatives before it, the last one first. -/
  branches : List Term := []
  /-- Whether blanks and comments do not count. -/
  verbose : Bool := false
  /-- The names of captures. -/
  names : List (List Char) := []
  deriving Repr, Inhabited

namespace Reader

/-- Adds a term. -/
def push (r : Reader) (term : Term) : Reader := { r with terms := term :: r.terms }

/-- The alternative that is being read. -/
def alternative (r : Reader) : Term := .ofSequence r.terms.reverse

/-- The alternatives since the innermost group opened. -/
def whole (r : Reader) : Term := .ofChoice (r.alternative :: r.branches).reverse

/-- Ends an alternative. -/
def divide (r : Reader) : Reader :=
  { r with terms := [], branches := r.alternative :: r.branches }

/-- Repeats the last term. -/
def repeatLast? (r : Reader) (low : Nat) (high? : Option Nat) (isLazy : Bool) : Option Reader :=
  match r.terms with
  | term :: rest =>
    if term.isRepeatable then some { r with terms := .repeated term low high? isLazy :: rest }
    else none
  | [] => none

/-- Starts what an opening parenthesis starts.  No two captures have one name. -/
def enter? (r : Reader) : Opening → Option Reader
  | .flags changes =>
    some { r.push (.flags changes) with verbose := (changed? changes .verbose).getD r.verbose }
  | .group head name? =>
    if name?.any r.names.contains then none
    else
      let changes := match head with
        | .capture => []
        | .plain changes => changes
      some {
        groups := ⟨head, r.terms, r.branches, r.verbose⟩ :: r.groups
        verbose := (changed? changes .verbose).getD r.verbose
        names := name?.toList ++ r.names }

/-- Closes the innermost group. -/
def leave? (r : Reader) : Option Reader :=
  match r.groups with
  | [] => none
  | group :: groups =>
    some { r with
      groups
      terms := .group group.head r.whole :: group.terms
      branches := group.branches
      verbose := group.verbose }

/-- Takes a count and the lazy sign that may follow it. -/
def takeRepeat? (r : Reader) (low : Nat) (high? : Option Nat) (text : List Char) :
    Option (Reader × List Char) :=
  match text with
  | '?' :: rest => (r.repeatLast? low high? true).map (·, rest)
  | _ => (r.repeatLast? low high? false).map (·, text)

/-- Takes a term that was read. -/
def takeTerm? (r : Reader) (found? : Option (Term × List Char)) : Option (Reader × List Char) :=
  found?.map fun found => (r.push found.1, found.2)

/-- Takes the next part of a pattern. -/
def step? (r : Reader) (first : Char) (rest : List Char) : Option (Reader × List Char) :=
  match first with
  | '(' => do
    let (opening, rest) ← opening? (skip r.verbose rest)
    some (← r.enter? opening, rest)
  | ')' => r.leave?.map (·, rest)
  | '|' => some (r.divide, rest)
  | '[' => r.takeTerm? (bracketed? r.verbose rest)
  | '?' => r.takeRepeat? 0 (some 1) rest
  | '*' => r.takeRepeat? 0 none rest
  | '+' => r.takeRepeat? 1 none rest
  | '{' => do
    let (low, high?, rest) ← counted? r.verbose rest
    r.takeRepeat? low high? (skip r.verbose rest)
  | '\\' => r.takeTerm? (escaped? r.verbose rest)
  | '.' => some (r.push .any, rest)
  | '^' => some (r.push (.anchor .lineStart), rest)
  | '$' => some (r.push (.anchor .lineEnd), rest)
  | c => some (r.push (.letter { char := c }), rest)

/-- Takes the rest of a pattern.  Every turn takes a sign, so as many turns as signs are enough. -/
def run? : Nat → Reader → List Char → Option Reader
  | 0, _, _ => none
  | fuel + 1, r, text =>
    match skip r.verbose text with
    | [] => some r
    | first :: rest => do
      let (r, rest) ← r.step? first rest
      run? fuel r rest

end Reader

/-- Reads a pattern: every group closes, and nothing is nested too deep. -/
def Term.parse? (pattern : String) : Option Term := do
  let text := pattern.toList
  let reader ← Reader.run? (text.length + 1) {} text
  if !reader.groups.isEmpty then none
  else
    let term := reader.whole
    if term.depth ≤ Term.depthLimit then some term else none

end Pattern
end ExampleSchema
