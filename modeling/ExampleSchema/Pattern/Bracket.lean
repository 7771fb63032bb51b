import ExampleSchema.Pattern.Escape

/-!
# Classes in brackets

`bracketed?` reads a class in brackets.  Brackets nest, and `&&`, `--` and `~~` combine what stands on
their sides from left to right, so the reader keeps a stack of `BracketFrame`s: brackets that are open
and operators that wait for their right side.
-/

namespace ExampleSchema
namespace Pattern

/-- What a bracket waits for. -/
inductive BracketFrame where
  /-- An open bracket, and the items around it, the last one first. -/
  | opened (isNegated : Bool) (outer : List ClassTerm)
  /-- An operator and its left side. -/
  | operand (operator : SetOperator) (left : ClassTerm)
  deriving Repr, Inhabited

/-- What a primitive term means as an item between brackets: a place means nothing there. -/
def ClassTerm.ofTerm? : Term → Option ClassTerm
  | .letter sign => some (.letter sign)
  | .property chars isNegated => some (.property chars isNegated)
  | .short kind isNegated => some (.short kind isNegated)
  | _ => none

/-- The range between two terms, which have to be letters in order. -/
def spanOf? : Term → Term → Option ClassTerm
  | .letter low, .letter high =>
    if low.char.toNat ≤ high.char.toNat then some (.span low high) else none
  | _, _ => none

/-- Reads one sign between brackets. -/
def sign? (verbose : Bool) : List Char → Option (Term × List Char)
  | [] => none
  | '\\' :: rest => escaped? verbose rest
  | c :: rest => some (.letter { char := c }, rest)

/-- The sign after a dash, whatever blanks are between them.  A comment between them hides only its
first sign. -/
def signAfterDash (verbose : Bool) (text : List Char) : Option Char :=
  if verbose then
    let rest := text.dropWhile isBlank
    let rest := if rest.head? == some '#' then (rest.drop 1).dropWhile isBlank else rest
    rest.head?.or text.head?
  else text.head?

/-- Reads an item: a letter, a range of letters or an escaped class.  A dash before another dash or a
closing bracket makes no range. -/
def item? (verbose : Bool) (text : List Char) : Option (ClassTerm × List Char) := do
  let (low, rest) ← sign? verbose text
  let rest := skip verbose rest
  match rest with
  | [] => none
  | '-' :: afterDash =>
    let next := signAfterDash verbose afterDash
    if next == some ']' || next == some '-' then some (← ClassTerm.ofTerm? low, rest)
    else
      let (high, rest) ← sign? verbose (skip verbose afterDash)
      some (← spanOf? low high, rest)
  | _ => some (← ClassTerm.ofTerm? low, rest)

/-- Reads a named class `[:name:]` after its opening bracket, where no blank counts. -/
def named? (text : List Char) : Option (ClassTerm × List Char) :=
  match text with
  | ':' :: rest =>
    let isNegated := rest.head? == some '^'
    let rest := if isNegated then rest.drop 1 else rest
    let name := rest.takeWhile (· != ':')
    match rest.drop name.length with
    | ':' :: ']' :: rest =>
      (AsciiClass.ofName? (.ofList name)).map fun kind => (.ascii kind isNegated, rest)
    | _ => none
  | _ => none

/-- Reads the dashes at the start of a class, each of which is a letter. -/
def leadingDashes (verbose : Bool) (items : List ClassTerm) (text : List Char) :
    List ClassTerm × List Char :=
  match text with
  | '-' :: rest => leadingDashes verbose (.letter { char := '-' } :: items) (skip verbose rest)
  | _ => (items, text)
termination_by text.length
decreasing_by exact Nat.lt_succ_of_le (length_skip_le verbose rest)

/-- Reads the start of a class after its bracket: whether it is negated, and the dashes or the closing
bracket that are letters there. -/
def bracketStart (verbose : Bool) (text : List Char) : Bool × List ClassTerm × List Char :=
  let text := skip verbose text
  let isNegated := text.head? == some '^'
  let text := if isNegated then skip verbose (text.drop 1) else text
  match leadingDashes verbose [] text with
  | ([], ']' :: rest) => (isNegated, [.letter { char := ']' }], skip verbose rest)
  | (items, rest) => (isNegated, items, rest)

/-- Gives an operator that waits its right side. -/
def settle (frames : List BracketFrame) (right : ClassTerm) : List BracketFrame × ClassTerm :=
  match frames with
  | .operand operator left :: rest => (rest, .operate operator left right)
  | _ => (frames, right)

/-- The class of the items since the last bracket or operator. -/
def settleItems (frames : List BracketFrame) (items : List ClassTerm) :
    List BracketFrame × ClassTerm :=
  settle frames (.ofItems items.reverse)

/-- Reads the rest of a class, with the frames around the place and the items since the last of them.
Every turn takes a sign, so as many turns as signs are enough. -/
def bracketRest? (verbose : Bool) :
    Nat → List BracketFrame → List ClassTerm → List Char → Option (Term × List Char)
  | 0, _, _, _ => none
  | fuel + 1, frames, items, text =>
    let operate (operator : SetOperator) (rest : List Char) :=
      let (frames, left) := settleItems frames items
      bracketRest? verbose fuel (.operand operator left :: frames) [] rest
    match skip verbose text with
    | [] => none
    | '[' :: rest =>
      match named? rest with
      | some (item, rest) => bracketRest? verbose fuel frames (item :: items) rest
      | none =>
        let (isNegated, inner, rest) := bracketStart verbose rest
        bracketRest? verbose fuel (.opened isNegated items :: frames) inner rest
    | ']' :: rest =>
      match settleItems frames items with
      | (.opened isNegated _ :: [], inside) => some (.bracket isNegated inside, rest)
      | (.opened isNegated outer :: frames, inside) =>
        bracketRest? verbose fuel frames (.bracket isNegated inside :: outer) rest
      | _ => none
    | '&' :: '&' :: rest => operate .intersection rest
    | '-' :: '-' :: rest => operate .difference rest
    | '~' :: '~' :: rest => operate .symmetricDifference rest
    | text => do
      let (item, rest) ← item? verbose text
      bracketRest? verbose fuel frames (item :: items) rest

/-- Reads a class after its opening bracket. -/
def bracketed? (verbose : Bool) (text : List Char) : Option (Term × List Char) :=
  let (isNegated, items, rest) := bracketStart verbose text
  bracketRest? verbose (text.length + 1) [.opened isNegated []] items rest

end Pattern
end ExampleSchema
