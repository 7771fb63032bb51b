import ExampleSchema.Text.Bytes

/-!
# Sets of characters

A set of code points as a list of inclusive ranges.  In normal form (`normalize`) the ranges are in
increasing order and neither touch nor overlap; every operation below takes and returns normal forms,
and the tables of the library are written in it.

The surrogates are code points but no characters.  They may lie inside a range, where they never
matter to membership because no text contains one, but no range that an operation makes starts or
ends with one.
-/

namespace ExampleSchema

/-- A set of code points, as ranges with both ends included. -/
structure CharSet where
  ranges : List (Nat × Nat)
  deriving Repr, DecidableEq, Inhabited

namespace CharSet

/-- The last code point. -/
def last : Nat := 0x10FFFF

/-- The set without members. -/
def none : CharSet := ⟨[]⟩

/-- The set of all code points. -/
def all : CharSet := ⟨[(0, last)]⟩

/-- The set of one range. -/
def range (low high : Nat) : CharSet := ⟨[(low, high)]⟩

/-- The set of one character. -/
def single (c : Nat) : CharSet := range c c

/-- Whether a code point is in the set. -/
def contains (s : CharSet) (c : Nat) : Bool := s.ranges.any fun r => r.1 ≤ c && c ≤ r.2

/-- Whether the set has no range. -/
def isEmpty (s : CharSet) : Bool := s.ranges.isEmpty

/-- Whether every member is an ASCII character. -/
def isAscii (s : CharSet) : Bool := s.ranges.all fun r => r.2 < 0x80

/-! ## Normal form -/

/-- Ranges in increasing order of their low end, with those that touch or overlap joined to the
range `low`, `high` in front of them. -/
def join (low high : Nat) : List (Nat × Nat) → List (Nat × Nat)
  | [] => [(low, high)]
  | (a, b) :: rest =>
    if a ≤ high + 1 then join low (max high b) rest else (low, high) :: join a b rest

/-- The set of some ranges, in normal form. -/
def normalize (ranges : List (Nat × Nat)) : CharSet :=
  match ranges.mergeSort (fun r s => r.1 ≤ s.1) with
  | [] => none
  | (a, b) :: rest => ⟨join a b rest⟩

/-! ## Set operations -/

/-- The members of either set. -/
def union (s t : CharSet) : CharSet := normalize (s.ranges ++ t.ranges)

/-- The character after a character: no surrogate is one. -/
def after (c : Nat) : Nat := if c = 0xD7FF then 0xE000 else c + 1

/-- The character before a character: no surrogate is one. -/
def before (c : Nat) : Nat := if c = 0xE000 then 0xD7FF else c - 1

/-- The ranges between the end of a range and the ranges after it.  Where only the surrogates lie
between two ranges the range between them is turned round and holds its two neighbours. -/
def gaps (high : Nat) : List (Nat × Nat) → List (Nat × Nat)
  | [] => if high < last then [(after high, last)] else []
  | (a, b) :: rest =>
    (min (after high) (before a), max (after high) (before a)) :: gaps b rest

/-- The characters that are not members. -/
def complement (s : CharSet) : CharSet :=
  match s.ranges with
  | [] => all
  | (a, b) :: rest => ⟨if 0 < a then (0, before a) :: gaps b rest else gaps b rest⟩

/-- The ranges that two lists of ranges share. -/
def shared : List (Nat × Nat) → List (Nat × Nat) → List (Nat × Nat)
  | [], _ => []
  | _, [] => []
  | (a, b) :: r, (c, d) :: t =>
    let rest := if b < d then shared r ((c, d) :: t) else shared ((a, b) :: r) t
    if max a c ≤ min b d then (max a c, min b d) :: rest else rest
termination_by r t => r.length + t.length

/-- What is left of some ranges without others. -/
def without : List (Nat × Nat) → List (Nat × Nat) → List (Nat × Nat)
  | [], _ => []
  | r, [] => r
  | (a, b) :: r, (c, d) :: t =>
    if d < a then without ((a, b) :: r) t
    else if b < c then (a, b) :: without r ((c, d) :: t)
    else
      let rest := if d < b then without ((after d, b) :: r) t else without r ((c, d) :: t)
      if a < c then (a, before c) :: rest else rest
termination_by r t => r.length + t.length

/-- The members of both sets. -/
def inter (s t : CharSet) : CharSet := ⟨shared s.ranges t.ranges⟩

/-- The members of the first set that the second does not have. -/
def diff (s t : CharSet) : CharSet := ⟨without s.ranges t.ranges⟩

/-- The members of exactly one of the sets. -/
def symmDiff (s t : CharSet) : CharSet := (s.union t).diff (s.inter t)

/-! ## Tables -/

/-- What is read of a table: the ranges so far, the low end of the range being read, and the digits
of the number being read. -/
structure TableState where
  ranges : List (Nat × Nat) := []
  low : Option Nat := Option.none
  number : Option Nat := Option.none

/-- Ends the number that is being read, and with it a range. -/
def TableState.close (t : TableState) : TableState :=
  match t.low, t.number with
  | some low, some high => { ranges := (low, high) :: t.ranges }
  | Option.none, some c => { ranges := (c, c) :: t.ranges }
  | _, Option.none => t

/-- Reads one character of a table. -/
def TableState.step (t : TableState) (c : Char) : TableState :=
  if c = '-' then { t with low := t.number, number := Option.none }
  else match Bytes.hexValue? c.toUInt8 with
    | some d => { t with number := some (t.number.getD 0 * 16 + d) }
    | Option.none => t.close

/-- The set that a table writes: hexadecimal code points and ranges `first-last`, in increasing
order, with blanks between them. -/
def ofTable (table : String) : CharSet :=
  ⟨((table.toList.foldl TableState.step {}).close).ranges.reverse⟩

end CharSet
end ExampleSchema
