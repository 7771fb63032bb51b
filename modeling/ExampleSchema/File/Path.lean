/-!
# Paths

A path is written as pieces between slashes.  Empty pieces and `.` are idle: they stay where they are.
Paths are compared by their parts, not by their texts, so `a//b` and `a/./b` take the same place in the
order.

* `Path.ofString`: reading a path.
* `Path.parts`, `Path.le`: the parts of a path, and the order of paths.
* `Path.parent?`: the folder in which a path lies.
-/

namespace ExampleSchema

/-- A path: whether it starts at the root, and the pieces between its slashes after that. -/
structure Path where
  fromRoot : Bool
  pieces : List String
  deriving DecidableEq, Inhabited

namespace Path

/-- The pieces of a text between its slashes. -/
def split : List Char → List (List Char)
  | [] => [[]]
  | c :: rest =>
    if c == '/' then [] :: split rest
    else match split rest with
      | piece :: pieces => (c :: piece) :: pieces
      | [] => [[c]]

/-- The path that a text writes.  The empty text has no pieces. -/
def ofString (text : String) : Path :=
  match split text.toList with
  | [[]] => ⟨false, []⟩
  | [] :: pieces => ⟨true, pieces.map String.ofList⟩
  | pieces => ⟨false, pieces.map String.ofList⟩

/-- The text that writes a path. -/
def text (p : Path) : String := (if p.fromRoot then "/" else "") ++ "/".intercalate p.pieces

/-- How many bytes the path is long. -/
def size (p : Path) : Nat := p.text.utf8ByteSize

/-- The path of an empty text. -/
def isEmpty (p : Path) : Bool := !p.fromRoot && p.pieces.isEmpty

/-- A piece that stays where it is. -/
def isIdle (piece : String) : Bool := piece == "" || piece == "."

/-- A piece that names no entry of a folder. -/
def isStep (piece : String) : Bool := isIdle piece || piece == ".."

/-! ## The order of paths -/

/-- A part of a path that counts in comparisons. -/
inductive Part where
  | root
  | here
  | up
  | name (text : String)
  deriving DecidableEq

namespace Part

/-- The place of a kind of part in the order. -/
def rank : Part → Nat
  | root => 0
  | here => 1
  | up => 2
  | name _ => 3

/-- Whether a part comes before another.  Names are in the order of their characters, which is also
the order of their bytes. -/
def before : Part → Part → Bool
  | name a, name b => a < b
  | a, b => a.rank < b.rank

/-- The parts that a piece gives. -/
def ofPiece (piece : String) : List Part :=
  if isIdle piece then []
  else if piece == ".." then [up]
  else [name piece]

/-- Whether a list of parts comes before another or is the same. -/
def le : List Part → List Part → Bool
  | [], _ => true
  | _ :: _, [] => false
  | a :: as, b :: bs => a.before b || (a == b && le as bs)

end Part

/-- The parts of a path.  A `.` counts only where the path starts with it. -/
def parts (p : Path) : List Part :=
  (if p.fromRoot then [.root] else if p.pieces.head? == some "." then [.here] else [])
    ++ p.pieces.flatMap Part.ofPiece

/-- The order of paths. -/
def le (p q : Path) : Bool := Part.le p.parts q.parts

/-- Texts of paths in the order of the paths.  Texts of the same place keep their order. -/
def sort (texts : List String) : List String :=
  texts.mergeSort fun a b => (ofString a).le (ofString b)

/-! ## Going up and down -/

/-- The path up to its last part that is not idle. -/
def parent? (p : Path) : Option Path :=
  match p.pieces.reverse.dropWhile isIdle with
  | _ :: before => some ⟨p.fromRoot, (before.dropWhile isIdle).reverse⟩
  | [] => if p.parts == [.here] then some ⟨false, []⟩ else none

/-- The text of a path followed by a piece. -/
def join (folder piece : String) : String :=
  if folder.toList.getLast? == some '/' then folder ++ piece else folder ++ "/" ++ piece

/-- Whether a text writes the folder `.` and nothing else. -/
def isHere (text : String) : Bool := (ofString text).parts == [.here]

/-- The text of an entry of a folder.  The entries of `.` are written without it. -/
def enter (folder piece : String) : String :=
  if isHere folder then piece else join folder piece

/-- The folder in which a path lies has fewer pieces. -/
theorem length_parent {p q : Path} (h : p.parent? = some q) : q.pieces.length < p.pieces.length := by
  have shorter := (List.dropWhile_suffix isIdle (l := p.pieces.reverse)).length_le
  simp only [List.length_reverse] at shorter
  unfold parent? at h
  split at h
  next before eq =>
    have shorter' := (List.dropWhile_suffix isIdle (l := before)).length_le
    obtain rfl := Option.some.inj h
    simp only [eq, List.length_cons] at shorter
    simp only [List.length_reverse]
    omega
  next =>
    split at h
    next here =>
      obtain rfl := Option.some.inj h
      obtain ⟨fromRoot, pieces⟩ := p
      cases pieces with
      | nil => cases fromRoot <;> simp [parts] at here
      | cons => simp
    next => contradiction

end Path
end ExampleSchema
