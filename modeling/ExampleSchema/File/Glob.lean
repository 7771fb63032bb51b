import ExampleSchema.File.Disk

/-!
# Patterns of file names

A pattern is a path in which `?` stands for a character, `*` for any characters, `[…]` and `[!…]` for
one of some characters or none of them, and a component `**` for any folders on the way.  Which names a
component accepts is found from the end of both: `Wild.row` says of every ending of a name whether the
pattern accepts it, so that the work grows with the product of the two lengths.

* `Glob.parse`: reading a pattern.
* `Wild.accepts`: the names that a component accepts.
* `Glob.expand`: the paths on a disk that a pattern stands for.
-/

namespace ExampleSchema

/-- One element of a component. -/
inductive Wild where
  /-- A character that stands for itself. -/
  | char (c : Char)
  /-- Any character. -/
  | any
  /-- Any characters. -/
  | run
  /-- Any folders. -/
  | tree
  /-- A character in one of some ranges, or in none of them. -/
  | oneOf (negated : Bool) (ranges : List (Char × Char))
  deriving DecidableEq

/-- What is wrong with a pattern. -/
inductive GlobFault where
  | tooManyStars
  | treeInComponent
  | badRange
  deriving DecidableEq

/-- A fault and where it is, in characters. -/
structure GlobError where
  position : Nat
  fault : GlobFault
  deriving DecidableEq

namespace GlobError

/-- What a reader is told about a fault. -/
def message : GlobFault → String
  | .tooManyStars => "wildcards are either regular `*` or recursive `**`"
  | .treeInComponent => "recursive wildcards must form a single path component"
  | .badRange => "invalid range pattern"

/-- What a reader is told. -/
def text (e : GlobError) : String :=
  s!"Pattern syntax error near position {e.position}: " ++ message e.fault

end GlobError

namespace Wild

/-! ## Reading -/

/-- The ranges that the characters between brackets stand for. -/
def ranges : List Char → List (Char × Char)
  | first :: '-' :: last :: rest => (first, last) :: ranges rest
  | c :: rest => (c, c) :: ranges rest
  | [] => []

/-- An element read, how many characters it takes, and the character before the next one. -/
structure Piece where
  wild : Wild
  width : Nat
  last : Char

/-- The element that begins with stars. -/
def stars (position : Nat) (before? : Option Char) (text : List Char) : Except GlobError Piece :=
  let count := (text.takeWhile (· == '*')).length
  if count > 2 then .error ⟨position + 2, .tooManyStars⟩
  else if count < 2 then .ok ⟨.run, 1, '*'⟩
  else if before?.any (· != '/') then .error ⟨position - 1, .treeInComponent⟩
  else match text.drop 2 with
    | [] => .ok ⟨.tree, 2, '*'⟩
    | '/' :: _ => .ok ⟨.tree, 3, '/'⟩
    | _ => .error ⟨position + 2, .treeInComponent⟩

/-- The element that begins with a bracket.  The first character between brackets is not the closing
one. -/
def brackets (position : Nat) (text : List Char) : Except GlobError Piece :=
  let (negated, inner) := match text with
    | '!' :: rest => (true, rest)
    | _ => (false, text)
  match inner with
  | [] => .error ⟨position, .badRange⟩
  | first :: rest =>
    let more := rest.takeWhile (· != ']')
    if more.length == rest.length then .error ⟨position, .badRange⟩
    else .ok ⟨.oneOf negated (ranges (first :: more)), negated.toNat + more.length + 3, ']'⟩

/-- The first element of a text. -/
def piece (position : Nat) (before? : Option Char) (c : Char) (rest : List Char) :
    Except GlobError Piece :=
  match c with
  | '?' => .ok ⟨.any, 1, '?'⟩
  | '*' => stars position before? (c :: rest)
  | '[' => brackets position rest
  | _ => .ok ⟨.char c, 1, c⟩

/-- The elements of a text. -/
def parseFrom (position : Nat) (before? : Option Char) : List Char → Except GlobError (List Wild)
  | [] => .ok []
  | c :: rest => do
    let p ← piece position before? c rest
    return p.wild :: (← parseFrom (position + p.width) (some p.last) (rest.drop (p.width - 1)))
termination_by text => text.length
decreasing_by
  simp only [List.length_drop, List.length_cons]
  omega

/-- The elements of a text. -/
def parse (text : List Char) : Except GlobError (List Wild) := parseFrom 0 none text

/-! ## Accepting names -/

/-- Whether an element that stands for one character stands for this one. -/
def takes (w : Wild) (c : Char) : Bool :=
  match w with
  | char a => a == c
  | any => true
  | oneOf negated ranges => ranges.any (fun (first, last) => first ≤ c && c ≤ last) != negated
  | run | tree => false

/-- Of every ending, whether a flag is set for it or for a shorter one. -/
def orShorter : List Bool → List Bool
  | [] => []
  | flag :: flags =>
    let shorter := orShorter flags
    (flag || shorter.headD false) :: shorter

/-- Of every ending, whether its first character is right and the flag of the rest is set. -/
def orNext (right : Char → Bool) : List Char → List Bool → List Bool
  | c :: rest, _ :: flag :: flags => (right c && flag) :: orNext right rest (flag :: flags)
  | _, _ => [false]

/-- Of every ending of a name from the whole one to the empty one, whether the elements accept it. -/
def row (name : List Char) : List Wild → List Bool
  | [] => List.replicate name.length false ++ [true]
  | w :: rest =>
    match w with
    | run | tree => orShorter (row name rest)
    | _ => orNext w.takes name (row name rest)

/-- Whether the elements accept a name. -/
def accepts (component : List Wild) (name : String) : Bool := (row name.toList component).headD false

/-- The name that a component without wildcards stands for. -/
def literal? (component : List Wild) : Option String :=
  String.ofList <$> component.mapM fun
    | char c => some c
    | _ => none

/-- A component that stands for any folders. -/
def isTree (component : List Wild) : Bool := component == [tree]

end Wild

/-- A pattern: where it starts, its components, and whether it accepts folders only. -/
structure Glob where
  fromRoot : Bool
  components : List (List Wild)
  foldersOnly : Bool

namespace Glob

/-- Whether a text is a pattern and not the path of a file. -/
def isPattern (text : String) : Bool := text.toList.any fun c => c == '*' || c == '?' || c == '['

/-- The components of a pattern, without one that only ends a slash. -/
def componentTexts (text : List Char) : List (List Char) :=
  let texts := Path.split text
  if texts.getLast? == some [] then texts.dropLast else texts

/-- Components in which several of any folders are one. -/
def collapse : List (List Wild) → List (List Wild)
  | [] => []
  | c :: rest =>
    match collapse rest with
    | next :: more => if Wild.isTree c && Wild.isTree next then next :: more else c :: next :: more
    | [] => [c]

/-- The pattern that a text writes.  The whole text has to be in order, and then each component on its
own. -/
def parse (text : String) : Except GlobError Glob := do
  let _ ← Wild.parse text.toList
  let (fromRoot, rest) := match text.toList with
    | '/' :: rest => (true, rest)
    | all => (false, all)
  let components ← (componentTexts rest).mapM Wild.parse
  return ⟨fromRoot, collapse components, text.toList.getLast? == some '/'⟩

/-! ## Finding files -/

/-- The texts of the ways below a folder that `wanted` accepts. -/
def below (d : Disk) (folder : String) (wanted : List String → Bool) : List String :=
  match d.resolve (Path.ofString folder) with
  | .ok (.inside names) => ((d.waysBelow names).filter wanted).map fun way => way.foldl Path.enter folder
  | _ => []

/-- The folders `.` and `..` of a folder, which only a component that begins with a dot can mean. -/
def dots (component : List Wild) (folder : String) : List String :=
  if component.head? == some (.char '.') then
    ([".", ".."].filter (Wild.accepts component)).map (Path.join folder)
  else []

/-- The entry of a folder that a name stands for, if it exists. -/
def named (d : Disk) (folder name : String) : List String :=
  let path := Path.enter folder name
  let exists? :=
    if name == "." || name == ".." then d.hasFolder folder
    else (d.resolve (Path.ofString path)).toOption.isSome
  if exists? then [path] else []

/-- Whether a way is one name that a component accepts. -/
def isEntry (component : List Wild) : List String → Bool
  | [name] => Wild.accepts component name
  | _ => false

/-- Whether a way ends with a name that a component accepts. -/
def endsWith (component : List Wild) (way : List String) : Bool := way.getLast?.any (Wild.accepts component)

/-- The paths from a folder on that components stand for. -/
def follow (d : Disk) : List (List Wild) → String → List String
  | [], path => [path]
  | component :: rest, path =>
    if Wild.isTree component then
      match rest with
      | [] => (below d path fun _ => true).filter d.hasFolder
      | next :: more => (below d path (endsWith next)).flatMap (follow d more)
    else match Wild.literal? component with
      | some name => (named d path name).flatMap (follow d rest)
      | none =>
        if d.hasFolder path then
          (below d path (isEntry component) ++ dots component path).flatMap (follow d rest)
        else []

/-- The paths that a pattern stands for. -/
def expand (g : Glob) (d : Disk) : List String :=
  let paths := follow d g.components (if g.fromRoot then "/" else ".")
  if g.foldersOnly then paths.filter d.hasFolder else paths

end Glob
end ExampleSchema
