import ExampleSchema.File.Path
import ExampleSchema.Text.Bytes

/-!
# Files and folders

A disk is what lies below the current folder.  Everything above it or reached from the root is
outside: there are folders there, and nothing else is known about them.

* `Disk.resolve`: the place that a path leads to.
* `Disk.read`, `Disk.write`: reading and writing files.
* `Disk.makeFolders`: making a folder and all folders on the way to it.
-/

namespace ExampleSchema

/-- Why a file cannot be read or written. -/
inductive FileError where
  | notFound
  | alreadyExists
  | notFolder
  | isFolder
  | nameTooLong
  | other (text : String)
  deriving DecidableEq, Inhabited

namespace FileError

/-- What a reader is told. -/
def text : FileError → String
  | notFound => "No such file or directory (os error 2)"
  | alreadyExists => "File exists (os error 17)"
  | notFolder => "Not a directory (os error 20)"
  | isFolder => "Is a directory (os error 21)"
  | nameTooLong => "File name too long (os error 36)"
  | other text => text

end FileError

/-- What a name can stand for. -/
inductive FileEntry where
  | file (content : Bytes)
  | folder

/-- The files and folders below the current folder, each with the names on the way to it.  A folder
with something in it need not be listed. -/
structure Disk where
  entries : List (List String × FileEntry) := []
  deriving Inhabited

/-- Where a path leads to. -/
inductive Place where
  | inside (names : List String)
  | outside
  deriving DecidableEq, Inhabited

/-- One folder up.  Above the current folder everything is outside. -/
def Place.up : Place → Place
  | inside [] => outside
  | inside names => inside names.dropLast
  | outside => outside

namespace Disk

/-- The longest name of an entry, in bytes. -/
def nameLimit : Nat := 255

/-- The longest path, in bytes. -/
def pathLimit : Nat := 4095

/-! ## Looking up -/

/-- What lies at the end of a way of names. -/
def entry? (d : Disk) (names : List String) : Option FileEntry :=
  match d.entries.lookup names with
  | some entry => some entry
  | none =>
    if names.isEmpty || d.entries.any fun e => names.isPrefixOf e.1 then some .folder else none

/-- Whether a place is a folder. -/
def isFolder (d : Disk) : Place → Bool
  | .outside => true
  | .inside names =>
    match d.entry? names with
    | some .folder => true
    | _ => false

/-- The ways from a folder to all that lies below it. -/
def waysBelow (d : Disk) (names : List String) : List (List String) :=
  (d.entries.flatMap fun e =>
    if names.isPrefixOf e.1 then
      let way := e.1.drop names.length
      (List.range way.length).map fun k => way.take (k + 1)
    else []).eraseDups

/-! ## Following paths -/

/-- The entry of a folder that a name stands for. -/
def find (d : Disk) (place : Place) (name : String) : Except FileError Place :=
  if name.utf8ByteSize > nameLimit then .error .nameTooLong
  else match place with
    | .outside => .error .notFound
    | .inside names =>
      if (d.entry? (names ++ [name])).isSome then .ok (.inside (names ++ [name])) else .error .notFound

/-- One piece of a path.  Even one that stays where it is needs a folder. -/
def step (d : Disk) (place : Place) (piece : String) : Except FileError Place :=
  if !d.isFolder place then .error .notFolder
  else if Path.isIdle piece then .ok place
  else if piece == ".." then .ok place.up
  else d.find place piece

/-- Where pieces lead to. -/
def walk (d : Disk) (fromRoot : Bool) (pieces : List String) : Except FileError Place :=
  pieces.foldlM d.step (if fromRoot then .outside else .inside [])

/-- Where a path leads to. -/
def resolve (d : Disk) (p : Path) : Except FileError Place :=
  if p.size > pathLimit then .error .nameTooLong
  else if p.isEmpty then .error .notFound
  else d.walk p.fromRoot p.pieces

/-- Whether the text of a path leads to a folder. -/
def hasFolder (d : Disk) (path : String) : Bool :=
  ((d.resolve (Path.ofString path)).map d.isFolder).toOption.getD false

/-- The content of a file. -/
def read (d : Disk) (path : String) : Except FileError Bytes := do
  match ← d.resolve (Path.ofString path) with
  | .outside => .error .isFolder
  | .inside names =>
    match d.entry? names with
    | some (.file content) => .ok content
    | _ => .error .isFolder

/-! ## Changing -/

/-- The disk with an entry at a place.  What is outside changes unseen. -/
def put (d : Disk) (place : Place) (name : String) (entry : FileEntry) : Disk :=
  match place with
  | .outside => d
  | .inside names =>
    let way := names ++ [name]
    ⟨d.entries.filter (fun e => e.1 != way) ++ [(way, entry)]⟩

/-- The folder and the name that a path ends with.  There is none if it ends with dots or consists of
slashes. -/
def target (d : Disk) (p : Path) : Except FileError (Option (Place × String)) :=
  if p.size > pathLimit then .error .nameTooLong
  else if p.isEmpty then .error .notFound
  else match p.pieces.reverse.dropWhile (· == "") with
    | [] => .ok none
    | last :: before => do
      let place ← d.walk p.fromRoot before.reverse
      if !d.isFolder place then .error .notFolder
      else if Path.isStep last then .ok none
      else .ok (some (place, last))

/-- Writes a file, which may exist. -/
def write (d : Disk) (path : String) (content : Bytes) : Except FileError Disk := do
  let p := Path.ofString path
  match ← d.target p with
  | none => .error .isFolder
  | some (place, name) =>
    if p.pieces.getLast? == some "" then .error .isFolder
    else match d.find place name with
      | .error .notFound => .ok (d.put place name (.file content))
      | .error e => .error e
      | .ok found => if d.isFolder found then .error .isFolder else .ok (d.put place name (.file content))

/-- Makes a folder, which may not exist. -/
def makeFolder (d : Disk) (p : Path) : Except FileError Disk := do
  match ← d.target p with
  | none => .error .alreadyExists
  | some (place, name) =>
    match d.find place name with
    | .error .notFound => .ok (d.put place name .folder)
    | .error e => .error e
    | .ok _ => .error .alreadyExists

/-- Makes a folder unless there is one. -/
def ensureFolder (d : Disk) (p : Path) : Except FileError Disk :=
  match d.makeFolder p with
  | .ok made => .ok made
  | .error e =>
    if ((d.resolve p).map d.isFolder).toOption.getD false then .ok d else .error e

/-- Makes a folder and the folders on the way to it, as far as there are none. -/
def makeFolders (d : Disk) (p : Path) : Except FileError Disk :=
  if p.isEmpty then .ok d
  else match d.ensureFolder p with
    | .error .notFound =>
      match _h : p.parent? with
      | some parent => do (← d.makeFolders parent).ensureFolder p
      | none => .error (.other "failed to create whole tree")
    | outcome => outcome
termination_by p.pieces.length
decreasing_by exact Path.length_parent _h

/-- Writes a file and makes the folders on the way to it. -/
def save (d : Disk) (path : String) (content : Bytes) : Except FileError Disk := do
  let d ← match (Path.ofString path).parent? with
    | some folder => d.makeFolders folder
    | none => .ok d
  d.write path content

end Disk
end ExampleSchema
