import ExampleSchema.Text.Quoted

/-!
# JSON to be written

The outline of a schema is written as JSON.  `JsonTree` is such a text before it is laid out, and
`JsonTree.pretty` lays it out over several lines with two blanks for each level.
-/

namespace ExampleSchema

/-- A JSON text to be written. -/
inductive JsonTree where
  | text (text : String)
  | flag (value : Bool)
  | list (items : List JsonTree)
  | record (members : List (String × JsonTree))
  deriving Inhabited

namespace JsonTree

/-- A new line, indented to a level. -/
def newLine (level : Nat) : String := "\n" ++ String.ofList (List.replicate (2 * level) ' ')

/-- Lines between brackets, or the brackets alone if there are none. -/
def between (opening closing : String) (level : Nat) (lines : List String) : String :=
  if lines.isEmpty then opening ++ closing
  else
    let separator := "," ++ newLine (level + 1)
    opening ++ newLine (level + 1) ++ separator.intercalate lines ++ newLine level ++ closing

mutual
/-- The text with every item on a line of its own, at a level. -/
def prettyAt (level : Nat) : JsonTree → String
  | .text content => Quoted.encode content
  | .flag value => toString value
  | .list items => between "[" "]" level (prettyItems (level + 1) items)
  | .record members => between "\x7b" "\x7d" level (prettyMembers (level + 1) members)

/-- The texts of items. -/
def prettyItems (level : Nat) : List JsonTree → List String
  | [] => []
  | item :: rest => item.prettyAt level :: prettyItems level rest

/-- The texts of members, each with its name. -/
def prettyMembers (level : Nat) : List (String × JsonTree) → List String
  | [] => []
  | (name, item) :: rest =>
    (Quoted.encode name ++ ": " ++ item.prettyAt level) :: prettyMembers level rest
end

/-- The text with every item on a line of its own. -/
def pretty (tree : JsonTree) : String := tree.prettyAt 0

end JsonTree
end ExampleSchema
