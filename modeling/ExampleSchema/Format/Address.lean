import ExampleSchema.Text.Blank
import ExampleSchema.Type.Builtin

/-!
# Addresses and identifiers

Which texts are an email address, a URI or a UUID.  The tests are about shape only: nothing is looked
up, and no part has a limit of its length.
-/

namespace ExampleSchema
namespace Format

/-! ## Email addresses -/

/-- The signs besides letters and digits that the part before the `@` may have. -/
def mailboxSigns : List Char := ".!#$%&'*+/=?^_`\x7b|\x7d~-".toList

/-- The part of an address before the `@`. -/
def isMailbox (text : List Char) : Bool :=
  !text.isEmpty && text.all fun c => c.isAlphanum || mailboxSigns.contains c

/-- A part of a domain between its points: letters, digits and dashes, with no dash at an end. -/
def isLabel (text : List Char) : Bool :=
  text.all (fun c => c.isAlphanum || c == '-')
    && text.head?.any Char.isAlphanum && text.getLast?.any Char.isAlphanum

/-- A domain has at least two labels. -/
def isDomain (text : List Char) : Bool :=
  let labels := text.splitOn '.'
  2 ≤ labels.length && labels.all isLabel

/-- An email address: a mailbox, an `@` and a domain. -/
def isEmail (text : List Char) : Bool :=
  match text.splitOn '@' with
  | [mailbox, domain] => isMailbox mailbox && isDomain domain
  | _ => false

/-! ## URIs -/

/-- The name of a scheme: a letter, then letters, digits and `+`, `.` or `-`. -/
def isScheme : List Char → Bool
  | [] => false
  | first :: rest =>
    first.isAlpha && rest.all fun c => c.isAlphanum || c == '+' || c == '.' || c == '-'

/-- A URI: a scheme, a colon and something without blanks. -/
def isUri (text : List Char) : Bool :=
  match text.dropWhile (· != ':') with
  | _ :: rest =>
    isScheme (text.takeWhile (· != ':')) && !rest.isEmpty && rest.all fun c => !isBlank c
  | [] => false

/-! ## UUIDs -/

/-- A hexadecimal digit in either case. -/
def isHexDigit (c : Char) : Bool :=
  c.isDigit || ('a' ≤ c && c ≤ 'f') || ('A' ≤ c && c ≤ 'F')

/-- A UUID with dashes: groups of 8, 4, 4, 4 and 12 digits. -/
def isDashedUuid (text : List Char) : Bool :=
  let groups := text.splitOn '-'
  groups.map List.length == [8, 4, 4, 4, 12] && groups.all fun group => group.all isHexDigit

/-- A text in braces, without them. -/
def unbraced? : List Char → Option (List Char)
  | '{' :: rest => if rest.getLast? = some '}' then some rest.dropLast else none
  | _ => none

/-- The name that a UUID may start with in a URN. -/
def uuidNamespace : List Char := "urn:uuid:".toList

/-- A text after the name of a URN in any case. -/
def afterNamespace? (text : List Char) : Option (List Char) :=
  let (start, rest) := text.splitAt uuidNamespace.length
  if start.map Char.toLower = uuidNamespace then some rest else none

/-- A UUID: 32 digits, or the form with dashes, alone, in braces or after the name of a URN. -/
def isUuid (text : List Char) : Bool :=
  (text.length == 32 && text.all isHexDigit)
    || isDashedUuid text
    || (unbraced? text).any isDashedUuid
    || (afterNamespace? text).any isDashedUuid

end Format
end ExampleSchema
