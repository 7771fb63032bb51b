import ExampleSchema.Text.Blank
import ExampleSchema.Type.Builtin

/-!
# Dates and times

Which texts are a date or a date with a time.  A date has to exist in the Gregorian calendar, which is
taken to reach back before its introduction and to have a year zero.
-/

namespace ExampleSchema
namespace Format

/-! ## The calendar -/

/-- Whether a year has a 29th of February. -/
def isLeapYear (year : Int) : Bool := year % 4 == 0 && (year % 100 != 0 || year % 400 == 0)

/-- The number of days of a month, the first month being 1. -/
def daysInMonth (year : Int) (month : Nat) : Nat :=
  match month with
  | 2 => if isLeapYear year then 29 else 28
  | 4 | 6 | 9 | 11 => 30
  | _ => 31

/-- The years of the calendar. -/
def isYear (year : Int) : Bool := -262143 ≤ year && year ≤ 262142

/-- Whether a date exists. -/
def isDateOf (year : Int) (month day : Nat) : Bool :=
  isYear year && 1 ≤ month && month ≤ 12 && 1 ≤ day && day ≤ daysInMonth year month

/-! ## Numbers -/

/-- The value of some digits. -/
def numberOf (digits : List Char) : Nat :=
  digits.foldl (fun n c => n * 10 + (c.toNat - '0'.toNat)) 0

/-- The digits at the start of a text, at most a number of them, as a value, with the text after
them.  There has to be one. -/
def leadingNumber? (most : Nat) (text : List Char) : Option (Nat × List Char) :=
  let digits := (text.take most).takeWhile Char.isDigit
  if digits.isEmpty then none else some (numberOf digits, text.drop digits.length)

/-- Exactly a number of digits at the start of a text. -/
def fixedNumber? (width : Nat) (text : List Char) : Option (Nat × List Char) :=
  let digits := text.take width
  if digits.length = width ∧ digits.all Char.isDigit then some (numberOf digits, text.drop width)
  else none

/-- A text after the character that it has to start with. -/
def after? (c : Char) : List Char → Option (List Char)
  | first :: rest => if first = c then some rest else none
  | [] => none

/-! ## Dates -/

/-- The year at the start of a date: up to four digits, or any number of them after a sign. -/
def leadingYear? (text : List Char) : Option (Int × List Char) :=
  match text with
  | '-' :: rest => (leadingNumber? rest.length rest).map fun (n, rest) => (-(n : Int), rest)
  | '+' :: rest => (leadingNumber? rest.length rest).map fun (n, rest) => ((n : Int), rest)
  | _ => (leadingNumber? 4 text).map fun (n, rest) => ((n : Int), rest)

/-- The date that a text writes as year, month and day with dashes between them.  Blanks may stand in
front of each number. -/
def date? (text : List Char) : Option (Int × Nat × Nat) := do
  let (year, rest) ← leadingYear? (text.dropWhile isBlank)
  let (month, rest) ← leadingNumber? 2 ((← after? '-' rest).dropWhile isBlank)
  let (day, rest) ← leadingNumber? 2 ((← after? '-' rest).dropWhile isBlank)
  if rest.isEmpty then some (year, month, day) else none

/-- A date that exists. -/
def isDate (text : List Char) : Bool :=
  (date? text).any fun (year, month, day) => isDateOf year month day

/-! ## Times -/

/-- The text after a fraction of a second, which has at least one digit. -/
def afterFraction? (text : List Char) : Option (List Char) :=
  match text with
  | '.' :: rest => (leadingNumber? rest.length rest).map Prod.snd
  | _ => some text

/-- The minus sign that is no dash. -/
def minusSign : Char := '\u2212'

/-- An offset from universal time: `Z`, or a sign, hours and minutes. -/
def isOffset (text : List Char) : Bool :=
  match text with
  | ['Z'] | ['z'] => true
  | sign :: rest =>
    (sign == '+' || sign == '-' || sign == minusSign) && ((do
      let (hours, rest) ← fixedNumber? 2 rest
      let (minutes, rest) ← fixedNumber? 2 (← after? ':' rest)
      some (hours ≤ 23 && minutes ≤ 59 && rest.isEmpty)).getD false)
  | [] => false

/-- A date with a time and an offset.  Every number has its full width, and a minute may have a leap
second. -/
def isDateTime (text : List Char) : Bool :=
  (do
    let (year, rest) ← fixedNumber? 4 text
    let (month, rest) ← fixedNumber? 2 (← after? '-' rest)
    let (day, rest) ← fixedNumber? 2 (← after? '-' rest)
    let separator ← rest.head?
    let (hour, rest) ← fixedNumber? 2 (rest.drop 1)
    let (minute, rest) ← fixedNumber? 2 (← after? ':' rest)
    let (second, rest) ← fixedNumber? 2 (← after? ':' rest)
    let rest ← afterFraction? rest
    some (isDateOf year month day && (separator == 'T' || separator == 't' || separator == ' ')
      && hour ≤ 23 && minute ≤ 59 && second ≤ 60 && isOffset rest)).getD false

end Format
end ExampleSchema
