import ExampleSchema.Scan.State
import Mathlib.Data.List.Basic

/-!
# The shape of a state

What is being read, the places to resume and the open constructs go together: after the end of whatever
is being read, there is always a place to resume that fits what is still open.

* `Nested`: some places to resume fit some open constructs.
* `Mode.Fits`: what is being read fits the places to resume and the open constructs.
* `Ends`: when what was opened last ends, the places to resume fit what is open then.
-/

namespace ExampleSchema
namespace Scan

/-! ## Places and constructs -/

/-- The construct whose parts are read at a place. -/
def Place.container? : Place → Option Construct
  | .objectStart | .objectKey | .objectColon | .objectValue | .objectNext => some .object
  | .arrayStart | .arrayItem | .arrayNext => some .array
  | .start | .finish | .afterRules _ => none

/-- Whether a value ends right before a place. -/
def Place.followsValue : Place → Bool
  | .finish | .objectNext | .arrayNext | .afterRules _ => true
  | _ => false

/-- Where the value or the name begins that ends right before a place. -/
def Place.before : Place → Place
  | .finish => .start
  | .objectColon => .objectKey
  | .objectNext => .objectValue
  | .arrayNext => .arrayItem
  | place => place

/-- Whether the name of the next member has been read at a place. -/
def Place.followsName : Place → Bool
  | .objectColon | .objectValue => true
  | _ => false

/-- What wraps the value or the key that ends right before a place. -/
def Place.wrapper : Place → List Construct
  | .objectColon => [.objectKey]
  | .objectNext => [.objectValue]
  | .arrayNext => [.arrayItem]
  | _ => []

/-- One of some open constructs is a note. -/
def IsInNote (opened : List Construct) : Prop := ∃ c ∈ opened, (NoteKind.ofConstruct? c).isSome

/-- **The places to resume fit the open constructs**, so that when the innermost place is left, the next
one fits what is open then. -/
inductive Nested : List Place → List Construct → Prop
  | start : Nested [.start] []
  | finish : Nested [.finish] []
  | inside {place next : Place} {container : Construct} {places : List Place}
      {opened : List Construct} (hplace : place.container? = some container)
      (hnext : next.followsValue = true) (hrest : Nested (next :: places) opened) :
      Nested (place :: next :: places) (container :: (next.wrapper ++ opened))
  | afterRules {kind : NoteKind} {places : List Place} {opened : List Construct}
      (hnote : ¬ IsInNote opened) (hrest : Nested places opened) :
      Nested (.afterRules kind :: places) (kind.construct :: opened)

namespace Nested

variable {place : Place} {places : List Place} {opened : List Construct}

/-- There is always a place to resume. -/
theorem exists_cons (h : Nested places opened) : ∃ place rest, places = place :: rest := by
  cases h <;> exact ⟨_, _, rfl⟩

/-- What wraps a value is closed with it, so a place fits nothing that a wrapper would be inside of. -/
theorem isWrapper_eq_false {c : Construct} (h : Nested places (c :: opened)) : c.isWrapper = false := by
  generalize hopened : c :: opened = all at h
  cases h with
  | start | finish => cases hopened
  | @inside place next container places rest hplace hnext hrest =>
    obtain ⟨rfl, -⟩ := List.cons.inj hopened
    cases place <;> cases hplace <;> rfl
  | @afterRules kind places rest hnote hrest =>
    obtain ⟨rfl, -⟩ := List.cons.inj hopened
    cases kind <;> rfl

/-- Going from one place to another within a container. -/
theorem move {place' : Place} {container : Construct} (h : Nested (place :: places) opened)
    (hplace : place.container? = some container) (hplace' : place'.container? = some container) :
    Nested (place' :: places) opened := by
  cases h with
  | inside hcontainer hnext hrest =>
    obtain rfl := Option.some.inj (hplace.symm.trans hcontainer)
    exact inside hplace' hnext hrest
  | start | finish | afterRules => cases hplace

/-- Nothing is open before the value of the document, and nothing is open after it. -/
theorem finish_of_start (h : Nested (.start :: places) opened) : Nested (.finish :: places) opened := by
  cases h with
  | start => exact finish
  | inside hplace => cases hplace

/-- Whatever is open at the start of the document has been closed again. -/
theorem opened_eq_nil (h : Nested (.finish :: places) opened) : opened = [] := by
  cases h with
  | finish => rfl
  | inside hplace => cases hplace

end Nested

/-! ## What is being read -/

/-- A value, opened as some construct, is being read before a place to resume. -/
def ReadsValue (c : Construct) (places : List Place) (opened : List Construct) : Prop :=
  ∃ next rest outer, places = next :: rest ∧ opened = c :: (next.wrapper ++ outer) ∧
    next.followsValue = true ∧ Nested places outer

/-- A key, opened with something inside, is being read before the colon. -/
def ReadsKey (inside : List Construct) (places : List Place) (opened : List Construct) : Prop :=
  ∃ rest outer, places = .objectColon :: rest ∧ opened = inside ++ .objectKey :: outer ∧
    Nested places outer

/-- A comment is being read, which may turn out to be a note. -/
def ReadsComment (places : List Place) (opened : List Construct) : Prop :=
  Nested places opened ∧ ¬ IsInNote opened

/-- A note is being read, opened with something inside. -/
def ReadsNote (kind : NoteKind) (inside : List Construct) (places : List Place)
    (opened : List Construct) : Prop :=
  ∃ outer, opened = inside ++ kind.construct :: outer ∧ ReadsComment places outer

/-- What is being read fits the places to resume and the open constructs. -/
def Mode.Fits (mode : Mode) (places : List Place) (opened : List Construct) : Prop :=
  match mode with
  | .between place => Nested (place :: places) opened
  | .done => False
  | .string | .escape => ReadsValue .literal places opened ∨ ReadsKey [] places opened
  | .unicode digits =>
    digits < 4 ∧ (ReadsValue .literal places opened ∨ ReadsKey [] places opened)
  | .number _ | .keyword _ _ _ => ReadsValue .literal places opened
  | .shortcut _ => ReadsValue .mixedValue places opened ∨ ReadsValue .typesShortcut places opened
  | .ruleName => ReadsKey [] places opened
  | .keyMark | .keyName => ReadsKey [.keyShortcut] places opened
  | .commentStart | .hashes _ | .lineComment => ReadsComment places opened
  | .blockComment count => count < 3 ∧ ReadsComment places opened
  | .inlineStart | .inlineDash => ReadsNote .inline [] places opened
  | .inlineText => ReadsNote .inline [.inlineNoteText] places opened
  | .blockStart | .blockStartStar | .blockDash | .blockAfterRulesStar =>
    ReadsNote .block [] places opened
  | .blockText | .blockTextStar => ReadsNote .block [.blockNoteText] places opened

/-! ## Ending what is being read -/

/-- Where the value or the key that was opened last ends, a place is resumed that fits. -/
def Ends (places : List Place) (opened : List Construct) : Prop :=
  ∃ c outer, Nested places outer ∧
    (opened = c :: outer ∨ ∃ w : Construct, w.isWrapper = true ∧ opened = c :: w :: outer)

theorem ends_of_wrapper {next : Place} {places : List Place} {opened : List Construct} (c : Construct)
    (h : Nested places opened) : Ends places (c :: (next.wrapper ++ opened)) := by
  refine ⟨c, opened, h, ?_⟩
  cases next with
  | objectColon | objectNext | arrayNext => exact Or.inr ⟨_, rfl, rfl⟩
  | _ => exact Or.inl rfl

theorem ReadsValue.ends {c : Construct} {places : List Place} {opened : List Construct}
    (h : ReadsValue c places opened) : Ends places opened := by
  obtain ⟨next, rest, outer, rfl, rfl, -, hrest⟩ := h
  exact ends_of_wrapper c hrest

theorem ReadsKey.ends {places : List Place} {opened : List Construct}
    (h : ReadsKey [] places opened) : Ends places opened := by
  obtain ⟨rest, outer, rfl, rfl, hrest⟩ := h
  exact ⟨_, outer, hrest, Or.inl rfl⟩

theorem ReadsKey.ends_shortcut {places : List Place} {opened : List Construct}
    (h : ReadsKey [.keyShortcut] places opened) : Ends places opened := by
  obtain ⟨rest, outer, rfl, rfl, hrest⟩ := h
  exact ⟨_, outer, hrest, Or.inr ⟨_, rfl, rfl⟩⟩

/-- After its rules, a note is still being read. -/
theorem Nested.readsNote {kind : NoteKind} {places : List Place} {opened : List Construct}
    (h : Nested (.afterRules kind :: places) opened) : ReadsNote kind [] places opened := by
  cases h with
  | afterRules hnote hrest => exact ⟨_, rfl, hrest, hnote⟩
  | inside hplace => cases hplace

theorem Nested.ends {place : Place} {places : List Place} {opened : List Construct}
    {container : Construct} (h : Nested (place :: places) opened)
    (hplace : place.container? = some container) : Ends places opened := by
  cases h with
  | inside _ _ hrest => exact ends_of_wrapper _ hrest
  | start | finish | afterRules => cases hplace

end Scan
end ExampleSchema
