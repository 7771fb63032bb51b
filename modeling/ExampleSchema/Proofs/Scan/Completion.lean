import ExampleSchema.Proofs.Scan.Continue
import ExampleSchema.Proofs.Scan.Step
import Mathlib.Algebra.GroupWithZero.Nat

/-!
# Documents that can be completed

A scan is refused at the first byte that makes the document hopeless: the bytes before it are the start of
some document, and no document starts with the bytes up to it.

From every sound state the document can be brought to its end.  A completion is not written down but found
byte by byte: `Place.exit` is what leads on from a place, and `State.cost` is how many bytes are needed at
most.

* `State.feed_advances`: some byte lowers the cost, unless the document may end.
* `exists_completion`: hence some text leads to the end of the document.
* `exists_read_of_read`: so whatever a scan reports is where the events of some document begin.
* `run_isTimely`: what is refused is refused neither too early nor too late, from any state on.
* `read_isTimely`: neither is a document.
-/

namespace ExampleSchema
namespace Scan

/-! ## The way to the end -/

/-- A byte with which a place is left for one that is nearer to the end of the document. -/
def Place.exit : Place → UInt8
  | .start | .objectValue | .arrayItem => Char.toUInt8 '0'
  | .objectKey => Char.toUInt8 '"'
  | .objectColon => Char.toUInt8 ':'
  | .objectStart | .objectNext => Char.toUInt8 '\x7d'
  | .arrayStart | .arrayNext => Char.toUInt8 ']'
  | .finish | .afterRules .inline => Char.toUInt8 '\n'
  | .afterRules .block => Char.toUInt8 '*'

/-- How many bytes it takes at most to get past a place. -/
def Place.cost : Place → Nat
  | .finish => 0
  | .objectStart | .objectNext | .arrayStart | .arrayNext | .afterRules .inline => 1
  | .start | .afterRules .block => 2
  | .objectValue | .arrayItem => 3
  | .objectColon => 4
  | .objectKey => 6

/-- How many bytes it takes at most to end what is being read. -/
def Mode.cost : Mode → Nat
  | .between place => place.cost
  | .done => 0
  | .escape | .shortcut .mark | .keyMark | .commentStart | .blockStart | .blockDash | .blockText => 2
  | .unicode digits => 5 - digits
  | .number part => if part.isComplete then 1 else 2
  | .keyword _ _ rest => rest.length + 1
  | .shortcut .afterBar => 3
  | .hashes _ => 4
  | .blockComment count => 3 - count
  | .string | .shortcut .name | .shortcut .afterName | .ruleName | .keyName | .lineComment
  | .inlineStart | .inlineDash | .inlineText | .blockStartStar | .blockTextStar
  | .blockAfterRulesStar => 1

/-- How many bytes it takes at most to get past some places to resume. -/
def Place.totalCost (places : List Place) : Nat := (places.map Place.cost).sum

@[simp] theorem Place.totalCost_cons (place : Place) (places : List Place) :
    totalCost (place :: places) = place.cost + totalCost places := List.sum_cons

/-- How many bytes it takes at most to get to the end of the document. -/
def State.cost (s : State) : Nat := s.mode.cost + Place.totalCost s.resume

variable {past : List Event} {o : Options} {s : State} {b : UInt8} {i : Nat}

namespace State

/-- Some byte leads to a state that is nearer to the end of the document. -/
def Advances (o : Options) (s : State) (i : Nat) : Prop :=
  ∃ b s', s.feed o b i = .ok s' ∧ s'.cost < s.cost

/-- Some byte leads to a mode that ends sooner. -/
theorem advances_of_mode {s' : State} (b : UInt8) (hfeed : s.feed o b i = .ok s')
    (hresume : s'.resume = s.resume) (hcost : s'.mode.cost < s.mode.cost) : Advances o s i := by
  refine ⟨b, s', hfeed, ?_⟩
  rw [cost, cost, hresume]
  exact Nat.add_lt_add_right hcost _

theorem advances_of_switch (mode : Mode) (b : UInt8) (hfeed : s.feed o b i = .ok (s.switch mode))
    (hcost : mode.cost < s.mode.cost) : Advances o s i :=
  advances_of_mode b hfeed rfl hcost

/-- Some byte ends what is being read. -/
theorem advances_of_le (b : UInt8) (hfeed : ∃ s', s.feed o b i = .ok s' ∧
      s'.cost ≤ Place.totalCost s.resume) (hcost : 0 < s.mode.cost) : Advances o s i := by
  obtain ⟨s', hfeed, hle⟩ := hfeed
  exact ⟨b, s', hfeed, Nat.lt_of_le_of_lt hle (Nat.lt_add_of_pos_left hcost)⟩

/-! ## Ending what is being read -/

theorem exists_resumeNext_eq_ok {opened : List Construct} (hnested : Nested s.resume opened) :
    ∃ s', s.resumeNext = .ok s' ∧ s'.cost = Place.totalCost s.resume := by
  obtain ⟨place, rest, hresume⟩ := hnested.exists_cons
  rw [resumeNext, hresume, Place.totalCost_cons]
  exact ⟨_, rfl, rfl⟩

theorem exists_finishValue_eq_ok (hends : Ends s.resume s.constructs) (hrec : Recorded past s i) :
    ∃ s', s.finishValue i = .ok s' ∧ s'.cost = Place.totalCost s.resume := by
  obtain ⟨s₁, hend, hresume, hnested, -⟩ := exists_endValue_eq_ok hends hrec
  rw [finishValue, hend, ← hresume]
  exact exists_resumeNext_eq_ok (hresume ▸ hnested)

theorem exists_finishNote_eq_ok (hclose : ∃ s', s.closeNote i = .ok s' ∧ s'.resume = s.resume ∧
      ReadsComment s.resume s'.constructs ∧ Recorded past s' i) :
    ∃ s', s.finishNote i = .ok s' ∧ s'.cost = Place.totalCost s.resume := by
  obtain ⟨s₁, hclose, hresume, hcomment, -⟩ := hclose
  rw [finishNote, hclose, ← hresume]
  exact exists_resumeNext_eq_ok (hresume ▸ hcomment.1)

/-- A line end outside of notes only resumes a place. -/
theorem exists_land_newLine_eq_ok {places : List Place} (hcomment : ReadsComment places s.constructs) :
    ∃ s', land o (Char.toUInt8 '\n') i places s = .ok s' ∧ s'.cost = Place.totalCost places := by
  obtain ⟨hnested, hnote⟩ := hcomment
  obtain ⟨place, rest, rfl⟩ := hnested.exists_cons
  have hplace : place ≠ .afterRules .inline := by
    rintro rfl
    obtain ⟨outer, hopened, -⟩ := hnested.readsNote
    exact hnote ⟨.inlineNote, by simp [hopened, NoteKind.construct], rfl⟩
  have hnone : s.note? = none := by
    rw [← inNote_iff, inNote] at hnote
    simpa using hnote
  refine ⟨{ s with mode := .between place, resume := rest }.emit .newLine i (i + 1), ?_, ?_⟩
  · have hspace : Bytes.isSpace (Char.toUInt8 '\n') = true := rfl
    have hline : Bytes.isNewLine (Char.toUInt8 '\n') = true := rfl
    rw [land, if_neg fun h => hplace h.1, visit, if_pos hspace, skipBlank, if_pos hline]
    have hnone' : note? { s with mode := .between place, resume := rest } = none := hnone
    rw [hnone']
  · exact (Place.totalCost_cons place rest).symm

/-- The end of a line ends an inline note. -/
theorem exists_closeNote_land_eq_ok (hclose : ∃ s', s.closeNote i = .ok s' ∧ s'.resume = s.resume ∧
      ReadsComment s.resume s'.constructs ∧ Recorded past s' i) :
    ∃ s', (do land o (Char.toUInt8 '\n') i s.resume (← s.closeNote i)) = .ok s' ∧
      s'.cost = Place.totalCost s.resume := by
  obtain ⟨s₁, hclose, -, hcomment, -⟩ := hclose
  rw [hclose]
  exact exists_land_newLine_eq_ok hcomment

/-! ## Leaving places -/

/-- At a place that is not left by the end of a line, its exit is the first byte of a token. -/
theorem land_exit_eq_token {place : Place} {rest : List Place}
    (hspace : Bytes.isSpace place.exit = false) :
    land o place.exit i (place :: rest) s =
      token o { s with mode := .between place, resume := rest } place place.exit i := by
  have hinline : ¬ (place = .afterRules .inline ∧ Bytes.isNewLine place.exit = true) := by
    rintro ⟨rfl, -⟩
    cases hspace
  rw [land, if_neg hinline, visit_eq_token hspace]
  cases place with
  | afterRules kind => cases kind <;> rfl
  | _ => rfl

/-- The exit of a place leads on from there. -/
theorem exists_land_exit_lt {place : Place} {rest : List Place} (hplace : place ≠ .finish)
    (hnested : Nested (place :: rest) s.constructs) (hrec : Recorded past s i) :
    ∃ s', land o place.exit i (place :: rest) s = .ok s' ∧
      s'.cost < Place.totalCost (place :: rest) := by
  have hend {c : Construct} (hcontainer : place.container? = some c) :
      ∃ s', finishValue { s with mode := .between place, resume := rest } (i + 1) = .ok s' ∧
        s'.cost < 1 + Place.totalCost rest := by
    have hrec' := hrec.mono (Nat.le_succ i)
    obtain ⟨s', hfinish, hcost⟩ :=
      @exists_finishValue_eq_ok _ { s with mode := .between place, resume := rest } _
        (hnested.ends hcontainer) ⟨hrec'.history, hrec'.past⟩
    exact ⟨s', hfinish, hcost ▸ Nat.lt_add_of_pos_left Nat.one_pos⟩
  rw [Place.totalCost_cons]
  cases place with
  | finish => exact (hplace rfl).elim
  | objectStart | objectNext | arrayStart | arrayNext =>
    rw [land_exit_eq_token rfl]
    exact hend rfl
  | start | objectKey | objectColon | objectValue | arrayItem =>
    rw [land_exit_eq_token rfl]
    refine ⟨_, rfl, ?_⟩
    simp +arith [cost, interrupt, switch, begin, emit, Mode.cost, Place.cost,
      NumberPart.isComplete]
  | afterRules kind =>
    cases kind with
    | inline =>
      obtain ⟨s₁, hclose, -, hcomment, hrec₁⟩ := exists_closeNote_eq_ok hnested.readsNote hrec
      obtain ⟨s₂, hland, hcost⟩ := @exists_land_newLine_eq_ok o _ i _ hcomment
      refine ⟨s₂, ?_, ?_⟩
      · rw [land, if_pos ⟨rfl, rfl⟩, hclose]
        exact hland
      · rw [hcost, Place.cost]
        omega
    | block =>
      rw [land_exit_eq_token rfl]
      exact ⟨_, rfl, Nat.add_lt_add_right Nat.one_lt_two (Place.totalCost rest)⟩

/-- Past the value of the document, the exit stays there. -/
theorem exists_land_exit_le {place : Place} {rest : List Place}
    (hnested : Nested (place :: rest) s.constructs) (hrec : Recorded past s i) :
    ∃ s', land o place.exit i (place :: rest) s = .ok s' ∧
      s'.cost ≤ Place.totalCost (place :: rest) := by
  by_cases hplace : place = .finish
  · subst hplace
    have hnote : ¬ IsInNote s.constructs := by
      rw [hnested.opened_eq_nil]
      rintro ⟨c, hc, -⟩
      cases hc
    obtain ⟨s', hland, hcost⟩ := exists_land_newLine_eq_ok ⟨hnested, hnote⟩
    exact ⟨s', hland, Nat.le_of_eq hcost⟩
  · obtain ⟨s', hland, hlt⟩ := exists_land_exit_lt hplace hnested hrec
    exact ⟨s', hland, Nat.le_of_lt hlt⟩

/-- A value or key that ends before a byte is left with the exit of the next place. -/
theorem exists_endValue_land_eq_ok {place : Place} {rest : List Place} {stop : Nat}
    (hresume : s.resume = place :: rest) (hends : Ends s.resume s.constructs)
    (hrec : Recorded past s stop) (hle : stop ≤ i) :
    ∃ s', (do land o place.exit i s.resume (← s.endValue stop)) = .ok s' ∧
      s'.cost ≤ Place.totalCost s.resume := by
  obtain ⟨s₁, hend, -, hnested, hrec₁⟩ := exists_endValue_eq_ok hends hrec
  rw [hend]
  rw [hresume] at hnested ⊢
  exact exists_land_exit_le hnested (hrec₁.mono hle)

/-! ## Every mode -/

theorem feedNumber_advances {part : NumberPart} (hmode : s.mode = .number part)
    (hfits : ReadsValue .literal s.resume s.constructs) (hrec : Recorded past s i) :
    Advances o s i := by
  have hfeed (b : UInt8) : s.feed o b i = s.feedNumber o part b i := by rw [feed, hmode]
  by_cases hcomplete : part.isComplete = true
  · have hends := hfits.ends
    obtain ⟨place, rest, outer, hresume, -, hplace, -⟩ := hfits
    -- No place after a value is left with a byte that could go on a number.
    have hnext : part.next? place.exit = none ∧ part.refusal? place.exit = none := by
      cases place with
      | finish | objectNext | arrayNext => cases part <;> first | exact ⟨rfl, rfl⟩ | cases hcomplete
      | afterRules kind =>
        cases kind <;> cases part <;> first | exact ⟨rfl, rfl⟩ | cases hcomplete
      | _ => cases hplace
    refine advances_of_le place.exit ?_ ?_
    · rw [hfeed, feedNumber, hnext.1, hnext.2]
      exact exists_endValue_land_eq_ok hresume hends hrec (Nat.le_refl i)
    · rw [hmode, Mode.cost, if_pos hcomplete]
      exact Nat.one_pos
  · have hdigit : ∃ next, part.next? (Char.toUInt8 '0') = some next ∧ next.isComplete = true := by
      cases part <;> first | exact ⟨_, rfl, rfl⟩ | exact (hcomplete rfl).elim
    obtain ⟨next, hnext, hnextComplete⟩ := hdigit
    refine advances_of_switch (.number next) (Char.toUInt8 '0') (by rw [hfeed, feedNumber, hnext]) ?_
    rw [hmode, Mode.cost, Mode.cost, if_pos hnextComplete, if_neg hcomplete]
    exact Nat.one_lt_two

theorem feedKeyword_advances {word : Keyword} {next : UInt8} {rest : Bytes}
    (hmode : s.mode = .keyword word next rest) (hfits : ReadsValue .literal s.resume s.constructs)
    (hrec : Recorded past s i) : Advances o s i := by
  have hfeed : s.feed o next i = s.feedKeyword word next rest next i := by rw [feed, hmode]
  cases rest with
  | nil =>
    obtain ⟨s', hfinish, hcost⟩ := exists_finishValue_eq_ok hfits.ends (hrec.mono (Nat.le_succ i))
    have hlast : s.feed o next i = s.finishValue (i + 1) := hfeed.trans (if_pos rfl)
    refine advances_of_le next ⟨s', hlast.trans hfinish, Nat.le_of_eq hcost⟩ ?_
    rw [hmode]
    exact Nat.one_pos
  | cons letter rest =>
    refine advances_of_mode next (hfeed.trans (if_pos rfl)) rfl ?_
    rw [hmode]
    exact Nat.lt_succ_self _

theorem feedUnicode_advances {digits : Nat} (hmode : s.mode = .unicode digits)
    (hdigits : digits < 4) : Advances o s i := by
  have hfeed : s.feed o (Char.toUInt8 '0') i =
      .ok (s.switch (if digits = 3 then .string else .unicode (digits + 1))) := by
    rw [feed, hmode]
    exact if_pos rfl
  refine advances_of_mode _ hfeed rfl ?_
  rw [hmode, switch]
  split <;> simp only [Mode.cost] <;> omega

/-- A place after a value is left with a byte that could not go on a shortcut. -/
theorem exit_of_followsValue {place : Place} (h : place.followsValue = true) :
    Bytes.isNameChar place.exit = false ∧ isInnerBlank place.exit = false ∧
      (Bytes.char place.exit == '|') = false := by
  cases place with
  | finish | objectNext | arrayNext => exact ⟨rfl, rfl, rfl⟩
  | afterRules kind => cases kind <;> exact ⟨rfl, rfl, rfl⟩
  | _ => cases h

/-- A shortcut that may end is left with the exit of the next place. -/
theorem exists_afterName_eq_ok (hfits : (Mode.shortcut .name).Fits s.resume s.constructs)
    (hrec : Recorded past s s.nameEnd) (hle : s.nameEnd ≤ i) :
    ∃ b, Bytes.isNameChar b = false ∧ ∃ s', feedShortcut.afterName o b i s = .ok s' ∧
      s'.cost ≤ Place.totalCost s.resume := by
  have hends : Ends s.resume s.constructs := hfits.elim ReadsValue.ends ReadsValue.ends
  have hnext : ∃ place rest, s.resume = place :: rest ∧ place.followsValue = true := by
    rcases hfits with ⟨next, rest, _, hresume, -, hnext, -⟩ | ⟨next, rest, _, hresume, -, hnext, -⟩ <;>
      exact ⟨next, rest, hresume, hnext⟩
  obtain ⟨place, rest, hresume, hplace⟩ := hnext
  obtain ⟨hname, hblank, hbar⟩ := exit_of_followsValue hplace
  refine ⟨place.exit, hname, ?_⟩
  rw [feedShortcut.afterName, hblank, hbar]
  exact exists_endValue_land_eq_ok hresume hends hrec hle

theorem feedShortcut_advances {part : ShortcutPart} (hmode : s.mode = .shortcut part)
    (hfits : (Mode.shortcut part).Fits s.resume s.constructs) (hrec : Recorded past s (s.reach i))
    (hle : s.reach i ≤ i) : Advances o s i := by
  have hfeed (b : UInt8) : s.feed o b i = s.feedShortcut o part b i := by rw [feed, hmode]
  have hpos : 0 < s.mode.cost := by
    rw [hmode]
    cases part <;> exact Nat.succ_pos _
  rw [reach, hmode] at hrec hle
  cases part with
  | mark =>
    exact advances_of_switch _ (Char.toUInt8 '0') (hfeed _) (by rw [hmode]; exact Nat.one_lt_two)
  | name =>
    obtain ⟨b, hname, s', hafter, hcost⟩ :=
      @exists_afterName_eq_ok _ o { s with nameEnd := i } i hfits ⟨hrec.history, hrec.past⟩
        (Nat.le_refl i)
    refine advances_of_le b ⟨s', ?_, hcost⟩ hpos
    rw [hfeed, feedShortcut, if_neg (by simp [hname])]
    exact hafter
  | afterName =>
    obtain ⟨b, -, s', hafter, hcost⟩ := exists_afterName_eq_ok hfits hrec hle
    exact advances_of_le b ⟨s', (hfeed b).trans hafter, hcost⟩ hpos
  | afterBar =>
    exact advances_of_switch _ (Char.toUInt8 '@') (hfeed _) (by rw [hmode]; exact Nat.lt_succ_self 2)

/-- A name before a colon is left with the colon. -/
theorem feedName_advances {inside : List Construct} (hmode : s.mode = .ruleName ∨ s.mode = .keyName)
    (hkey : ReadsKey inside s.resume s.constructs) (hends : Ends s.resume s.constructs)
    (hrec : Recorded past s i) : Advances o s i := by
  have hfeed (b : UInt8) : s.feed o b i = s.feedName o b i := by
    rcases hmode with hmode | hmode <;> rw [feed, hmode]
  obtain ⟨rest, outer, hresume, -, -⟩ := hkey
  refine advances_of_le Place.objectColon.exit ?_ ?_
  · have hname : Bytes.isNameChar Place.objectColon.exit = false := rfl
    rw [hfeed, feedName, hname]
    exact exists_endValue_land_eq_ok hresume hends hrec (Nat.le_refl i)
  · rcases hmode with hmode | hmode <;> rw [hmode] <;> exact Nat.one_pos

theorem feedHashes_advances {count : Nat} (hmode : s.mode = .hashes count)
    (hcomment : ReadsComment s.resume s.constructs) : Advances o s i := by
  have hfeed : s.feed o (Char.toUInt8 '\n') i =
      if count = 3 then s.feedBlockComment 0 (Char.toUInt8 '\n') i
      else land o (Char.toUInt8 '\n') i s.resume s := by
    rw [feed, hmode]
    rfl
  by_cases hcount : count = 3
  · rw [if_pos hcount] at hfeed
    refine advances_of_mode _ hfeed rfl ?_
    rw [hmode]
    exact Nat.lt_succ_self 3
  · rw [if_neg hcount] at hfeed
    obtain ⟨s', hland, hcost⟩ := exists_land_newLine_eq_ok hcomment
    refine advances_of_le _ ⟨s', hfeed.trans hland, Nat.le_of_eq hcost⟩ ?_
    rw [hmode]
    exact Nat.succ_pos 3

theorem feedBlockComment_advances {count : Nat} (hmode : s.mode = .blockComment count)
    (hfits : (Mode.blockComment count).Fits s.resume s.constructs) : Advances o s i := by
  obtain ⟨hcount, hcomment⟩ := hfits
  have hfeed : s.feed o (Char.toUInt8 '#') i =
      if count = 2 then s.resumeNext else .ok (s.switch (.blockComment (count + 1))) := by
    rw [feed, hmode]
    rfl
  by_cases htwo : count = 2
  · rw [if_pos htwo] at hfeed
    obtain ⟨s', hresume, hcost⟩ := exists_resumeNext_eq_ok hcomment.1
    refine advances_of_le _ ⟨s', hfeed.trans hresume, Nat.le_of_eq hcost⟩ ?_
    rw [hmode]
    exact Nat.sub_pos_of_lt hcount
  · rw [if_neg htwo] at hfeed
    refine advances_of_mode _ hfeed rfl ?_
    rw [hmode]
    exact Nat.sub_succ_lt_self _ _ hcount

/-- An inline note is left with the end of the line. -/
theorem feedInline_advances
    (hmode : s.mode = .inlineStart ∨ s.mode = .inlineDash ∨ s.mode = .inlineText)
    (hclose : ∃ s', s.closeNote i = .ok s' ∧ s'.resume = s.resume ∧
      ReadsComment s.resume s'.constructs ∧ Recorded past s' i) : Advances o s i := by
  have hfeed : s.feed o (Char.toUInt8 '\n') i = (do
      land o (Char.toUInt8 '\n') i s.resume (← s.closeNote i)) := by
    rcases hmode with hmode | hmode | hmode <;> rw [feed, hmode] <;> exact if_pos rfl
  obtain ⟨s', hland, hcost⟩ := exists_closeNote_land_eq_ok hclose
  refine advances_of_le _ ⟨s', hfeed.trans hland, Nat.le_of_eq hcost⟩ ?_
  rcases hmode with hmode | hmode | hmode <;> rw [hmode] <;> exact Nat.one_pos

/-- After a star, a block note is left with a slash. -/
theorem feedBlockStar_advances
    (hmode : s.mode = .blockStartStar ∨ s.mode = .blockTextStar ∨ s.mode = .blockAfterRulesStar)
    (hclose : ∃ s', s.closeNote (i + 1) = .ok s' ∧ s'.resume = s.resume ∧
      ReadsComment s.resume s'.constructs ∧ Recorded past s' (i + 1)) : Advances o s i := by
  have hfeed : s.feed o (Char.toUInt8 '/') i = s.finishNote (i + 1) := by
    rcases hmode with hmode | hmode | hmode <;> rw [feed, hmode] <;> rfl
  obtain ⟨s', hfinish, hcost⟩ := exists_finishNote_eq_ok hclose
  refine advances_of_le _ ⟨s', hfeed.trans hfinish, Nat.le_of_eq hcost⟩ ?_
  rcases hmode with hmode | hmode | hmode <;> rw [hmode] <;> exact Nat.one_pos

/-- Before its text, and in it, a block note is left with a star and a slash. -/
theorem feedBlockText_advances
    (hmode : s.mode = .blockStart ∨ s.mode = .blockDash ∨ s.mode = .blockText) : Advances o s i := by
  have hstar : ∃ s', s.feed o (Char.toUInt8 '*') i = .ok s' ∧ s'.resume = s.resume ∧
      s'.mode.cost = 1 := by
    rcases hmode with hmode | hmode | hmode <;> rw [feed, hmode] <;> try unfold feedBlockStart
    · rw [hmode]
      exact ⟨_, rfl, rfl, rfl⟩
    · rw [hmode]
      exact ⟨_, rfl, rfl, rfl⟩
    · exact ⟨_, rfl, rfl, rfl⟩
  obtain ⟨s', hfeed, hresume, hcost⟩ := hstar
  refine advances_of_mode _ hfeed hresume ?_
  rcases hmode with hmode | hmode | hmode <;> rw [hcost, hmode] <;> exact Nat.one_lt_two

/-- **Some byte leads from a sound state towards the end of the document**, unless it may end there. -/
theorem feed_advances (o : Options) (h : Sound past i s) (hdone : s.mode ≠ .done)
    (hfinish : s.mode ≠ .between .finish) : Advances o s i := by
  cases h with
  | ended hmode => exact (hdone hmode).elim
  | running hfits hrec hle =>
    have hstep := hrec.mono (Nat.le_succ_of_le hle)
    cases hmode : s.mode <;> rw [hmode] at hfits <;> rw [reach, hmode] at hrec hle
    case between place =>
      have hplace : place ≠ .finish := fun hplace => hfinish (hplace ▸ hmode)
      obtain ⟨s', hland, hlt⟩ := @exists_land_exit_lt _ o _ i _ _ hplace hfits hrec
      refine ⟨place.exit, s', ?_, ?_⟩
      · rw [feed, hmode]
        exact hland
      · rw [Place.totalCost_cons] at hlt
        exact Nat.lt_of_lt_of_eq hlt (by rw [cost, hmode, Mode.cost])
    case done => exact hfits.elim
    case string =>
      have hends : Ends s.resume s.constructs := hfits.elim ReadsValue.ends ReadsKey.ends
      obtain ⟨s', hend, hcost⟩ := exists_finishValue_eq_ok hends hstep
      refine advances_of_le (Char.toUInt8 '"') ⟨s', ?_, Nat.le_of_eq hcost⟩ ?_
      · rw [feed, hmode]
        exact hend
      · rw [hmode]
        exact Nat.one_pos
    case escape =>
      exact advances_of_switch .string (Char.toUInt8 '"') (by rw [feed, hmode]; rfl)
        (by rw [hmode]; exact Nat.one_lt_two)
    case unicode digits => exact feedUnicode_advances hmode hfits.1
    case number part => exact feedNumber_advances hmode hfits hrec
    case keyword word next rest => exact feedKeyword_advances hmode hfits hrec
    case shortcut part =>
      refine @feedShortcut_advances past _ _ _ _ hmode hfits ?_ ?_ <;> rw [reach, hmode]
      · exact hrec
      · exact hle
    case ruleName => exact feedName_advances (Or.inl hmode) hfits hfits.ends hrec
    case keyMark =>
      exact advances_of_switch .keyName (Char.toUInt8 '0') (by rw [feed, hmode]; rfl)
        (by rw [hmode]; exact Nat.one_lt_two)
    case keyName => exact feedName_advances (Or.inr hmode) hfits hfits.ends_shortcut hrec
    case commentStart =>
      have hfeed : s.feed o (Char.toUInt8 '/') i =
          .ok ((s.begin .inlineNote (i - 1)).switch .inlineStart) := by
        rw [feed, hmode]
        rfl
      exact advances_of_mode _ hfeed rfl (by rw [hmode]; exact Nat.one_lt_two)
    case hashes count => exact feedHashes_advances hmode hfits
    case lineComment =>
      obtain ⟨s', hland, hcost⟩ := @exists_land_newLine_eq_ok o s i _ hfits
      refine advances_of_le (Char.toUInt8 '\n') ⟨s', ?_, Nat.le_of_eq hcost⟩ ?_
      · rw [feed, hmode]
        exact hland
      · rw [hmode]
        exact Nat.one_pos
    case blockComment count => exact feedBlockComment_advances hmode hfits
    case inlineStart => exact feedInline_advances (Or.inl hmode) (exists_closeNote_eq_ok hfits hrec)
    case inlineDash =>
      exact feedInline_advances (Or.inr (Or.inl hmode)) (exists_closeNote_eq_ok hfits hrec)
    case inlineText =>
      exact feedInline_advances (Or.inr (Or.inr hmode))
        (@exists_closeNote_eq_ok_of_text _ _ .inline _ _ hfits hrec hle)
    case blockStart => exact feedBlockText_advances (Or.inl hmode)
    case blockDash => exact feedBlockText_advances (Or.inr (Or.inl hmode))
    case blockText => exact feedBlockText_advances (Or.inr (Or.inr hmode))
    case blockStartStar =>
      exact feedBlockStar_advances (Or.inl hmode) (exists_closeNote_eq_ok hfits hstep)
    case blockTextStar =>
      exact feedBlockStar_advances (Or.inr (Or.inl hmode))
        (@exists_closeNote_eq_ok_of_text _ _ .block _ _ hfits hrec (Nat.le_succ_of_le hle))
    case blockAfterRulesStar =>
      exact feedBlockStar_advances (Or.inr (Or.inr hmode)) (exists_closeNote_eq_ok hfits hstep)

end State

/-! ## Completions -/

/-- **From every sound state the document can be brought to its end.** -/
theorem exists_completion (o : Options) (h : Sound past i s) :
    ∃ more, (run o s i more).2 = none := by
  induction hcost : s.cost using Nat.strongRecOn generalizing past s i with
  | ind cost ih =>
    by_cases hdone : s.mode = .done
    · exact ⟨[], by rw [run, State.conclude, hdone]⟩
    by_cases hfinish : s.mode = .between .finish
    · exact ⟨[], by rw [run, State.conclude, hfinish]; rfl⟩
    obtain ⟨b, s', hfeed, hlt⟩ := State.feed_advances o h hdone hfinish
    obtain ⟨more, hmore⟩ := ih s'.cost (hcost ▸ hlt) ((State.feed_goes o b h).of_ok hfeed) rfl
    exact ⟨b :: more, by rw [run, if_neg hdone, hfeed]; exact hmore⟩

/-- A completion reports what has been reported, before anything else. -/
theorem exists_completion_of_emitted (o : Options) (h : Sound past i s) :
    ∃ more, (run o s i more).2 = none ∧ s.emitted <:+ (run o s i more).1.emitted := by
  obtain ⟨more, hmore⟩ := exists_completion o h
  exact ⟨more, hmore, h.emitted_suffix_run o more⟩

/-- **What a run has reported when it stops is where some document begins**, whether or not it fails. -/
theorem exists_completion_of_run (o : Options) (h : Sound past i s) (text : Bytes) :
    ∃ more, (run o s i more).2 = none ∧ (run o s i text).1.emitted <:+ (run o s i more).1.emitted := by
  have hstops := exists_completion_of_emitted o h
  induction text generalizing past s i with
  | nil =>
    cases hend : s.conclude i with
    | ok s' => exact ⟨[], by rw [run, hend], List.suffix_rfl⟩
    | error cause =>
      rw [run, hend]
      exact hstops
  | cons b rest ih =>
    by_cases hdone : s.mode = .done
    · rw [run, if_pos hdone]
      exact hstops
    cases hfeed : s.feed o b i with
    | error cause =>
      rw [run, if_neg hdone, hfeed]
      exact hstops
    | ok s' =>
      have hstep (more : Bytes) : run o s i (b :: more) = run o s' (i + 1) more := by
        rw [run, if_neg hdone, hfeed]
      have hsound := (State.feed_goes o b h).of_ok hfeed
      obtain ⟨more, hmore, hsuffix⟩ := ih hsound (exists_completion_of_emitted o hsound)
      exact ⟨b :: more, by rw [hstep, hmore], by rwa [hstep, hstep]⟩

/-- What a scan reports is where the events of some document begin. -/
theorem exists_read_of_read (o : Options) (text : Bytes) :
    ∃ more, (read o more).failure = none ∧ (read o text).events <+: (read o more).events := by
  obtain ⟨more, hmore, hsuffix⟩ := exists_completion_of_run o sound_start text
  exact ⟨more, hmore, List.reverse_prefix.2 hsuffix⟩

/-! ## Where a scan fails -/

/-- **A run is refused at the first byte that makes the document hopeless**, and where the document only
ends too early it can be completed. -/
theorem run_isTimely {text : Bytes} (h : Sound past i s) {f : Failure}
    (hf : (run o s i text).2 = some f) :
    (f.cause.IsEarlyEnd → ∃ more, (run o s i (text ++ more)).2 = none) ∧
      (¬ f.cause.IsEarlyEnd → ∃ before b after, text = before ++ b :: after ∧
        f.offset = i + before.length ∧ (∃ more, (run o s i (before ++ more)).2 = none) ∧
        ∀ more, (run o s i (before ++ b :: more)).2 = some f) := by
  induction text generalizing s i past with
  | nil =>
    have hconclude := State.conclude_concludes h
    rw [run] at hf
    cases hend : s.conclude i with
    | ok s' =>
      rw [hend] at hf
      cases hf
    | error cause =>
      rw [hend] at hf hconclude
      cases hf
      exact ⟨fun _ => exists_completion o h, fun hnot => (hnot hconclude).elim⟩
  | cons b rest ih =>
    rw [run] at hf
    split at hf
    · cases hf
    next hmode =>
    cases hfeed : s.feed o b i with
    | error cause =>
      rw [hfeed] at hf
      cases hf
      have hrefusal : cause.IsRefusal := (State.feed_goes o b h).of_error hfeed
      refine ⟨fun hearly => (hrefusal.2 hearly).elim, fun _ => ?_⟩
      refine ⟨[], b, rest, rfl, rfl, exists_completion o h, fun more => ?_⟩
      rw [List.nil_append, run, if_neg hmode, hfeed]
    | ok s' =>
      have hstep (more : Bytes) : run o s i (b :: more) = run o s' (i + 1) more := by
        rw [run, if_neg hmode, hfeed]
      rw [hfeed] at hf
      obtain ⟨hearly, hlate⟩ := ih ((State.feed_goes o b h).of_ok hfeed) hf
      refine ⟨fun hend => ?_, fun hend => ?_⟩
      · obtain ⟨more, hmore⟩ := hearly hend
        exact ⟨more, by rw [List.cons_append, hstep, hmore]⟩
      · obtain ⟨before, b', after, rfl, hoffset, ⟨more, hmore⟩, hhopeless⟩ := hlate hend
        refine ⟨b :: before, b', after, rfl, ?_, ⟨more, ?_⟩, fun more => ?_⟩
        · rw [hoffset, List.length_cons]
          omega
        · rw [List.cons_append, hstep, hmore]
        · rw [List.cons_append, hstep, hhopeless]

/-- Some document starts with a text. -/
def IsViable (o : Options) (text : Bytes) : Prop := ∃ more, (read o (text ++ more)).failure = none

/-- A failure is reported as soon as the document is hopeless, and no sooner. -/
structure Failure.IsTimely (f : Failure) (o : Options) (text : Bytes) : Prop where
  /-- A document that ends too early can be completed. -/
  completes (h : f.cause.IsEarlyEnd) : IsViable o text
  /-- Any other failure is at a byte of the text. -/
  within (h : ¬ f.cause.IsEarlyEnd) : f.offset < text.length
  /-- There is still a document that starts with the bytes before it. -/
  viable (h : ¬ f.cause.IsEarlyEnd) : IsViable o (text.take f.offset)
  /-- There is none that starts with the bytes up to it: whatever follows, the scan fails as it did. -/
  hopeless (h : ¬ f.cause.IsEarlyEnd) :
    ¬ IsViable o (text.take (f.offset + 1)) ∧
      ∀ more, (read o (text.take (f.offset + 1) ++ more)).failure = some f

/-- **A scan fails at the first byte that makes the document hopeless**, with any options. -/
theorem read_isTimely (o : Options) {text : Bytes} {f : Failure}
    (h : (read o text).failure = some f) : f.IsTimely o text := by
  obtain ⟨hearly, hlate⟩ := run_isTimely sound_start h
  have hsplit (hend : ¬ f.cause.IsEarlyEnd) :
      f.offset < text.length ∧ IsViable o (text.take f.offset) ∧
        ∀ more, (read o (text.take (f.offset + 1) ++ more)).failure = some f := by
    obtain ⟨before, b, after, rfl, hoffset, hviable, hhopeless⟩ := hlate hend
    rw [Nat.zero_add] at hoffset
    rw [hoffset, List.take_left, List.take_length_add_append]
    refine ⟨by simp, hviable, fun more => ?_⟩
    rw [List.take_one, List.head?_cons, Option.toList_some, List.append_assoc]
    exact hhopeless more
  refine ⟨hearly, fun hend => (hsplit hend).1, fun hend => (hsplit hend).2.1, fun hend => ?_⟩
  refine ⟨?_, (hsplit hend).2.2⟩
  rintro ⟨more, hmore⟩
  rw [(hsplit hend).2.2 more] at hmore
  cases hmore

/-- The rules of an inline note cannot go on in the next line. -/
theorem line_end_isTimely :
    Failure.IsTimely ⟨.unexpectedByte 10 .afterObjectValue .sameLine, 12⟩ {}
      (Bytes.ofString "1 // \x7bmin: 1\n\x7d") :=
  read_isTimely {} (by decide +kernel)

end Scan
end ExampleSchema
