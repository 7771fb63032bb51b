import ExampleSchema.Proofs.Json.Tokens
import ExampleSchema.Proofs.Scan.Cut

/-!
# The document at the start of a text

Measuring finds out how many bytes at the start of a text are a document.  These bytes by themselves are a document
with the same events, except for line ends that follow it.

* `Scan.State.feed_measured`, `Scan.run_measured`: a byte keeps what every state satisfies, and so does a text.
* `Scan.length_of_read`: what is read is measured.
* `Scan.read_take_of_length`: what is measured is a document.
* `Scan.length_exact`: both, and the length of that document is the same.
-/

namespace ExampleSchema
namespace Scan

variable {text : Bytes} {s s' u r : State} {b : UInt8} {i n stop : Nat}
  {places : List Place} {emitted : List Event} {o : Options}

namespace State

/-! ## Between tokens -/

theorem openContainer_isBusy (s : State) (construct : Construct) (inside next : Place) :
    (s.openContainer construct inside next i).Meets IsBusy fun _ => True := by
  unfold openContainer
  split
  · exact ⟨by simp [waiting, interrupt], rfl⟩
  · trivial

theorem startValue_isBusy (s : State) (next : Place) : (startValue o s next b i).Meets IsBusy fun _ => True := by
  unfold startValue
  split
  iterate 2 exact openContainer_isBusy ..
  iterate 6 exact isBusy_of_mode rfl rfl
  · split
    · exact isBusy_of_mode rfl rfl
    · split
      · exact isBusy_of_mode rfl rfl
      · trivial

theorem startKey_isBusy (s : State) : (startKey o s b i).Meets IsBusy fun _ => True := by
  unfold startKey
  split
  · exact isBusy_of_mode rfl rfl
  split
  · split
    · trivial
    · split
      · exact isBusy_of_mode rfl rfl
      · trivial
  · split
    · exact isBusy_of_mode rfl rfl
    · trivial

/-- A token ends the document, or a container, or leads on to the value that is being read. -/
theorem token_measured {place : Place} (hended : place = .finish → HasEnded text s.stop.emitted)
    (h : s.token .measuring place b text.length = .ok s') (hsound : Sound [] (text ++ [b]).length s')
    (hreach : s'.mode ≠ .done → Reaches (text ++ [b]) s') : Measured (text ++ [b]) s' := by
  have hbusy {x : Verdict State} (hx : x.Meets IsBusy fun _ => True) (h : x = .ok s') : Measured (text ++ [b]) s' :=
    (hx.of_ok h).measured _
  have hfinish (h : s.finishValue (text.length + 1) = .ok s') : Measured (text ++ [b]) s' :=
    finishValue_measured (by rwa [List.length_append]) hsound hreach
  have hmove (mode : Mode) (hmode : (s.switch mode).IsBusy) (h : (.ok (s.switch mode) : Verdict State) = .ok s') :
      Measured (text ++ [b]) s' := by
    obtain rfl := Except.ok.inj h
    exact hmode.measured _
  have hwithin (place : Place) (hplace : place ≠ .finish) : (s.switch (.between place)).IsBusy :=
    ⟨fun hwaiting => hplace (List.cons.inj hwaiting).1, rfl⟩
  unfold token at h
  split at h
  · exact hbusy (startValue_isBusy s _) h
  · obtain rfl := Except.ok.inj h
    exact ⟨nofun, nofun, nofun, fun _ => (hended rfl).append [b]⟩
  · exact hfinish h
  · exact hbusy (startKey_isBusy s) h
  · cases h
  · exact hbusy (startKey_isBusy s) h
  · exact hmove _ (hwithin .objectValue nofun) h
  · cases h
  · exact hbusy (startValue_isBusy _ _) h
  · exact hmove _ (hwithin .objectKey nofun) h
  · exact hfinish h
  · cases h
  · exact hfinish h
  · exact hbusy (startValue_isBusy _ _) h
  · cases h
  · exact hbusy (startValue_isBusy _ _) h
  · exact hmove _ (hwithin .arrayItem nofun) h
  · exact hfinish h
  · cases h
  · exact hmove .inlineDash (isBusy_of_mode rfl rfl) h
  · cases h
  · exact hmove .blockDash (isBusy_of_mode rfl rfl) h
  · exact hmove .blockAfterRulesStar (isBusy_of_mode rfl rfl) h
  · cases h

theorem visit_measured {place : Place} (hmode : s.mode = .between place)
    (hended : place = .finish → HasEnded text s.stop.emitted)
    (h : s.visit .measuring place b text.length = .ok s') (hsound : Sound [] (text ++ [b]).length s')
    (hreach : s'.mode ≠ .done → Reaches (text ++ [b]) s') : Measured (text ++ [b]) s' := by
  have hcut (hplaces : place :: s.resume = [.finish]) : IsCut text s.valueEnd s.emitted :=
    hasEnded_stop_iff.1 (hended (List.cons.inj hplaces).1)
  have hwaiting (h : s.waiting = [.finish]) : IsCut text s.valueEnd s.emitted := by
    rw [waiting, hmode] at h
    exact hcut h
  have hstay : Measured (text ++ [b]) s :=
    measured_of_isCut hwaiting (Or.inl rfl) (by rw [hmode]; rfl)
  unfold visit at h
  split at h
  · unfold skipBlank at h
    split at h
    · split at h
      · obtain rfl := Except.ok.inj h
        exact measured_of_isCut hwaiting (Or.inr rfl) (by change s.mode.isGoing = true; rw [hmode]; rfl)
      · obtain rfl := Except.ok.inj h
        exact hstay
      · cases h
    · obtain rfl := Except.ok.inj h
      exact hstay
  split at h
  · split at h
    · next mode hcomment =>
      obtain rfl := Except.ok.inj h
      unfold commentMode? at hcomment
      split at hcomment
      · obtain rfl := Option.some.inj hcomment
        exact measured_of_isCut hcut (Or.inl rfl) rfl
      · obtain rfl := Option.some.inj hcomment
        exact measured_of_isCut hcut (Or.inl rfl) rfl
      · cases hcomment
    · exact token_measured hended h hsound hreach
  · exact token_measured hended h hsound hreach

/-- **A byte that is handed to the places to resume** is measured, if the document has been reported where it may end
before the byte. -/
theorem land_measured (hended : ∀ r, land? text.length places s = .ok r → HasEnded text r.emitted)
    (h : land .measuring b text.length places s = .ok s') (hsound : Sound [] (text ++ [b]).length s')
    (hreach : s'.mode ≠ .done → Reaches (text ++ [b]) s') : Measured (text ++ [b]) s' := by
  induction places generalizing s with
  | nil => cases h
  | cons place rest ih =>
    unfold land at h
    split at h
    · next hinline =>
      obtain ⟨rfl, -⟩ := hinline
      obtain ⟨u, hu, h⟩ := Except.bind_eq_ok_iff.1 h
      refine ih (fun r hr => hended r ?_) h
      rw [land?, hu]
      exact hr
    · refine visit_measured rfl ?_ h hsound hreach
      rintro rfl
      exact hended s.stop rfl

/-! ## Every mode -/

/-- The state keeps what is known of it while a comment goes on. -/
theorem comment_measured (h : Measured text s) (hwaiting : s'.waiting = s.waiting)
    (hvalueEnd : s'.valueEnd = s.valueEnd)
    (hemitted : s'.emitted = s.emitted ∨ s'.emitted = ⟨.newLine, text.length, text.length + 1⟩ :: s.emitted)
    (hmode : s'.mode.isGoing = true) : Measured (text ++ [b]) s' :=
  measured_of_isCut (fun h' => hvalueEnd ▸ h.past (hwaiting ▸ h')) hemitted hmode

theorem feedBlockComment_measured (hm : Measured text s) (hmode : s.waiting = s.resume) {hashes : Nat}
    (h : s.feedBlockComment hashes b text.length = .ok s') : Measured (text ++ [b]) s' := by
  unfold feedBlockComment at h
  split at h
  · split at h
    · unfold resumeNext at h
      split at h
      · cases h
      · next place rest hplaces =>
        obtain rfl := Except.ok.inj h
        exact comment_measured hm (by rw [hmode, hplaces]; rfl) rfl (Or.inl rfl) rfl
    · obtain rfl := Except.ok.inj h
      exact comment_measured hm hmode.symm rfl (Or.inl rfl) rfl
  · obtain rfl := Except.ok.inj h
    exact comment_measured hm hmode.symm rfl (Or.inr rfl) rfl
  · obtain rfl := Except.ok.inj h
    exact comment_measured hm hmode.symm rfl (Or.inl rfl) rfl

theorem feedLineComment_measured (hm : Measured text s) (hmode : s.waiting = s.resume)
    (hended : ∀ r, land? text.length s.resume s = .ok r → HasEnded text r.emitted)
    (h : s.feedLineComment .measuring b text.length = .ok s') (hsound : Sound [] (text ++ [b]).length s')
    (hreach : s'.mode ≠ .done → Reaches (text ++ [b]) s') : Measured (text ++ [b]) s' := by
  unfold feedLineComment at h
  split at h
  · exact land_measured hended h hsound hreach
  · obtain rfl := Except.ok.inj h
    exact comment_measured hm hmode.symm rfl (Or.inl rfl) rfl

theorem endValue_land_measured
    (hended : ∀ u r, s.endValue stop = .ok u → land? text.length s.resume u = .ok r → HasEnded text r.emitted)
    (h : (do land .measuring b text.length s.resume (← s.endValue stop)) = .ok s')
    (hsound : Sound [] (text ++ [b]).length s') (hreach : s'.mode ≠ .done → Reaches (text ++ [b]) s') :
    Measured (text ++ [b]) s' := by
  obtain ⟨u, hu, h⟩ := Except.bind_eq_ok_iff.1 h
  exact land_measured (fun r => hended u r hu) h hsound hreach

/-- Blanks behind the name of a type lead further away from the end of the name. -/
theorem afterName_measured (hnamed : ∃ before after s₀, text = before ++ after ∧ before.length = s.nameEnd ∧
      Reaches before s₀ ∧ s₀.mode = .shortcut .name ∧ s.switch (.shortcut .afterName) =
        s₀.onward (.shortcut .afterName) s.nameEnd)
    (hended : ∀ u r, s.endValue s.nameEnd = .ok u → land? text.length s.resume u = .ok r → HasEnded text r.emitted)
    (h : feedShortcut.afterName .measuring b text.length s = .ok s') (hsound : Sound [] (text ++ [b]).length s')
    (hreach : s'.mode ≠ .done → Reaches (text ++ [b]) s') : Measured (text ++ [b]) s' := by
  unfold feedShortcut.afterName at h
  split at h
  · obtain rfl := Except.ok.inj h
    obtain ⟨before, after, s₀, rfl, hlength, hreach₀, hmode₀, heq⟩ := hnamed
    exact ⟨nofun, nofun, fun _ => ⟨before, after ++ [b], s₀, List.append_assoc .., hlength, hreach₀, hmode₀, heq⟩, nofun⟩
  split at h
  · obtain rfl := Except.ok.inj h
    exact measured_of_mode rfl rfl
  · exact endValue_land_measured hended h hsound hreach

theorem feedShortcut_measured {part : ShortcutPart} (hmode : s.mode = .shortcut part) (hreach₀ : Reaches text s)
    (hm : Measured text s) (hended : ∀ r, s.conclude text.length = .ok r → HasEnded text r.emitted)
    (h : s.feedShortcut .measuring part b text.length = .ok s') (hsound : Sound [] (text ++ [b]).length s')
    (hreach : s'.mode ≠ .done → Reaches (text ++ [b]) s') : Measured (text ++ [b]) s' := by
  have hstay (hpart : (Mode.shortcut part).isGoing = true) : Measured (text ++ [b]) s :=
    measured_of_mode (by rw [waiting, hmode]) (by rw [hmode]; exact hpart)
  cases part with
  | mark =>
    unfold feedShortcut at h
    dsimp only at h
    split at h
    · obtain rfl := Except.ok.inj h
      exact measured_of_mode rfl rfl
    · cases h
  | afterBar =>
    unfold feedShortcut at h
    dsimp only at h
    split at h
    · obtain rfl := Except.ok.inj h
      exact hstay rfl
    split at h
    · obtain rfl := Except.ok.inj h
      exact measured_of_mode rfl rfl
    · cases h
  | name =>
    unfold feedShortcut at h
    dsimp only at h
    split at h
    · obtain rfl := Except.ok.inj h
      exact hstay rfl
    · -- the name ends here, so the scan would end the document here in the same way
      refine afterName_measured (s := { s with nameEnd := text.length }) ⟨text, [], s, (List.append_nil text).symm, rfl,
        hreach₀, hmode, rfl⟩ ?_ h hsound hreach
      intro u r hu hland
      have honward : (s.onward s.mode text.length).endValue text.length = .ok u := hu
      rw [endValue_onward] at honward
      obtain ⟨u₀, hu₀, rfl⟩ := Except.map_eq_ok_iff.1 honward
      rw [land?_onward] at hland
      obtain ⟨r₀, hland₀, rfl⟩ := Except.map_eq_ok_iff.1 hland
      refine hended r₀ ?_
      rw [conclude, hmode]
      dsimp only
      rw [hu₀]
      exact hland₀
  | afterName =>
    obtain ⟨before, after, s₀, htext, hlength, hreach', hmode₀, heq⟩ := hm.named hmode
    refine afterName_measured ⟨before, after, s₀, htext, hlength, hreach', hmode₀, ?_⟩ ?_ h hsound hreach
    · rw [← heq, ← hmode]
      rfl
    · intro u r hu hland
      refine hended r ?_
      rw [conclude, hmode]
      dsimp only
      rw [hu]
      exact hland

theorem feedInline_measured (hmode : s.mode = .inlineStart ∨ s.mode = .inlineDash ∨ s.mode = .inlineText)
    (hended : ∀ u r, s.closeNote text.length = .ok u → land? text.length s.resume u = .ok r → HasEnded text r.emitted)
    (h : s.feedInline .measuring b text.length = .ok s') (hsound : Sound [] (text ++ [b]).length s')
    (hreach : s'.mode ≠ .done → Reaches (text ++ [b]) s') : Measured (text ++ [b]) s' := by
  have hstay : Measured (text ++ [b]) s := by
    rcases hmode with hmode | hmode | hmode <;>
      exact measured_of_mode (by rw [waiting, hmode]) (by rw [hmode]; rfl)
  unfold feedInline at h
  split at h
  · obtain ⟨u, hu, h⟩ := Except.bind_eq_ok_iff.1 h
    exact land_measured (fun r => hended u r hu) h hsound hreach
  split at h
  · obtain rfl := Except.ok.inj h
    exact measured_of_mode rfl rfl
  · exact ((openContainer_isBusy ..).of_ok h).measured _
  · obtain rfl := Except.ok.inj h
    exact measured_of_mode rfl rfl
  · split at h
    · obtain rfl := Except.ok.inj h
      exact hstay
    · obtain rfl := Except.ok.inj h
      exact measured_of_mode rfl rfl

theorem feedBlockText_measured : Measured text (s.feedBlockText b i) := by
  unfold feedBlockText
  split
  · exact measured_of_mode rfl rfl
  · exact measured_of_mode rfl rfl

theorem feedBlockStart_measured (hmode : s.mode = .blockStart ∨ s.mode = .blockDash)
    (h : s.feedBlockStart b i = .ok s') : Measured text s' := by
  have hstay : Measured text s := by
    rcases hmode with hmode | hmode <;>
      exact measured_of_mode (by rw [waiting, hmode]) (by rw [hmode]; rfl)
  unfold feedBlockStart at h
  split at h
  · exact ((openContainer_isBusy ..).of_ok h).measured _
  · obtain rfl := Except.ok.inj h
    exact measured_of_mode rfl rfl
  · obtain rfl := Except.ok.inj h
    exact measured_of_mode rfl rfl
  · split at h
    · obtain rfl := Except.ok.inj h
      exact hstay
    · obtain rfl := Except.ok.inj h
      exact feedBlockText_measured

/-! Where the byte ends a value or a note, that is shown once for all modes, as `hfinish`. -/

theorem feedString_measured (hmode : s.mode = .string)
    (hfinish : s.finishValue (i + 1) = .ok s' → Measured text s') (h : s.feedString b i = .ok s') :
    Measured text s' := by
  unfold feedString at h
  split at h
  · exact hfinish h
  · obtain rfl := Except.ok.inj h
    exact measured_of_mode rfl rfl
  · split at h
    · cases h
    · obtain rfl := Except.ok.inj h
      exact measured_of_mode (by rw [waiting, hmode]) (by rw [hmode]; rfl)

theorem feedEscape_measured (h : s.feedEscape b = .ok s') : Measured text s' := by
  unfold feedEscape at h
  split at h
  iterate 9
    · obtain rfl := Except.ok.inj h
      exact measured_of_mode rfl rfl
  · cases h

theorem feedUnicode_measured {digits : Nat} (h : s.feedUnicode digits b = .ok s') : Measured text s' := by
  unfold feedUnicode at h
  split at h
  · obtain rfl := Except.ok.inj h
    split <;> exact measured_of_mode rfl rfl
  · cases h

theorem feedKeyword_measured {word : Keyword} {next : UInt8} {rest : Bytes}
    (hfinish : s.finishValue (i + 1) = .ok s' → Measured text s') (h : s.feedKeyword word next rest b i = .ok s') :
    Measured text s' := by
  unfold feedKeyword at h
  split at h
  · split at h
    · exact hfinish h
    · obtain rfl := Except.ok.inj h
      exact measured_of_mode rfl rfl
  · cases h

theorem feedNumber_measured {part : NumberPart}
    (hended : ∀ r, (if part.isComplete = true then do land? text.length s.resume (← s.endValue text.length)
      else conclude.endsEarly s) = .ok r → HasEnded text r.emitted)
    (h : s.feedNumber .measuring part b text.length = .ok s') (hsound : Sound [] (text ++ [b]).length s')
    (hreach : s'.mode ≠ .done → Reaches (text ++ [b]) s') : Measured (text ++ [b]) s' := by
  unfold feedNumber at h
  split at h
  · obtain rfl := Except.ok.inj h
    exact measured_of_mode rfl rfl
  · cases h
  · next hrefusal =>
    refine endValue_land_measured (fun u r hu hr => hended r ?_) h hsound hreach
    rw [if_pos (isComplete_of_refusal? hrefusal), hu]
    exact hr

theorem feedName_measured {rest : List Place} (hwaiting : s.waiting = []) (hmode : s.mode.isGoing = true)
    (hresume : s.resume = .objectColon :: rest)
    (h : s.feedName .measuring b text.length = .ok s') (hsound : Sound [] (text ++ [b]).length s')
    (hreach : s'.mode ≠ .done → Reaches (text ++ [b]) s') : Measured (text ++ [b]) s' := by
  unfold feedName at h
  split at h
  · obtain rfl := Except.ok.inj h
    exact measured_of_mode hwaiting hmode
  · refine endValue_land_measured (fun u r hu hr => ?_) h hsound hreach
    rw [hresume] at hr
    cases hr

theorem feedKeyMark_measured (h : s.feedKeyMark b = .ok s') : Measured text s' := by
  unfold feedKeyMark at h
  split at h
  · obtain rfl := Except.ok.inj h
    exact measured_of_mode rfl rfl
  · cases h

theorem feedCommentStart_measured (h : s.feedCommentStart b i = .ok s') : Measured text s' := by
  unfold feedCommentStart at h
  split at h
  · obtain rfl := Except.ok.inj h
    exact measured_of_mode rfl rfl
  · obtain rfl := Except.ok.inj h
    exact measured_of_mode rfl rfl
  · cases h

theorem feedHashes_measured {count : Nat} (hm : Measured text s) (hmode : s.waiting = s.resume)
    (hended : ∀ r, (if count = 3 then conclude.endsEarly s else land? text.length s.resume s) = .ok r →
      HasEnded text r.emitted)
    (h : s.feedHashes .measuring count b text.length = .ok s') (hsound : Sound [] (text ++ [b]).length s')
    (hreach : s'.mode ≠ .done → Reaches (text ++ [b]) s') : Measured (text ++ [b]) s' := by
  unfold feedHashes at h
  split at h
  · obtain rfl := Except.ok.inj h
    exact comment_measured hm hmode.symm rfl (Or.inl rfl) rfl
  split at h
  · exact feedBlockComment_measured hm hmode h
  · next hcount =>
    rw [if_neg hcount] at hended
    exact feedLineComment_measured hm hmode hended h hsound hreach

theorem feedBlockStartStar_measured (hfinish : s.finishNote (i + 1) = .ok s' → Measured text s')
    (h : s.feedBlockStartStar b i = .ok s') : Measured text s' := by
  unfold feedBlockStartStar at h
  split at h
  · exact hfinish h
  · obtain rfl := Except.ok.inj h
    exact feedBlockText_measured

theorem feedBlockTextStar_measured (hmode : s.mode = .blockTextStar)
    (hfinish : s.finishNote (i + 1) = .ok s' → Measured text s') (h : s.feedBlockTextStar b i = .ok s') :
    Measured text s' := by
  unfold feedBlockTextStar at h
  split at h
  · exact hfinish h
  · obtain rfl := Except.ok.inj h
    refine measured_of_mode ?_ ?_
    · rw [waiting, hmode]
    · rw [hmode]
      rfl
  · obtain rfl := Except.ok.inj h
    exact feedBlockText_measured

theorem feedBlockAfterRulesStar_measured (hfinish : s.finishNote (i + 1) = .ok s' → Measured text s')
    (h : s.feedBlockAfterRulesStar b i = .ok s') : Measured text s' := by
  unfold feedBlockAfterRulesStar at h
  split at h
  · exact hfinish h
  · cases h

/-- **A byte** keeps what every state satisfies. -/
theorem feed_measured (hreach : Reaches text s) (hsound : Sound [] text.length s) (hm : Measured text s)
    (hmode : s.mode ≠ .done) (h : s.feed .measuring b text.length = .ok s') :
    Measured (text ++ [b]) s' ∧ (s'.mode ≠ .done → Reaches (text ++ [b]) s') := by
  have hreach' : s'.mode ≠ .done → Reaches (text ++ [b]) s' := by
    intro hmode'
    cases feed_inStep hmode b text.length with
    | same heq hgoes => exact hreach.feed hmode (heq ▸ h)
    | stopped hmeasured hwhole =>
      obtain ⟨s₁, hmeasured⟩ := hmeasured
      obtain rfl := Except.ok.inj (hmeasured.symm.trans h)
      exact (hmode' rfl).elim
  refine ⟨?_, hreach'⟩
  have hsound' : Sound [] (text ++ [b]).length s' := by
    rw [List.length_append]
    exact (feed_goes .measuring b hsound).of_ok h
  have hlength : text.length + 1 = (text ++ [b]).length := by rw [List.length_append, List.length_singleton]
  have hfinish (h : s.finishValue (text.length + 1) = .ok s') : Measured (text ++ [b]) s' :=
    finishValue_measured (by rwa [← hlength]) hsound' hreach'
  have hfinishNote (h : s.finishNote (text.length + 1) = .ok s') : Measured (text ++ [b]) s' :=
    finishNote_measured (by rwa [← hlength]) hsound' hreach'
  have hended : ∀ r, s.conclude text.length = .ok r → HasEnded text r.emitted := fun r =>
    hasEnded_of_conclude hreach hsound hm
  cases hsound with
  | ended hdone => exact (hmode hdone).elim
  | running hfits hrec hle =>
    unfold feed at h
    unfold conclude at hended
    cases hmode' : s.mode <;> rw [hmode'] at hfits h hended
    case between place => exact land_measured hended h hsound' hreach'
    case done => exact hfits.elim
    case string => exact feedString_measured hmode' hfinish h
    case escape => exact feedEscape_measured h
    case unicode digits => exact feedUnicode_measured h
    case number part => exact feedNumber_measured hended h hsound' hreach'
    case keyword word next rest => exact feedKeyword_measured hfinish h
    case shortcut part =>
      refine feedShortcut_measured hmode' hreach hm ?_ h hsound' hreach'
      rw [conclude, hmode']
      exact hended
    case ruleName | keyName =>
      obtain ⟨rest, outer, hresume, -⟩ := hfits
      exact feedName_measured (by rw [waiting, hmode']) (by rw [hmode']; rfl) hresume h
        hsound' hreach'
    case keyMark => exact feedKeyMark_measured h
    case commentStart => exact feedCommentStart_measured h
    case hashes count => exact feedHashes_measured hm (by rw [waiting, hmode']) hended h hsound' hreach'
    case lineComment => exact feedLineComment_measured hm (by rw [waiting, hmode']) hended h hsound' hreach'
    case blockComment hashes => exact feedBlockComment_measured hm (by rw [waiting, hmode']) h
    case inlineStart =>
      exact feedInline_measured (Or.inl hmode') (fun u r hu hr => hended r (by rw [hu]; exact hr)) h hsound' hreach'
    case inlineDash =>
      exact feedInline_measured (Or.inr (Or.inl hmode')) (fun u r hu hr => hended r (by rw [hu]; exact hr)) h hsound'
        hreach'
    case inlineText =>
      exact feedInline_measured (Or.inr (Or.inr hmode')) (fun u r hu hr => hended r (by rw [hu]; exact hr)) h hsound'
        hreach'
    case blockStart => exact feedBlockStart_measured (Or.inl hmode') h
    case blockDash => exact feedBlockStart_measured (Or.inr hmode') h
    case blockStartStar => exact feedBlockStartStar_measured hfinishNote h
    case blockText =>
      obtain rfl := Except.ok.inj h
      exact feedBlockText_measured
    case blockTextStar => exact feedBlockTextStar_measured hmode' hfinishNote h
    case blockAfterRulesStar => exact feedBlockAfterRulesStar_measured hfinishNote h

end State

/-! ## Whole texts -/

/-- **A text** that is measured leads to the end of its document. -/
theorem run_measured {rest : Bytes} (hreach : Reaches text s) (hsound : Sound [] text.length s) (hm : Measured text s)
    (h : run .measuring s text.length rest = (r, none)) : HasEnded (text ++ rest) r.emitted := by
  induction rest generalizing text s with
  | nil =>
    rw [run] at h
    split at h
    · next hconclude =>
      obtain ⟨rfl, -⟩ := Prod.mk.inj h
      rw [List.append_nil]
      exact State.hasEnded_of_conclude hreach hsound hm hconclude
    · cases h
  | cons b rest ih =>
    rw [run] at h
    split at h
    · next hmode =>
      obtain ⟨rfl, -⟩ := Prod.mk.inj h
      exact (hm.ended hmode).append _
    next hmode =>
    split at h
    · next s' hfeed =>
      obtain ⟨hm', hreach'⟩ := State.feed_measured hreach hsound hm hmode hfeed
      have hsound' : Sound [] (text ++ [b]).length s' := by
        rw [List.length_append]
        exact (State.feed_goes .measuring b hsound).of_ok hfeed
      rw [List.append_cons]
      by_cases hdone : s'.mode = .done
      · rw [run_of_done hdone] at h
        obtain ⟨rfl, -⟩ := Prod.mk.inj h
        exact (hm'.ended hdone).append rest
      · refine ih (hreach' hdone) hsound' hm' ?_
        rw [List.length_append]
        exact h
    · cases h

/-- The events of a document end with its end, and line ends lie within it. -/
theorem within_of_read {before : List Event} (h : read {} text = ⟨before.reverse ++ [⟨.endTop, n, n⟩], none⟩) :
    ∀ e ∈ before, e.kind ≠ .endTop ∧ (e.kind = .newLine → e.start < text.length) := by
  obtain ⟨opened, events, hhistory, ⟨-, -, m, hevents⟩ | ⟨hfailure, -⟩⟩ := read_history {} text
  · rw [h] at hevents
    obtain ⟨hevents, -⟩ := List.append_inj' hevents rfl
    obtain rfl := List.reverse_inj.1 hevents
    exact fun e he => ⟨hhistory.kind_ne_endTop e he, hhistory.start_lt e he⟩
  · rw [h] at hfailure
    exact (hfailure rfl).elim

/-- Whether an event is one of the first `n` bytes: it is neither the end of the document nor a line end from there
on. -/
def IsOfFirst (n : Nat) (e : Event) : Prop := e.kind ≠ .endTop ∧ (e.kind = .newLine → e.start < n)

instance decidableIsOfFirst (n : Nat) : DecidablePred (IsOfFirst n) := fun e =>
  inferInstanceAs (Decidable (e.kind ≠ .endTop ∧ (e.kind = .newLine → e.start < n)))

/-- **What is read is measured**, and ends there. -/
theorem length_of_read {source : Source} {events : List Event} (h : read {} source.content = ⟨events, none⟩) :
    ∃ before n, events = before ++ [⟨.endTop, n, n⟩] ∧ length source = .ok n := by
  obtain ⟨before, n, hread, -⟩ := exists_read_of_failure_eq_none (congrArg Reading.failure h)
  have hevents : events = before ++ [⟨.endTop, n, n⟩] := congrArg Reading.events (h.symm.trans hread)
  exact ⟨before, n, hevents, length_eq_ok_iff.2 ⟨before, read_measuring_of_read hread⟩⟩

/-- **What is measured is a document.** -/
theorem read_take_of_length {source : Source} (h : length source = .ok n) : n ≤ source.content.length ∧
    read {} (source.content.take n) = ⟨(read .measuring source.content).events.filter (IsOfFirst n) ++
      [⟨.endTop, n, n⟩], none⟩ := by
  obtain ⟨all, hread⟩ := length_eq_ok_iff.1 h
  have hrun : run .measuring {} 0 source.content = ((run .measuring {} 0 source.content).1, none) :=
    Prod.ext rfl (congrArg Reading.failure hread)
  obtain ⟨m, emitted, hemitted, hcut⟩ := run_measured reaches_nil sound_start measured_start hrun
  have hevents : (read .measuring source.content).events = emitted.reverse ++ [⟨.endTop, m, m⟩] := by
    change (run .measuring {} 0 source.content).1.emitted.reverse = _
    rw [hemitted, List.reverse_cons]
  have hm : m = n := by
    have hlast := congrArg List.getLast? (hevents.symm.trans (congrArg Reading.events hread))
    simp only [List.getLast?_concat, Option.some.injEq, Event.mk.injEq] at hlast
    exact hlast.2.1
  subst hm
  obtain ⟨blanks, before, rfl, hblanks, hkept⟩ := hcut.kept
  rw [List.nil_append] at hkept hcut
  have hwithin : ∀ e ∈ before.reverse, IsOfFirst m e := fun e he => by
    have h := within_of_read hkept e (List.mem_reverse.1 he)
    rwa [List.length_take_of_le hcut.le] at h
  have hbeyond : ∀ e ∈ blanks.reverse, ¬ IsOfFirst m e := fun e he h => by
    obtain ⟨hkind, hle⟩ := hblanks e (List.mem_reverse.1 he)
    exact Nat.not_lt_of_le hle (h.2 hkind)
  refine ⟨hcut.le, hkept.trans ?_⟩
  have hend : ([⟨.endTop, m, m⟩] : List Event).filter (IsOfFirst m) = [] := rfl
  rw [hevents, List.reverse_append, List.filter_append, List.filter_append, hend,
    List.filter_eq_self.2 fun e he => decide_eq_true (hwithin e he),
    List.filter_eq_nil_iff.2 fun e he => by simpa using hbeyond e he]
  simp

/-- **The length is exact.**  If a text can be read as a document, then its length is the offset at which the end of
the document is reported.  Conversely, where a text has some length, that many bytes of it are a document by
themselves, which ends with them: its events are those that are reported while the text is measured, but for the line
ends behind it, and it has the same length. -/
theorem length_exact (source : Source) :
    (∀ events, read {} source.content = ⟨events, none⟩ →
      ∃ before n, events = before ++ [⟨.endTop, n, n⟩] ∧ length source = .ok n) ∧
    ∀ n, length source = .ok n → n ≤ source.content.length ∧
      read {} (source.content.take n) = ⟨(read .measuring source.content).events.filter (IsOfFirst n) ++
        [⟨.endTop, n, n⟩], none⟩ ∧
      ∀ name, length ⟨name, source.content.take n⟩ = .ok n := by
  refine ⟨fun events => length_of_read, fun n h => ?_⟩
  obtain ⟨hle, hread⟩ := read_take_of_length h
  refine ⟨hle, hread, fun name => ?_⟩
  obtain ⟨before, m, hevents, hlength⟩ := @length_of_read ⟨name, source.content.take n⟩ _ hread
  have hlast := congrArg List.getLast? hevents
  simp only [List.getLast?_concat, Option.some.injEq, Event.mk.injEq] at hlast
  rw [hlength, hlast.2.1]

/-- Two line ends follow a number, and then something else. -/
theorem length_of_number : length (Source.ofString "text" "1\n\nx") = .ok 1 ∧
    read {} ((Source.ofString "text" "1\n\nx").content.take 1) =
      ⟨(read .measuring (Source.ofString "text" "1\n\nx").content).events.filter (IsOfFirst 1) ++
        [⟨.endTop, 1, 1⟩], none⟩ := by
  have hlength : length (Source.ofString "text" "1\n\nx") = .ok 1 := by decide +kernel
  exact ⟨hlength, ((length_exact (Source.ofString "text" "1\n\nx")).2 1 hlength).2.1⟩

end Scan
end ExampleSchema
