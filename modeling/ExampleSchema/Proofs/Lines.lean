import ExampleSchema.Text.Source
import Mathlib.Data.List.Basic

/-!
# Lines and columns

The line and the column of an offset are found by looking back from it, and the text of its line by looking back and
ahead.  What they have to be is said by the lines of the document, which stand between its line feeds: a line begins
behind the lines in front of it, each with its line feed, and a column counts the bytes from there.

* `Source.lines`, `Source.lineBegin`: the lines, and the offset at which one begins.
* `Source.IsAt`: an offset is at a line and a column.
* `Source.lines_eq`: the lines around an offset.
* `Source.positions_exact`: each offset is at one line and column, offsets are ordered as these are, and the text of
  the line is the line.
-/

namespace ExampleSchema

/-! ## Splitting a text -/

namespace Bytes

/-- How many bytes some lines have, each with its line feed. -/
def sizeWithEnds : List Bytes → Nat
  | [] => 0
  | line :: rest => line.length + 1 + sizeWithEnds rest

/-- A text has one line more than line feeds. -/
theorem length_splitOnP (text : Bytes) : (text.splitOnP isNewLine).length = text.countP isNewLine + 1 := by
  induction text with
  | nil => rfl
  | cons b rest ih =>
    rw [List.splitOnP_cons_eq_if_modifyHead]
    split
    · next hline => rw [List.length_cons, ih, List.countP_cons_of_pos hline]
    · next hline => rw [List.length_modifyHead, ih, List.countP_cons_of_neg hline]

/-- With a line feed behind each, the lines are as long as the text with a line feed behind it. -/
theorem sizeWithEnds_splitOnP (text : Bytes) : sizeWithEnds (text.splitOnP isNewLine) = text.length + 1 := by
  induction text with
  | nil => rfl
  | cons b rest ih =>
    rw [List.splitOnP_cons_eq_if_modifyHead]
    split
    · rw [sizeWithEnds, ih, List.length_nil, List.length_cons]
      omega
    · obtain ⟨line, lines, hlines⟩ := List.exists_cons_of_ne_nil (List.splitOnP_ne_nil isNewLine rest)
      rw [hlines, sizeWithEnds] at ih
      rw [hlines, List.modifyHead_cons, sizeWithEnds, List.length_cons, List.length_cons]
      omega

/-- In front of a line stand as many line feeds as lines. -/
theorem countP_take_sizeWithEnds {text : Bytes} {k : Nat} (h : k < (text.splitOnP isNewLine).length) :
    (text.take (sizeWithEnds ((text.splitOnP isNewLine).take k))).countP isNewLine = k := by
  induction text generalizing k with
  | nil =>
    obtain rfl : k = 0 := by simpa using h
    rfl
  | cons b rest ih =>
    rw [List.splitOnP_cons_eq_if_modifyHead] at h ⊢
    cases k with
    | zero => rfl
    | succ k =>
      split at h
      · next hline =>
        rw [if_pos hline, List.take_succ_cons, sizeWithEnds, List.length_nil, Nat.zero_add, Nat.add_comm,
          List.take_succ_cons, List.countP_cons_of_pos hline, ih (Nat.lt_of_succ_lt_succ h)]
      · next hline =>
        rw [List.length_modifyHead] at h
        have hrest := ih h
        obtain ⟨line, lines, hlines⟩ := List.exists_cons_of_ne_nil (List.splitOnP_ne_nil isNewLine rest)
        rw [hlines, List.take_succ_cons, sizeWithEnds] at hrest
        rw [if_neg hline, hlines, List.modifyHead_cons, List.take_succ_cons, sizeWithEnds, List.length_cons,
          Nat.add_right_comm, List.take_succ_cons, List.countP_cons_of_neg hline, hrest]

/-- What stands in front of the first line feed belongs to the first line. -/
theorem exists_splitOnP_append_eq {front : Bytes} (hfront : ∀ b ∈ front, isNewLine b = false) (back : Bytes) :
    ∃ lines, (front ++ back).splitOnP isNewLine = (front ++ back.takeWhile (!isNewLine ·)) :: lines := by
  have hline : ∀ b ∈ front ++ back.takeWhile (!isNewLine ·), isNewLine b = false := by
    intro b hb
    rcases List.mem_append.1 hb with hb | hb
    · exact hfront b hb
    · simpa using List.all_eq_true.1 (List.all_takeWhile (l := back) (p := (!isNewLine ·))) b hb
  have hcut : front ++ back = (front ++ back.takeWhile (!isNewLine ·)) ++ back.dropWhile (!isNewLine ·) := by
    rw [List.append_assoc, List.takeWhile_append_dropWhile]
  rw [hcut]
  cases hrest : back.dropWhile (!isNewLine ·) with
  | nil => exact ⟨[], by rw [List.append_nil, List.splitOnP_eq_singleton hline]⟩
  | cons b rest =>
    have hb : isNewLine b = true := by
      have hhead := List.head?_dropWhile_not (!isNewLine ·) back
      rw [hrest] at hhead
      simpa using hhead
    exact ⟨rest.splitOnP isNewLine, by rw [List.splitOnP_append_cons _ _ hb, List.splitOnP_eq_singleton hline]; rfl⟩

end Bytes

/-! ## Positions -/

namespace Source

variable {s : Source} {offset line column : Nat}

/-- The lines of a document: what stands between its line feeds. -/
def lines (s : Source) : List Bytes := s.content.splitOnP Bytes.isNewLine

/-- The offset at which a line begins, behind the lines in front of it. -/
def lineBegin (s : Source) (line : Nat) : Nat := Bytes.sizeWithEnds (s.lines.take (line - 1))

/-- An offset is at a line and a column, both of which count from one: so many bytes lie between the beginning of the
line and the offset, and no line feed is among them. -/
structure IsAt (s : Source) (offset line column : Nat) : Prop where
  line_pos : 0 < line
  column_pos : 0 < column
  offset_eq : offset = s.lineBegin line + (column - 1)
  isOnLine : ∀ b ∈ s.content.slice (s.lineBegin line) offset, Bytes.isNewLine b = false

/-- The bytes before an offset end with the start of its line, and a line feed stands in front of that, if anything. -/
theorem before_eq (s : Source) (offset : Nat) : s.before offset = s.lineStart offset ∨
    ∃ above b, Bytes.isNewLine b = true ∧ s.before offset = above ++ b :: s.lineStart offset := by
  have hcut := congrArg List.reverse
    (List.takeWhile_append_dropWhile (p := (!Bytes.isNewLine ·)) (l := (s.before offset).reverse))
  rw [List.reverse_append, List.reverse_reverse] at hcut
  cases habove : (s.before offset).reverse.dropWhile (!Bytes.isNewLine ·) with
  | nil =>
    rw [habove] at hcut
    exact Or.inl hcut.symm
  | cons b above =>
    have hb := List.head?_dropWhile_not (!Bytes.isNewLine ·) (s.before offset).reverse
    rw [habove] at hcut hb
    refine Or.inr ⟨above.reverse, b, by simpa using hb, ?_⟩
    rw [← hcut, List.reverse_cons, List.append_assoc]
    rfl

/-- **The lines around an offset**: the line of the offset is in two parts, and those in front of it lie before the
first part. -/
theorem lines_eq (s : Source) (offset : Nat) : ∃ above below,
    s.lines = above ++ (s.lineStart offset ++ s.lineRest offset) :: below ∧ above.length + 1 = s.line offset ∧
      Bytes.sizeWithEnds above + (s.lineStart offset).length = (s.before offset).length := by
  have hstartOnLine : ∀ b ∈ s.lineStart offset, Bytes.isNewLine b = false := fun _ => not_isNewLine_of_mem_lineStart
  obtain ⟨below, hbelow⟩ := Bytes.exists_splitOnP_append_eq hstartOnLine (s.content.drop offset)
  have hstart : (s.lineStart offset).countP Bytes.isNewLine = 0 :=
    List.countP_eq_zero.2 fun b hb => by simp [hstartOnLine b hb]
  have hcontent : s.content = s.before offset ++ s.content.drop offset := (List.take_append_drop offset s.content).symm
  -- On the first line nothing is above; on any other one, a line feed divides what is above from the line.
  rcases s.before_eq offset with hbefore | ⟨above, b, hb, hbefore⟩
  · refine ⟨[], below, ?_, ?_, ?_⟩
    · rw [lines, hcontent, hbefore, hbelow]
      rfl
    · rw [line, hbefore, hstart]
      rfl
    · rw [hbefore, Bytes.sizeWithEnds, Nat.zero_add]
  · refine ⟨above.splitOnP Bytes.isNewLine, below, ?_, ?_, ?_⟩
    · rw [lines, hcontent, hbefore, List.append_assoc, List.cons_append, List.splitOnP_append_cons _ _ hb, hbelow]
      rfl
    · rw [line, hbefore, List.countP_append, List.countP_cons_of_pos hb, hstart, Bytes.length_splitOnP]
    · rw [hbefore, Bytes.sizeWithEnds_splitOnP, List.length_append, List.length_cons]
      omega

/-- A line begins where the bytes of its start begin. -/
theorem lineBegin_add_length (h : offset ≤ s.content.length) :
    s.lineBegin (s.line offset) + (s.lineStart offset).length = offset := by
  obtain ⟨above, below, hlines, hline, hsize⟩ := s.lines_eq offset
  rw [lineBegin, hlines, ← hline, Nat.add_sub_cancel, List.take_left, hsize, before, List.length_take,
    Nat.min_eq_left h]

/-- From where its line begins up to the offset stands the start of the line. -/
theorem slice_lineBegin (h : offset ≤ s.content.length) :
    s.content.slice (s.lineBegin (s.line offset)) offset = s.lineStart offset := by
  have hsuffix : s.lineStart offset <:+ s.before offset := by
    rcases s.before_eq offset with hbefore | ⟨above, b, -, hbefore⟩
    · exact hbefore ▸ List.suffix_refl _
    · exact ⟨above ++ [b], by rw [hbefore, List.append_assoc]; rfl⟩
  have hlength : (s.before offset).length = offset := by rw [before, List.length_take, Nat.min_eq_left h]
  have hbegin := lineBegin_add_length h
  have hdrop := List.suffix_iff_eq_drop.1 hsuffix
  rw [hlength, show offset - (s.lineStart offset).length = s.lineBegin (s.line offset) by omega] at hdrop
  rw [Bytes.slice, ← List.drop_take, hdrop, before]

/-- An offset is at its line and its column. -/
theorem isAt (h : offset ≤ s.content.length) : s.IsAt offset (s.line offset) (s.column offset) where
  line_pos := Nat.succ_pos _
  column_pos := Nat.succ_pos _
  offset_eq := (lineBegin_add_length h).symm
  isOnLine _ hb := not_isNewLine_of_mem_lineStart (slice_lineBegin h ▸ hb)

/-- It is at no other line and column. -/
theorem IsAt.eq (h : s.IsAt offset line column) (hoffset : offset ≤ s.content.length) :
    line = s.line offset ∧ column = s.column offset := by
  obtain ⟨hline, hcolumn, heq, hnone⟩ := h
  have hexists : line - 1 < s.lines.length := by
    by_contra hbeyond
    rw [lineBegin, List.take_of_length_le (by omega), lines, Bytes.sizeWithEnds_splitOnP] at heq
    omega
  have hbefore : s.before offset = s.before (s.lineBegin line) ++ s.content.slice (s.lineBegin line) offset := by
    rw [before, before, Bytes.slice, ← List.take_add, Nat.add_sub_cancel' (by omega)]
  -- All line feeds in front of the offset are in front of the line.
  have hsame : line = s.line offset := by
    rw [Source.line, hbefore, List.countP_append, before, lineBegin, lines, Bytes.countP_take_sizeWithEnds hexists,
      List.countP_eq_zero.2 fun b hb => by simp [hnone b hb]]
    omega
  have hbegin := lineBegin_add_length hoffset
  rw [← hsame] at hbegin
  exact ⟨hsame, by rw [Source.column]; omega⟩

/-- What comes later is further down, or further right on the same line. -/
theorem line_lt_or_column_lt {other : Nat} (hlt : offset < other) (hother : other ≤ s.content.length) :
    s.line offset < s.line other ∨ s.line offset = s.line other ∧ s.column offset < s.column other := by
  have hfront : s.before offset <+: s.before other := List.take_prefix_take_left (Nat.le_of_lt hlt)
  have hle : s.line offset ≤ s.line other := Nat.succ_le_succ (hfront.sublist.countP_le ..)
  rcases Nat.lt_or_eq_of_le hle with hline | hline
  · exact Or.inl hline
  · refine Or.inr ⟨hline, ?_⟩
    have hbegin := lineBegin_add_length (s := s) (Nat.le_trans (Nat.le_of_lt hlt) hother)
    have hbegin' := lineBegin_add_length hother
    rw [hline] at hbegin
    rw [column, column]
    omega

/-- A text is a line without one carriage return at its end. -/
def IsLineText (line text : Bytes) : Prop := line = text ++ [0x0D] ∨ line = text ∧ line.getLast? ≠ some 0x0D

theorem isLineText_dropCarriageReturn (line : Bytes) : IsLineText line (dropCarriageReturn line) := by
  rw [dropCarriageReturn]
  split
  · next hreturn =>
    obtain ⟨b, hlast, hb⟩ := Option.map_eq_some_iff.1 hreturn
    obtain rfl : b = 0x0D := by
      have hnat : b.toNat = 0x0D := congrArg Char.toNat hb
      exact UInt8.toNat.inj hnat
    exact Or.inl (List.dropLast_append_getLast? _ hlast).symm
  · next hnone =>
    refine Or.inr ⟨rfl, fun hlast => hnone ?_⟩
    rw [hlast]
    rfl

/-- The text around an offset is the line of the offset. -/
theorem exists_isLineText_lineAt (s : Source) (offset : Nat) :
    ∃ text, s.lines[s.line offset - 1]? = some text ∧ IsLineText text (s.lineAt offset) := by
  obtain ⟨above, below, hlines, hline, -⟩ := s.lines_eq offset
  refine ⟨s.lineStart offset ++ s.lineRest offset, ?_, isLineText_dropCarriageReturn _⟩
  rw [hlines, ← hline, Nat.add_sub_cancel, List.getElem?_append_right (Nat.le_refl _), Nat.sub_self]
  rfl

/-- Beyond the end, every offset is where the end is. -/
theorem before_of_le (h : s.content.length ≤ offset) : s.before offset = s.before s.content.length := by
  rw [before_of_length_le s h, before_of_length_le s (Nat.le_refl _)]

/-- **Where an offset is.**  It is at one line and one column, and a later offset is further down or further right on
the same line.  The text of its line is that line without a carriage return at the end.  Beyond the end, every offset
is where the end is. -/
theorem positions_exact (s : Source) :
    (∀ offset ≤ s.content.length, ∀ line column,
      s.IsAt offset line column ↔ line = s.line offset ∧ column = s.column offset) ∧
    (∀ offset ≤ s.content.length, ∀ other ≤ s.content.length,
      (s.line offset = s.line other → s.column offset = s.column other → offset = other) ∧
      (offset < other ↔
        s.line offset < s.line other ∨ s.line offset = s.line other ∧ s.column offset < s.column other)) ∧
    (∀ offset, ∃ text, s.lines[s.line offset - 1]? = some text ∧ IsLineText text (s.lineAt offset)) ∧
    ∀ offset, s.content.length ≤ offset → s.line offset = s.line s.content.length ∧
      s.column offset = s.column s.content.length ∧ s.lineAt offset = s.lineAt s.content.length := by
  refine ⟨fun offset hoffset line column => ⟨fun h => h.eq hoffset, ?_⟩, fun offset hoffset other hother => ?_,
    s.exists_isLineText_lineAt, fun offset hoffset => ?_⟩
  · rintro ⟨rfl, rfl⟩
    exact isAt hoffset
  · rcases Nat.lt_trichotomy offset other with hlt | rfl | hlt
    · have hlater := line_lt_or_column_lt hlt hother
      exact ⟨fun _ _ => by omega, iff_of_true hlt hlater⟩
    · exact ⟨fun _ _ => rfl, by omega⟩
    · have hlater := line_lt_or_column_lt hlt hoffset
      exact ⟨fun _ _ => by omega, by omega⟩
  · have hbefore := before_of_le hoffset
    have hrest : s.lineRest offset = s.lineRest s.content.length := by
      rw [lineRest, lineRest, List.drop_of_length_le hoffset, List.drop_of_length_le (Nat.le_refl _)]
    rw [Source.line, Source.line, Source.column, Source.column, lineAt, lineAt, lineStart, lineStart, hbefore, hrest]
    exact ⟨rfl, rfl, rfl⟩

/-- A document with an empty line, and with a carriage return at the end of its first line. -/
def threeLines : Source := .ofString "lines" "ab\x0d\n\ncd"

/-- The line feed of the first line of that document is its fourth byte, and the empty line comes next. -/
theorem positions_threeLines : 3 ≤ threeLines.content.length ∧ 4 ≤ threeLines.content.length ∧
    threeLines.IsAt 3 1 4 ∧ threeLines.IsAt 4 2 1 ∧ threeLines.lineAt 3 = Bytes.ofString "ab" ∧
    threeLines.line 3 < threeLines.line 4 := by
  have hthree : 3 ≤ threeLines.content.length := by decide
  have hfour : 4 ≤ threeLines.content.length := by decide
  obtain ⟨hat, hordered, -, -⟩ := positions_exact threeLines
  refine ⟨hthree, hfour, (hat 3 hthree 1 4).2 (by decide), (hat 4 hfour 2 1).2 (by decide), by decide, ?_⟩
  exact ((hordered 3 hthree 4 hfour).2.1 (by decide)).resolve_right (by decide)

end Source
end ExampleSchema
