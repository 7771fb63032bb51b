import ExampleSchema.Proofs.Load.Relocated
import ExampleSchema.Proofs.Scan.HashComments

/-!
# Documents with comments

A comment that is put into a document between two tokens makes no difference, but for places: not to its scan, and
not to the tree that it is loaded as.

* `IsTransparent`: what it is to make no difference.
* `isTransparent_of_isComment`: comments make none.
-/

namespace ExampleSchema

open Except Scan

/-- **Something that is put into a document makes no difference**, but for places.  The document is read to its end as
before, with events of the same kinds, and the bytes of an event are the same unless something is put inside.  It is
loaded as the same tree, or fails as before. -/
structure IsTransparent (front inserted back : Bytes) : Prop where
  succeeds : (read {} (front ++ inserted ++ back)).failure = none ↔ (read {} (front ++ back)).failure = none
  kinds : (read {} (front ++ inserted ++ back)).events.map Event.kind = (read {} (front ++ back)).events.map Event.kind
  bytes : List.Forall₂
    (fun e e' => ¬ (e.start < front.length ∧ front.length < e.stop) →
      (front ++ inserted ++ back).slice e'.start e'.stop = (front ++ back).slice e.start e.stop)
    (read {} (front ++ back)).events (read {} (front ++ inserted ++ back)).events
  load (name owner : String) : Agree (fun schema schema' => schema.unplaced = schema'.unplaced)
    (Schema.load ⟨name, front ++ back⟩ owner) (Schema.load ⟨name, front ++ inserted ++ back⟩ owner)

/-- Where the bytes of an event are looked at, it has no comment inside. -/
theorem exists_closing_of_isSpelled {kind : EventKind} (h : kind.isSpelled = true) :
    ∃ c, kind = .closing c ∧ c.holdsComments = false := by
  cases kind with
  | closing c => exact ⟨c, rfl, by cases c <;> first | rfl | cases h⟩
  | opening | newLine | endTop => cases h

variable {s : Scan.State} {place : Scan.Place} {front comment back : Bytes}

/-- What is looked at of an event is the same with the comment. -/
theorem seen_shift (hfront : State.after {} {} 0 front = .ok s) (h : s.AllowsComment place) (name : String) {e : Event}
    (he : e ∈ (read {} (front ++ back)).events) :
    (⟨⟨name, front ++ comment ++ back⟩, e.shift (.insertion front.length comment.length)⟩ : Mark).seen =
      (⟨⟨name, front ++ back⟩, e⟩ : Mark).seen := by
  refine Mark.seen_eq_iff.2 ⟨e.kind_shift _, fun hspelled => ?_⟩
  obtain ⟨hle, hempty⟩ := span_of_mem_read he
  obtain ⟨c, hkind, hc⟩ := exists_closing_of_isSpelled hspelled
  rw [Mark.kind, e.kind_shift] at hkind
  exact slice_shift hle hempty (isApart_of_mem_read hfront h he hkind hc)

/-- The events with a comment are looked at as those without it. -/
theorem agree_marks_of_isComment (hfront : State.after {} {} 0 front = .ok s) (h : s.AllowsComment place)
    (hcomment : IsComment comment back) (name : String) :
    Agree (fun marks marks' : List Mark => marks.map Mark.seen = marks'.map Mark.seen)
      (Scan.marks {} ⟨name, front ++ back⟩) (Scan.marks {} ⟨name, front ++ comment ++ back⟩) := by
  have hread := read_comment hfront h hcomment
  refine agree_iff.2 ⟨fun marks hmarks => ?_, fun marks' hmarks' => ?_⟩
  · obtain ⟨events, hevents, rfl⟩ := marks_eq_ok_iff.1 hmarks
    refine ⟨_, marks_eq_ok_iff.2 ⟨events.map (Event.shift (.insertion front.length comment.length)), ?_, rfl⟩, ?_⟩
    · rw [hread, hevents]
      rfl
    · rw [List.map_map, List.map_map, List.map_map]
      refine List.map_congr_left fun e he => (seen_shift hfront h name ?_).symm
      rwa [hevents]
  · obtain ⟨events', hevents', -⟩ := marks_eq_ok_iff.1 hmarks'
    rw [hread] at hevents'
    have hfailure : (read {} (front ++ back)).failure = none :=
      Option.map_eq_none_iff.1 (congrArg Reading.failure hevents')
    exact ⟨_, marks_eq_ok_iff.2 ⟨_, by rw [← hfailure], rfl⟩⟩

/-- **A comment between two tokens makes no difference.** -/
theorem isTransparent_of_isComment (hfront : State.after {} {} 0 front = .ok s) (h : s.AllowsComment place)
    (hcomment : IsComment comment back) : IsTransparent front comment back := by
  have hread := read_comment hfront h hcomment
  refine ⟨?_, ?_, ?_, fun name owner => Schema.agree_load owner (agree_marks_of_isComment hfront h hcomment name)⟩
  · rw [hread]
    exact Option.map_eq_none_iff
  · rw [hread, Reading.inserted, List.map_map]
    exact List.map_congr_left fun e _ => e.kind_shift _
  · rw [hread, Reading.inserted, List.forall₂_map_right_iff, List.forall₂_same]
    intro e he houtside
    obtain ⟨hle, hempty⟩ := span_of_mem_read he
    exact slice_shift hle hempty (by omega)

/-- Comments before an item of an array, of both forms. -/
theorem isTransparent_before_item :
    IsTransparent (Bytes.ofString "[1,") (Bytes.ofString "### a ###") (Bytes.ofString " 2]") ∧
      IsTransparent (Bytes.ofString "[1,") (Bytes.ofString "# a") (Bytes.ofString "\n2]") := by
  obtain ⟨s, hfront, hmode, hnote⟩ : ∃ s, State.after {} {} 0 (Bytes.ofString "[1,") = .ok s ∧
      s.mode = .between .arrayItem ∧ s.note? = none := ⟨_, rfl, rfl, rfl⟩
  have hallows : s.AllowsComment .arrayItem := ⟨hmode, rfl, hnote⟩
  have hblock : IsComment (hashes ++ Bytes.ofString " a " ++ hashes) (Bytes.ofString " 2]") := by
    refine .block ?_ ?_ ?_ ?_ ?_ <;> decide +kernel
  have hline : IsComment (hash :: Bytes.ofString " a") (Bytes.ofString "\n2]") := by
    refine .line ?_ ?_ ?_ <;> decide +kernel
  exact ⟨isTransparent_of_isComment hfront hallows hblock, isTransparent_of_isComment hfront hallows hline⟩

end ExampleSchema
