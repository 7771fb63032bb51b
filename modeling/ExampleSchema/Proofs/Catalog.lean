import ExampleSchema.Catalog
import ExampleSchema.Proofs.Outcome
import Mathlib.Data.List.Basic
import Mathlib.Data.List.Induction
import Mathlib.Data.List.Nodup

/-!
# Gathering entries

A list of entries in which a name may come more than once becomes a catalog by inserting them one after
another.  What comes out is known without the insertions: every name stands where it first came, and has
what came with it last.

* `insertAll`, `gather`: the catalog by insertion, and read off the entries.
* `insertAll_nil_eq`: they agree.
* `gather_map`: gathering does not look at what is listed.
* `find?_append`, `find?_insertAll`, `find?_foldl_insertNew`: what is found under a name.
* `keys_eq_of_mapM_eq_ok`, `exists_find?_of_mapM_eq_ok`: changing everything that is listed.
-/

namespace ExampleSchema
namespace Catalog

variable {α β : Type}

/-- Lists some entries one after another. -/
def insertAll (entries more : List (String × α)) : List (String × α) :=
  more.foldl (fun entries entry => insert entries entry.1 entry.2) entries

/-- The entries with one name made one: it stands where the name first came, and has what came last. -/
def gather (entries : List (String × α)) : List (String × α) :=
  (keys entries).eraseDups.filterMap fun name =>
    (find? entries.reverse name).map fun last => (name, last)

/-! ## Catalogs and their names -/

/-- A name that is not listed has nothing. -/
theorem find?_eq_none_iff {entries : List (String × α)} {name : String} :
    find? entries name = none ↔ name ∉ keys entries := by
  induction entries with
  | nil => simp [keys]
  | cons e rest ih =>
    obtain ⟨key, old⟩ := e
    rw [find?_cons, keys, List.map_cons, List.mem_cons, not_or]
    by_cases h : name = key
    · simp [h]
    · simp only [beq_iff_eq, h, if_false, not_false_eq_true, true_and]
      exact ih

theorem contains_eq_true_iff {entries : List (String × α)} {name : String} :
    contains entries name = true ↔ name ∈ keys entries := by
  rw [contains, Option.isSome_iff_ne_none, Ne, find?_eq_none_iff, not_not]

theorem not_contains_eq_true_iff {entries : List (String × α)} {name : String} :
    (!contains entries name) = true ↔ name ∉ keys entries := by
  rw [Bool.not_eq_true', ← Bool.not_eq_true, contains_eq_true_iff]

theorem nodup_keys_concat_iff {entries : List (String × α)} {name : String} {value : α} (h : (keys entries).Nodup) :
    (keys (entries ++ [(name, value)])).Nodup ↔ name ∉ keys entries := by
  have hkeys : keys (entries ++ [(name, value)]) = (keys entries).concat name := by
    simp [keys]
  rw [hkeys, List.nodup_concat, and_iff_left h]

/-- What is found is listed. -/
theorem mem_of_find?_eq_some {entries : List (String × α)} {name : String} {value : α}
    (h : find? entries name = some value) : (name, value) ∈ entries := by
  induction entries with
  | nil => cases h
  | cons e rest ih =>
    obtain ⟨key, old⟩ := e
    rw [find?_cons] at h
    split at h
    · next hkey =>
      obtain rfl := Option.some.inj h
      rw [eq_of_beq hkey]
      exact List.mem_cons_self ..
    · exact List.mem_cons_of_mem _ (ih h)

/-- What is the only thing under a name is found. -/
theorem find?_eq_some_of_unique {entries : List (String × α)} {name : String} {value : α}
    (h : (name, value) ∈ entries) (hunique : ∀ other, (name, other) ∈ entries → other = value) :
    find? entries name = some value := by
  cases hfind : find? entries name with
  | none => exact (find?_eq_none_iff.1 hfind (List.mem_map_of_mem h)).elim
  | some other => rw [hunique other (mem_of_find?_eq_some hfind)]

/-- Where no name is listed twice, a name has one thing. -/
theorem eq_of_mem_of_nodup {entries : List (String × α)} (h : (keys entries).Nodup) {name : String}
    {value other : α} (hvalue : (name, value) ∈ entries) (hother : (name, other) ∈ entries) :
    other = value := by
  have heq := List.inj_on_of_nodup_map h hother hvalue rfl
  exact congrArg Prod.snd heq

/-- **Where a name has one thing, order does not matter**: the same is found in entries that are the same
but for their order. -/
theorem find?_congr_of_mem {entries others : List (String × α)} (h : ∀ e, e ∈ entries ↔ e ∈ others)
    (hunique : ∀ name value other, (name, value) ∈ entries → (name, other) ∈ entries → other = value)
    (name : String) : find? entries name = find? others name := by
  cases hfind : find? entries name with
  | none =>
    refine (find?_eq_none_iff.2 fun hname => ?_).symm
    obtain ⟨e, he, rfl⟩ := List.mem_map.1 hname
    exact find?_eq_none_iff.1 hfind (List.mem_map_of_mem ((h e).2 he))
  | some value =>
    have hvalue := mem_of_find?_eq_some hfind
    refine (find?_eq_some_of_unique ((h _).1 hvalue) fun other hother => ?_).symm
    exact hunique name value other hvalue ((h _).2 hother)

theorem find?_congr_of_perm {entries others : List (String × α)} (h : entries.Perm others)
    (hnodup : (keys entries).Nodup) (name : String) : find? entries name = find? others name :=
  find?_congr_of_mem (fun _ => h.mem_iff) (fun _ _ _ => eq_of_mem_of_nodup hnodup) name

/-- Catalogs in which the same is found are the same but for their order. -/
theorem perm_of_find?_eq {entries others : List (String × α)} (hentries : (keys entries).Nodup)
    (hothers : (keys others).Nodup) (h : ∀ name, find? entries name = find? others name) :
    entries.Perm others := by
  have hmem : ∀ (l : List (String × α)), (keys l).Nodup → ∀ e, e ∈ l ↔ find? l e.1 = some e.2 :=
    fun l hl e => ⟨fun he => find?_eq_some_of_unique he fun _ => eq_of_mem_of_nodup hl he,
      mem_of_find?_eq_some⟩
  refine (List.perm_ext_iff_of_nodup hentries.of_map hothers.of_map).2 fun e => ?_
  rw [hmem entries hentries, hmem others hothers, h]

/-- Entries that are related one by one have related things under a name. -/
theorem find?_rel {R : α → β → Prop} {entries : List (String × α)} {others : List (String × β)}
    (h : List.Forall₂ (fun e e' => e.1 = e'.1 ∧ R e.2 e'.2) entries others) (name : String) :
    Option.Rel R (find? entries name) (find? others name) := by
  induction h with
  | nil => exact .none
  | cons hentry _ ih =>
    obtain ⟨hkey, hvalue⟩ := hentry
    rw [find?_cons, find?_cons, hkey]
    split
    · exact .some hvalue
    · exact ih

/-- Inserting related things under one name. -/
theorem insert_rel {R : α → β → Prop} {entries : List (String × α)} {others : List (String × β)}
    (h : List.Forall₂ (fun e e' => e.1 = e'.1 ∧ R e.2 e'.2) entries others) (name : String) {value : α}
    {other : β} (hvalue : R value other) :
    List.Forall₂ (fun e e' => e.1 = e'.1 ∧ R e.2 e'.2) (insert entries name value) (insert others name other) := by
  induction h with
  | nil => exact .cons ⟨rfl, hvalue⟩ .nil
  | cons hentry hrest ih =>
    rw [insert, insert, hentry.1]
    split
    · exact .cons ⟨rfl, hvalue⟩ hrest
    · exact .cons ⟨rfl, hentry.2⟩ ih

theorem insertNew_rel {R : α → β → Prop} {entries : List (String × α)} {others : List (String × β)}
    (h : List.Forall₂ (fun e e' => e.1 = e'.1 ∧ R e.2 e'.2) entries others) (name : String) {value : α}
    {other : β} (hvalue : R value other) :
    List.Forall₂ (fun e e' => e.1 = e'.1 ∧ R e.2 e'.2) (insertNew entries name value)
      (insertNew others name other) := by
  have hfound := find?_rel h name
  rw [insertNew, insertNew, contains, contains]
  cases hleft : find? entries name <;> cases hright : find? others name <;> rw [hleft, hright] at hfound <;>
    cases hfound
  · exact List.rel_append h (.cons ⟨rfl, hvalue⟩ .nil)
  · exact h

/-- What comes first under a name counts. -/
theorem find?_append (entries more : List (String × α)) (name : String) :
    find? (entries ++ more) name = (find? entries name).or (find? more name) := by
  induction entries with
  | nil => rfl
  | cons e rest ih =>
    obtain ⟨key, old⟩ := e
    rw [List.cons_append, find?_cons, find?_cons, ih]
    split <;> rfl

/-- A catalog that has every name once is its names with what they have. -/
theorem filterMap_keys_eq {entries : List (String × α)} (h : (keys entries).Nodup) :
    ((keys entries).filterMap fun name => (find? entries name).map fun value => (name, value)) =
      entries := by
  induction entries with
  | nil => rfl
  | cons e rest ih =>
    obtain ⟨key, value⟩ := e
    obtain ⟨hkey, hrest⟩ := List.nodup_cons.1 h
    have hsame : ∀ name ∈ keys rest, find? ((key, value) :: rest) name = find? rest name := by
      intro name hname
      rw [find?_cons, if_neg]
      intro hname'
      exact hkey (eq_of_beq hname' ▸ hname)
    rw [keys, List.map_cons, List.filterMap_cons, find?_cons, if_pos (beq_self_eq_true key)]
    change (key, value) :: _ = _
    rw [List.cons.injEq]
    refine ⟨rfl, (List.filterMap_congr fun name hname => ?_).trans (ih hrest)⟩
    rw [hsame name hname]

/-! ## Insertions -/

/-- A new name comes last. -/
theorem insert_of_notMem {entries : List (String × α)} {name : String} {value : α}
    (h : name ∉ keys entries) : insert entries name value = entries ++ [(name, value)] := by
  induction entries with
  | nil => rfl
  | cons e rest ih =>
    obtain ⟨key, old⟩ := e
    rw [keys, List.map_cons, List.mem_cons, not_or] at h
    rw [insert, if_neg (by simpa using h.1), ih h.2, List.cons_append]

theorem mem_or_eq_of_mem_insert {entries : List (String × α)} {name : String} {value : α}
    {e : String × α} (h : e ∈ insert entries name value) : e ∈ entries ∨ e = (name, value) := by
  induction entries with
  | nil => exact Or.inr (List.mem_singleton.1 h)
  | cons first rest ih =>
    rw [insert] at h
    split at h
    · next hname =>
      rw [← eq_of_beq hname] at h
      exact (List.mem_cons.1 h).symm.imp_left (List.mem_cons_of_mem _)
    · rcases List.mem_cons.1 h with rfl | h
      · exact Or.inl (List.mem_cons_self ..)
      · exact (ih h).imp_left (List.mem_cons_of_mem _)

theorem mem_or_eq_of_mem_insertNew {entries : List (String × α)} {name : String} {value : α}
    {e : String × α} (h : e ∈ insertNew entries name value) : e ∈ entries ∨ e = (name, value) := by
  rw [insertNew] at h
  split at h
  · exact Or.inl h
  · exact (List.mem_append.1 h).imp_right List.mem_singleton.1

theorem insertAll_append_singleton (entries more : List (String × α)) (name : String) (value : α) :
    insertAll entries (more ++ [(name, value)]) = insert (insertAll entries more) name value := by
  rw [insertAll, List.foldl_append]
  rfl

/-- What insertions list was there or is one of them. -/
theorem mem_or_mem_of_mem_insertAll {entries more : List (String × α)} {e : String × α}
    (h : e ∈ insertAll entries more) : e ∈ entries ∨ e ∈ more := by
  induction more using List.reverseRecOn with
  | nil => exact Or.inl h
  | append_singleton more last ih =>
    rw [insertAll_append_singleton] at h
    rcases mem_or_eq_of_mem_insert h with h | rfl
    · exact (ih h).imp_right (List.mem_append_left _)
    · exact Or.inr (List.mem_append_right _ (List.mem_singleton.2 rfl))

theorem mem_or_mem_of_mem_foldl_insertNew {entries more : List (String × α)} {e : String × α}
    (h : e ∈ more.foldl (fun entries e => insertNew entries e.1 e.2) entries) : e ∈ entries ∨ e ∈ more := by
  induction more generalizing entries with
  | nil => exact Or.inl h
  | cons first more ih =>
    rcases ih h with h | h
    · rcases mem_or_eq_of_mem_insertNew h with h | rfl
      · exact Or.inl h
      · exact Or.inr (List.mem_cons_self ..)
    · exact Or.inr (List.mem_cons_of_mem _ h)

theorem nodup_keys_nil : (keys ([] : List (String × α))).Nodup := List.nodup_nil

/-- Insertions never list a name twice. -/
theorem nodup_keys_insert {entries : List (String × α)} {name : String} {value : α}
    (h : (keys entries).Nodup) : (keys (insert entries name value)).Nodup := by
  rw [keys_insert]
  split
  · exact h
  · next hname =>
    refine List.nodup_append.2 ⟨h, by simp, ?_⟩
    intro a ha b hb hab
    obtain rfl := List.mem_singleton.1 hb
    exact hname (hab ▸ ha)

theorem nodup_keys_insertAll {entries : List (String × α)} (h : (keys entries).Nodup)
    (more : List (String × α)) : (keys (insertAll entries more)).Nodup := by
  induction more using List.reverseRecOn with
  | nil => exact h
  | append_singleton more e ih =>
    rw [insertAll_append_singleton]
    exact nodup_keys_insert ih

/-- What is listed only where a name is new never comes twice either. -/
theorem nodup_keys_foldl_insertNew {entries : List (String × α)} (h : (keys entries).Nodup)
    (more : List (String × α)) :
    (keys (more.foldl (fun entries e => insertNew entries e.1 e.2) entries)).Nodup := by
  refine List.foldlRecOn (motive := fun entries => (keys entries).Nodup) _ _ h fun entries h e _ => ?_
  rw [insertNew]
  split
  · exact h
  · next hnew =>
    have hname : e.1 ∉ keys entries := find?_eq_none_iff.1 (by simpa [contains] using hnew)
    have hinsert : insert entries e.1 e.2 = entries ++ [(e.1, e.2)] := insert_of_notMem hname
    rw [← hinsert]
    exact nodup_keys_insert h

/-- Insertions list every name where it first came. -/
theorem keys_insertAll (entries : List (String × α)) :
    keys (insertAll [] entries) = (keys entries).eraseDups := by
  induction entries using List.reverseRecOn with
  | nil => rfl
  | append_singleton entries e ih =>
    have hkeys : keys (entries ++ [e]) = keys entries ++ [e.1] := by simp [keys]
    rw [insertAll_append_singleton, keys_insert, ih, hkeys, List.eraseDups_append]
    by_cases h : e.1 ∈ keys entries
    · rw [if_pos (List.mem_eraseDups.2 h)]
      simp [List.removeAll, h]
    · rw [if_neg (fun hmem => h (List.mem_eraseDups.1 hmem))]
      simp [List.removeAll, h, List.eraseDups_cons]

/-- Insertions list under every name what came with it last, or what it had. -/
theorem find?_insertAll (entries more : List (String × α)) (name : String) :
    find? (insertAll entries more) name = (find? more.reverse name).or (find? entries name) := by
  induction more using List.reverseRecOn with
  | nil => rfl
  | append_singleton more e ih =>
    rw [insertAll_append_singleton, find?_insert, ih, List.reverse_append, List.reverse_singleton,
      List.singleton_append, find?_cons]
    split <;> rfl

/-- What is listed only where a name is new does not replace anything. -/
theorem find?_foldl_insertNew (entries more : List (String × α)) (name : String) :
    find? (more.foldl (fun entries e => insertNew entries e.1 e.2) entries) name =
      (find? entries name).or (find? more name) := by
  induction more generalizing entries with
  | nil => simp
  | cons e rest ih =>
    rw [List.foldl_cons, ih, insertNew, find?_cons]
    split
    · next hcontains =>
      obtain ⟨old, hold⟩ := Option.isSome_iff_exists.1 hcontains
      split
      · next hname => simp [eq_of_beq hname, hold]
      · rfl
    · rw [find?_append, find?_cons, find?_nil, Option.or_assoc]
      split <;> rfl

/-- **Inserting entries one after another gathers them.** -/
theorem insertAll_nil_eq (entries : List (String × α)) : insertAll [] entries = gather entries := by
  rw [← filterMap_keys_eq (nodup_keys_insertAll nodup_keys_nil entries), keys_insertAll, gather]
  refine List.filterMap_congr fun name _ => ?_
  rw [find?_insertAll, find?_nil, Option.or_none]

/-- What came last under a name is found. -/
theorem find?_gather (entries : List (String × α)) (name : String) :
    find? (gather entries) name = find? entries.reverse name := by
  rw [← insertAll_nil_eq, find?_insertAll, find?_nil, Option.or_none]

/-- Gathering never lists a name twice. -/
theorem nodup_keys_gather (entries : List (String × α)) : (keys (gather entries)).Nodup := by
  rw [← insertAll_nil_eq]
  exact nodup_keys_insertAll nodup_keys_nil entries

/-- Where no name comes twice, there is nothing to gather. -/
theorem gather_eq_self {entries : List (String × α)} (h : (keys entries).Nodup) :
    gather entries = entries := by
  rw [← insertAll_nil_eq]
  induction entries using List.reverseRecOn with
  | nil => rfl
  | append_singleton entries e ih =>
    obtain ⟨hentries, -, hlast⟩ := List.nodup_append.1 (by simpa [keys] using h :
      (keys entries ++ [e.1]).Nodup)
    rw [insertAll_append_singleton, ih hentries, insert_of_notMem]
    exact fun hname => hlast e.1 hname e.1 (by simp) rfl

/-! ## Changing what is listed -/

theorem find?_map (f : α → β) (entries : List (String × α)) (name : String) :
    find? (entries.map fun e => (e.1, f e.2)) name = (find? entries name).map f := by
  induction entries with
  | nil => rfl
  | cons e rest ih =>
    rw [List.map_cons, find?_cons, find?_cons, ih]
    split <;> rfl

/-- Changing everything that is listed, where each change may fail, keeps the names. -/
theorem keys_eq_of_mapM_eq_ok {ε : Type} {f : α → Except ε β} {entries : List (String × α)}
    {changed : List (String × β)}
    (h : (entries.mapM fun e => do return (e.1, ← f e.2)) = .ok changed) :
    keys changed = keys entries := by
  induction entries generalizing changed with
  | nil =>
    obtain rfl := Except.ok.inj h
    rfl
  | cons e rest ih =>
    rw [List.mapM_cons] at h
    obtain ⟨first, hfirst, h⟩ := Except.bind_eq_ok_iff.1 h
    obtain ⟨others, hothers, h⟩ := Except.bind_eq_ok_iff.1 h
    obtain ⟨value, -, hfirst⟩ := Except.bind_eq_ok_iff.1 hfirst
    obtain rfl := Except.ok.inj hfirst
    obtain rfl := Except.ok.inj h
    exact congrArg (e.1 :: ·) (ih hothers)

/-- Changing everything that is listed, where each change may fail, changes what is found. -/
theorem exists_find?_of_mapM_eq_ok {ε : Type} {f : α → Except ε β} {entries : List (String × α)}
    {changed : List (String × β)}
    (h : (entries.mapM fun e => do return (e.1, ← f e.2)) = .ok changed) {name : String} {value : α}
    (hvalue : find? entries name = some value) :
    ∃ new, f value = .ok new ∧ find? changed name = some new := by
  induction entries generalizing changed with
  | nil => cases hvalue
  | cons e rest ih =>
    rw [List.mapM_cons] at h
    obtain ⟨first, hfirst, h⟩ := Except.bind_eq_ok_iff.1 h
    obtain ⟨others, hothers, h⟩ := Except.bind_eq_ok_iff.1 h
    obtain ⟨new, hnew, hfirst⟩ := Except.bind_eq_ok_iff.1 hfirst
    obtain rfl := Except.ok.inj hfirst
    obtain rfl := Except.ok.inj h
    rw [find?_cons] at hvalue ⊢
    split at hvalue
    · next hname =>
      obtain rfl := Option.some.inj hvalue
      exact ⟨new, hnew, by rw [if_pos hname]⟩
    · next hname =>
      obtain ⟨new', hnew', hfind⟩ := ih hothers hvalue
      exact ⟨new', hnew', by rw [if_neg hname, hfind]⟩

/-- Gathering adds nothing. -/
theorem mem_of_mem_gather {entries : List (String × α)} {e : String × α} (h : e ∈ gather entries) :
    e ∈ entries := by
  obtain ⟨name, -, hlast⟩ := List.mem_filterMap.1 h
  obtain ⟨last, hfind, rfl⟩ := Option.map_eq_some_iff.1 hlast
  exact List.mem_reverse.1 (mem_of_find?_eq_some hfind)

/-- **Gathering does not look at what is listed.** -/
theorem gather_map (f : α → β) (entries : List (String × α)) :
    gather (entries.map fun e => (e.1, f e.2)) = (gather entries).map fun e => (e.1, f e.2) := by
  have hkeys : keys (entries.map fun e => (e.1, f e.2)) = keys entries := by
    simp [keys]
  rw [gather, gather, hkeys, List.map_filterMap]
  refine List.filterMap_congr fun name _ => ?_
  rw [← List.map_reverse, find?_map, Option.map_map, Option.map_map]
  rfl

end Catalog
end ExampleSchema
