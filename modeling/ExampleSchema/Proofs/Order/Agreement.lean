import ExampleSchema.Proofs.Accept.Resemblance

/-!
# Computations that agree

Two computations agree when both of them succeed, with related results, or both of them fail.  Which error they
fail with is not looked at: the first problem that is met depends on the order in which things are looked at.

* `Except.Agree`: agreement, with a lemma for each way to put computations together.
* `Except.AgreeVia`: agreement, where the second result is an image of the first.
* `Except.agree_mapM_of_perm`: one step for each entry of a list, in another order.
* `IsRearranged`: two lists have related entries in another order, except for some of the entries, which keep
  their order.
* `IsRearranged.agree_mapM`: one step for each entry of such lists.
-/

namespace Except

variable {ε ε' α β γ δ : Type}

/-! ## Agreement -/

/-- Both computations succeed, with related results, or both fail. -/
def Agree (R : α → β → Prop) (x : Except ε α) (y : Except ε' β) : Prop :=
  match x, y with
  | .ok a, .ok b => R a b
  | .error _, .error _ => True
  | _, _ => False

variable {R : α → β → Prop} {S : γ → δ → Prop} {x : Except ε α} {y : Except ε' β}

@[simp] theorem agree_ok {a : α} {b : β} : Agree R (.ok a : Except ε α) (.ok b : Except ε' β) ↔ R a b := Iff.rfl

@[simp] theorem agree_error {e : ε} {e' : ε'} :
    Agree R (.error e : Except ε α) (.error e' : Except ε' β) ↔ True := Iff.rfl

theorem Agree.exists_ok_iff (h : Agree R x y) : (∃ a, x = .ok a) ↔ ∃ b, y = .ok b := by
  cases x <;> cases y <;> simp_all [Agree]

/-- Where both succeed, their results are related. -/
theorem Agree.of_ok (h : Agree R x y) {a : α} {b : β} (hx : x = .ok a) (hy : y = .ok b) : R a b := by
  rw [hx, hy] at h
  exact h

/-- What the first gives, the second gives as well. -/
theorem Agree.exists_of_ok (h : Agree R x y) {a : α} (hx : x = .ok a) : ∃ b, y = .ok b ∧ R a b := by
  obtain ⟨b, hb⟩ := h.exists_ok_iff.1 ⟨a, hx⟩
  exact ⟨b, hb, h.of_ok hx hb⟩

/-- Where results have to be equal, both give the same. -/
theorem Agree.eq_ok_iff {x : Except ε α} {y : Except ε' α} (h : Agree Eq x y) (a : α) : x = .ok a ↔ y = .ok a := by
  cases x <;> cases y <;> simp_all [Agree]

/-- Agreement is told by what either of the two gives. -/
theorem agree_iff : Agree R x y ↔ (∀ a, x = .ok a → ∃ b, y = .ok b ∧ R a b) ∧ ∀ b, y = .ok b → ∃ a, x = .ok a := by
  constructor
  · exact fun h => ⟨fun a => h.exists_of_ok, fun b hy => h.exists_ok_iff.2 ⟨b, hy⟩⟩
  · rintro ⟨hleft, hright⟩
    cases x with
    | ok a =>
      obtain ⟨b, rfl, hab⟩ := hleft a rfl
      exact hab
    | error e =>
      cases y with
      | ok b =>
        obtain ⟨a, ha⟩ := hright b rfl
        cases ha
      | error e' => trivial

theorem Agree.mono {R' : α → β → Prop} (h : Agree R x y) (hle : ∀ a b, R a b → R' a b) : Agree R' x y := by
  cases x <;> cases y <;> first | exact hle _ _ h | exact h

/-- Computations agree with what agrees with the same. -/
theorem Agree.trans {ε'' : Type} {z : Except ε'' γ} {S : β → γ → Prop} {T : α → γ → Prop} (h : Agree R x y)
    (h' : Agree S y z) (hT : ∀ a b c, R a b → S b c → T a c) : Agree T x z := by
  cases x <;> cases y <;> cases z <;> first | exact hT _ _ _ h h' | exact h | exact h' | trivial

theorem Agree.swap (h : Agree R x y) : Agree (fun b a => R a b) y x := by
  cases x <;> cases y <;> exact h

theorem Agree.bind {f : α → Except ε γ} {g : β → Except ε' δ} (h : Agree R x y)
    (hfg : ∀ a b, R a b → Agree S (f a) (g b)) : Agree S (x >>= f) (y >>= g) := by
  cases x with
  | ok a =>
    cases y with
    | ok b => exact hfg a b h
    | error e' => exact False.elim h
  | error e =>
    cases y with
    | ok b => exact False.elim h
    | error e' => trivial

theorem Agree.map {f : α → γ} {g : β → δ} (h : Agree R x y) (hfg : ∀ a b, R a b → S (f a) (g b)) :
    Agree S (f <$> x) (g <$> y) := by
  cases x <;> cases y <;> first | exact hfg _ _ h | exact h

/-- Changing an error is no difference. -/
theorem Agree.mapError {ε₁ ε₁' : Type} {f : ε → ε₁} {g : ε' → ε₁'} (h : Agree R x y) :
    Agree R (x.mapError f) (y.mapError g) := by
  cases x <;> cases y <;> exact h

/-- A computation agrees with itself. -/
theorem agree_refl (x : Except ε α) : Agree Eq x x := by
  cases x <;> trivial

theorem agree_unit_iff {x : Except ε Unit} {y : Except ε' Unit} :
    Agree (fun _ _ => True) x y ↔ (x = .ok () ↔ y = .ok ()) := by
  cases x <;> cases y <;> simp [Agree]

/-! ## Images -/

/-- The second computation gives an image of what the first gives, or both fail. -/
abbrev AgreeVia (F : α → β) (x : Except ε α) (y : Except ε' β) : Prop := Agree (fun a b => b = F a) x y

theorem AgreeVia.bind {F : α → β} {G : γ → δ} {f : α → Except ε γ} {g : β → Except ε' δ} (h : AgreeVia F x y)
    (hfg : ∀ a, x = .ok a → AgreeVia G (f a) (g (F a))) : AgreeVia G (x >>= f) (y >>= g) := by
  cases x with
  | ok a =>
    cases y with
    | ok b =>
      obtain rfl : b = F a := h
      exact hfg a rfl
    | error e' => exact False.elim h
  | error e =>
    cases y with
    | ok b => exact False.elim h
    | error e' => trivial

/-- What comes to the same image is the same but for that. -/
theorem AgreeVia.agree {ε'' : Type} {F : α → γ} {G : β → γ} {z z' : Except ε'' γ} (h : AgreeVia F x z)
    (h' : AgreeVia G y z') (hz : z = z') : Agree (fun a b => F a = G b) x y :=
  h.trans (hz ▸ h').swap fun _ _ _ hleft hright => hleft.symm.trans hright

/-! ## Lists -/

/-- A fold over related entries keeps what related steps keep. -/
theorem Agree.foldlM {T : α → β → Prop} {f : α → γ → Except ε α} {g : β → δ → Except ε' β} {xs : List γ}
    {ys : List δ} (h : List.Forall₂ S xs ys) {a : α} {b : β} (hab : T a b)
    (hfg : ∀ a b c d, T a b → S c d → Agree T (f a c) (g b d)) : Agree T (xs.foldlM f a) (ys.foldlM g b) := by
  induction h generalizing a b with
  | nil => exact hab
  | cons hcd _ ih =>
    rw [List.foldlM_cons, List.foldlM_cons]
    exact (hfg _ _ _ _ hab hcd).bind fun _ _ => ih

/-- One step for each of some related entries. -/
theorem Agree.mapM {f : α → Except ε γ} {g : β → Except ε' δ} {xs : List α} {ys : List β}
    (h : List.Forall₂ R xs ys) (hfg : ∀ a b, R a b → Agree S (f a) (g b)) :
    Agree (List.Forall₂ S) (xs.mapM f) (ys.mapM g) := by
  induction h with
  | nil => exact .nil
  | cons hab _ ih =>
    rw [List.mapM_cons, List.mapM_cons]
    refine (hfg _ _ hab).bind fun c d hcd => ih.bind fun cs ds hrest => ?_
    exact List.Forall₂.cons hcd hrest

/-- Steps that agree, for each entry of one list. -/
theorem agree_mapM_congr {f : α → Except ε γ} {g : α → Except ε' γ} (h : ∀ a, Agree Eq (f a) (g a)) (xs : List α) :
    Agree Eq (xs.mapM f) (xs.mapM g) := by
  have hall : Agree (List.Forall₂ Eq) (xs.mapM f) (xs.mapM g) :=
    Agree.mapM (List.forall₂_same.2 fun _ _ => rfl) fun a _ hsame => hsame ▸ h a
  exact hall.mono fun _ _ hsame => by rwa [List.forall₂_eq_eq_eq] at hsame

/-- One step for each entry, in another order. -/
theorem agree_mapM_of_perm {f : α → Except ε γ} {xs ys : List α} (h : xs.Perm ys) :
    Agree List.Perm (xs.mapM f) (ys.mapM f) := by
  refine agree_iff.2 ⟨fun cs => exists_mapM_of_perm h, fun ds hds => ?_⟩
  obtain ⟨cs, hcs, -⟩ := exists_mapM_of_perm h.symm hds
  exact ⟨cs, hcs⟩

/-- One step for each entry, and then some of the results, is the same for some of the entries. -/
theorem mapM_filter {f : α → Except ε γ} {p : α → Bool} {q : γ → Bool} {xs : List α} {cs : List γ}
    (h : xs.mapM f = .ok cs) (hpq : ∀ a c, f a = .ok c → q c = p a) :
    (xs.filter p).mapM f = .ok (cs.filter q) := by
  induction xs generalizing cs with
  | nil =>
    obtain rfl := Except.ok.inj h
    rfl
  | cons a xs ih =>
    rw [List.mapM_cons] at h
    obtain ⟨c, hc, h⟩ := bind_eq_ok_iff.1 h
    obtain ⟨rest, hrest, h⟩ := bind_eq_ok_iff.1 h
    obtain rfl := Except.ok.inj h
    rw [List.filter_cons, List.filter_cons, hpq a c hc]
    split
    · rw [List.mapM_cons, hc, ih hrest]
      rfl
    · exact ih hrest

end Except

namespace ExampleSchema

open Except

/-! ## Rearranged lists -/

variable {ε ε' α β γ δ : Type} {keeps : α → Bool} {R : α → β → Prop} {xs xs' : List α} {ys ys' : List β}

/-- The entries of one list are related to those of another, in another order; but some of the entries keep
their order among each other. -/
def IsRearranged (keeps : α → Bool) (R : α → β → Prop) (xs : List α) (ys : List β) : Prop :=
  ∃ middle, xs.Perm middle ∧ xs.filter keeps = middle.filter keeps ∧ List.Forall₂ R middle ys

namespace IsRearranged

/-- Entries that are related one by one are in the same order. -/
theorem of_forall₂ (h : List.Forall₂ R xs ys) : IsRearranged keeps R xs ys := ⟨xs, .refl xs, rfl, h⟩

theorem length_eq (h : IsRearranged keeps R xs ys) : xs.length = ys.length := by
  obtain ⟨middle, hperm, -, hrelated⟩ := h
  exact hperm.length_eq.trans hrelated.length_eq

/-- Every entry on either side is related to one on the other. -/
theorem areMatched (h : IsRearranged keeps R xs ys) : AreMatched R xs ys := by
  obtain ⟨middle, hperm, -, hrelated⟩ := h
  obtain ⟨hleft, hright⟩ := AreMatched.of_forall₂ hrelated
  refine ⟨fun x hx => hleft x (hperm.mem_iff.1 hx), fun y hy => ?_⟩
  obtain ⟨x, hx, hxy⟩ := hright y hy
  exact ⟨x, hperm.mem_iff.2 hx, hxy⟩

theorem mono_of_mem {R' : α → β → Prop} (h : IsRearranged keeps R xs ys) (hle : ∀ x ∈ xs, ∀ y, R x y → R' x y) :
    IsRearranged keeps R' xs ys := by
  obtain ⟨middle, hperm, hkept, hrelated⟩ := h
  obtain ⟨hlength, hzip⟩ := List.forall₂_iff_zip.1 hrelated
  refine ⟨middle, hperm, hkept, List.forall₂_iff_zip.2 ⟨hlength, fun {x y} hxy => ?_⟩⟩
  exact hle x (hperm.mem_iff.2 (List.of_mem_zip hxy).1) y (hzip hxy)

theorem mono {R' : α → β → Prop} (h : IsRearranged keeps R xs ys) (hle : ∀ x y, R x y → R' x y) :
    IsRearranged keeps R' xs ys := h.mono_of_mem fun x _ => hle x

theorem append (h : IsRearranged keeps R xs ys) (h' : IsRearranged keeps R xs' ys') :
    IsRearranged keeps R (xs ++ xs') (ys ++ ys') := by
  obtain ⟨middle, hperm, hkept, hrelated⟩ := h
  obtain ⟨middle', hperm', hkept', hrelated'⟩ := h'
  refine ⟨middle ++ middle', hperm.append hperm', ?_, List.rel_append hrelated hrelated'⟩
  rw [List.filter_append, List.filter_append, hkept, hkept']

/-- Changing all entries. -/
theorem map {keeps' : γ → Bool} {S : γ → δ → Prop} {f : α → γ} {g : β → δ} (h : IsRearranged keeps R xs ys)
    (hkeeps : ∀ x, keeps' (f x) = keeps x) (hfg : ∀ x y, R x y → S (f x) (g y)) :
    IsRearranged keeps' S (xs.map f) (ys.map g) := by
  obtain ⟨middle, hperm, hkept, hrelated⟩ := h
  refine ⟨middle.map f, hperm.map f, ?_, ?_⟩
  · rw [List.filter_map, List.filter_map, show keeps' ∘ f = keeps from funext hkeeps, hkept]
  · rw [List.forall₂_map_left_iff, List.forall₂_map_right_iff]
    exact hrelated.imp hfg

/-- What keeps its order is related entry by entry. -/
theorem forall₂_filter {p : β → Bool} (h : IsRearranged keeps R xs ys) (hp : ∀ x y, R x y → keeps x = p y) :
    List.Forall₂ R (xs.filter keeps) (ys.filter p) := by
  obtain ⟨middle, -, hkept, hrelated⟩ := h
  rw [hkept]
  exact List.rel_filter (fun {x y} hxy => Bool.eq_iff_iff.1 (hp x y hxy)) hrelated

/-- Some of the entries, which are told on both sides. -/
theorem filter {p : α → Bool} {q : β → Bool} (h : IsRearranged keeps R xs ys) (hpq : ∀ x y, R x y → p x = q y) :
    IsRearranged keeps R (xs.filter p) (ys.filter q) := by
  obtain ⟨middle, hperm, hkept, hrelated⟩ := h
  refine ⟨middle.filter p, hperm.filter p, ?_,
    List.rel_filter (fun {x y} hxy => Bool.eq_iff_iff.1 (hpq x y hxy)) hrelated⟩
  rw [List.filter_comm keeps p xs, List.filter_comm keeps p middle, hkept]

/-- One step for each entry. -/
theorem agree_mapM {keeps' : γ → Bool} {S : γ → δ → Prop} {f : α → Except ε γ} {g : β → Except ε' δ}
    (h : IsRearranged keeps R xs ys) (hkeeps : ∀ x c, f x = .ok c → keeps' c = keeps x)
    (hfg : ∀ x y, R x y → Agree S (f x) (g y)) : Agree (IsRearranged keeps' S) (xs.mapM f) (ys.mapM g) := by
  obtain ⟨middle, hperm, hkept, hrelated⟩ := h
  have hsteps := Agree.mapM hrelated hfg
  refine agree_iff.2 ⟨fun cs hcs => ?_, fun ds hds => ?_⟩
  · obtain ⟨cs', hcs', hperm'⟩ := exists_mapM_of_perm hperm hcs
    obtain ⟨ds, hds, hrelated'⟩ := hsteps.exists_of_ok hcs'
    refine ⟨ds, hds, cs', hperm', ?_, hrelated'⟩
    have hleft := mapM_filter hcs hkeeps
    rw [hkept, mapM_filter hcs' hkeeps] at hleft
    exact (Except.ok.inj hleft).symm
  · obtain ⟨cs', hcs'⟩ := hsteps.exists_ok_iff.2 ⟨ds, hds⟩
    obtain ⟨cs, hcs, -⟩ := exists_mapM_of_perm hperm.symm hcs'
    exact ⟨cs, hcs⟩

end IsRearranged
end ExampleSchema
