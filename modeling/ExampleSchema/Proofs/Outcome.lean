/-!
# Computations that may fail

Most functions of the library end in a result or in an error, and are chains of such functions.  The
lemmas below take a chain apart.

* `bind_eq_ok_iff`, `bind_eq_error_iff`: a chain of two steps.
* `mapM_eq_error_iff`, `exists_mapM_eq_ok_iff`: one step for each entry of a list.  The first entry that
  fails decides.
* `mapM_cons_eq_ok_iff`, `mapM_eq_ok_of_imp`, `exists_of_mem_mapM`, `exists_mem_of_mapM`, `exists_of_mem_foldlM`: where such a computation ends well,
  what has come of each entry.
* `mapM_update_eq`: one step for a part of each entry of a list.
* `forM_eq_ok_iff_of_reached`, and `List.find?_eq_some_iff_of_reached`, `List.any_iff_of_reached` and
  `List.forall_mem_iff_of_reached` beside it: loops that stop early.  Each round has to be right only if the loop
  gets there.
* `forM_eq_error_iff`: a loop over checks fails at the first entry that fails.
* `Meets`: what a computation guarantees, of its result and of its error, with a lemma for each way to
  put computations together; `FailsOnly`, where nothing is asked of the result.
-/

/-! ## Loops that stop early -/

namespace List

variable {α : Type} {P : α → Prop} {l : List α}

/-- What is said of the entries that a loop gets to also holds of the rest of it. -/
theorem reached_tail {a : α} {Q : α → Prop} {R : α → Prop}
    (h : ∀ before b after, a :: l = before ++ b :: after → (∀ c ∈ before, Q c) → R b) (ha : Q a) :
    ∀ before b after, l = before ++ b :: after → (∀ c ∈ before, Q c) → R b := by
  intro before b after hl hbefore
  refine h (a :: before) b after (by rw [hl]; rfl) ?_
  exact List.forall_mem_cons.2 ⟨ha, hbefore⟩

/-- Two things hold of all entries alike, if they do of each that a loop gets to. -/
theorem forall_mem_iff_of_reached {Q : α → Prop}
    (h : ∀ before a after, l = before ++ a :: after → (∀ b ∈ before, P b) → (P a ↔ Q a)) :
    (∀ a ∈ l, P a) ↔ ∀ a ∈ l, Q a := by
  induction l with
  | nil => simp
  | cons a l ih =>
    have ha := h [] a l rfl nofun
    rw [List.forall_mem_cons, List.forall_mem_cons, ← ha]
    exact and_congr_right fun hP => ih (reached_tail h hP)

/-- A search finds the first entry that passes. -/
theorem find?_eq_some_iff_of_reached {f : α → Bool} {a : α}
    (h : ∀ before a after, l = before ++ a :: after → (∀ b ∈ before, ¬ P b) →
      (f a = true ↔ P a)) :
    l.find? f = some a ↔
      ∃ before after, l = before ++ a :: after ∧ P a ∧ ∀ b ∈ before, ¬ P b := by
  induction l with
  | nil => simp
  | cons b l ih =>
    have hb := h [] b l rfl nofun
    by_cases hP : P b
    · rw [find?_cons_of_pos (hb.2 hP), Option.some.injEq]
      constructor
      · rintro rfl
        exact ⟨[], l, rfl, hP, nofun⟩
      · rintro ⟨before, after, hl, -, hbefore⟩
        cases before with
        | nil => exact (List.cons.inj hl).1
        | cons c before =>
          obtain ⟨rfl, -⟩ := List.cons.inj hl
          exact (hbefore b (by simp) hP).elim
    · rw [find?_cons_of_neg (fun hf => hP (hb.1 hf)), ih (reached_tail h hP)]
      constructor
      · rintro ⟨before, after, rfl, ha, hbefore⟩
        exact ⟨b :: before, after, rfl, ha, List.forall_mem_cons.2 ⟨hP, hbefore⟩⟩
      · rintro ⟨before, after, hl, ha, hbefore⟩
        cases before with
        | nil =>
          obtain ⟨rfl, -⟩ := List.cons.inj hl
          exact (hP ha).elim
        | cons c before =>
          obtain ⟨rfl, rfl⟩ := List.cons.inj hl
          exact ⟨before, after, rfl, ha, fun d hd => hbefore d (List.mem_cons_of_mem _ hd)⟩

/-- A search finds nothing if no entry passes. -/
theorem find?_eq_none_iff_of_reached {f : α → Bool}
    (h : ∀ before a after, l = before ++ a :: after → (∀ b ∈ before, ¬ P b) →
      (f a = true ↔ P a)) :
    l.find? f = none ↔ ∀ a ∈ l, ¬ P a := by
  induction l with
  | nil => simp
  | cons b l ih =>
    have hb := h [] b l rfl nofun
    rw [List.forall_mem_cons]
    by_cases hP : P b
    · rw [find?_cons_of_pos (hb.2 hP)]
      exact ⟨nofun, fun hl => (hl.1 hP).elim⟩
    · rw [find?_cons_of_neg (fun hf => hP (hb.1 hf)), ih (reached_tail h hP)]
      exact ⟨fun hl => ⟨hP, hl⟩, fun hl => hl.2⟩

/-- Some entry passes. -/
theorem any_iff_of_reached {f : α → Bool}
    (h : ∀ before a after, l = before ++ a :: after → (∀ b ∈ before, ¬ P b) →
      (f a = true ↔ P a)) :
    l.any f = true ↔ ∃ a ∈ l, P a := by
  have hnone := find?_eq_none_iff_of_reached h
  rw [List.find?_eq_none] at hnone
  rw [List.any_eq_true]
  constructor
  · rintro ⟨a, ha, hf⟩
    refine Classical.byContradiction fun hP => ?_
    exact hnone.2 (fun b hb hPb => hP ⟨b, hb, hPb⟩) a ha hf
  · rintro ⟨a, ha, hP⟩
    refine Classical.byContradiction fun hf => ?_
    exact hnone.1 (fun b hb hfb => hf ⟨b, hb, hfb⟩) a ha hP

end List

namespace Except

variable {ε α β : Type}

/-! ## Chains -/

@[simp] theorem ok_bind (a : α) (f : α → Except ε β) : .ok a >>= f = f a := rfl

@[simp] theorem error_bind (e : ε) (f : α → Except ε β) : .error e >>= f = .error e := rfl

theorem bind_eq_ok_iff {x : Except ε α} {f : α → Except ε β} {b : β} :
    x >>= f = .ok b ↔ ∃ a, x = .ok a ∧ f a = .ok b := by
  cases x <;> simp [bind, Except.bind]

theorem bind_eq_error_iff {x : Except ε α} {f : α → Except ε β} {e : ε} :
    x >>= f = .error e ↔ x = .error e ∨ ∃ a, x = .ok a ∧ f a = .error e := by
  cases x <;> simp [bind, Except.bind]

theorem map_eq_ok_iff {x : Except ε α} {f : α → β} {b : β} : x.map f = .ok b ↔ ∃ a, x = .ok a ∧ f a = b := by
  cases x <;> simp [Except.map]

/-- A chain that starts with something else and goes on to something else. -/
theorem bind_eq_map_bind {γ δ : Type} {x : Except ε α} {y : Except ε β} {r : α → β} {f : α → Except ε γ}
    {g : β → Except ε δ} {s : γ → δ} (h : y = r <$> x) (hstep : ∀ a, x = .ok a → g (r a) = s <$> f a) :
    y >>= g = s <$> (x >>= f) := by
  subst h
  cases x with
  | error e => rfl
  | ok a => exact hstep a rfl

/-- A result that is only put into something else. -/
theorem bind_pure_eq_ok_iff {x : Except ε α} {f : α → β} {b : β} :
    (x >>= fun a => pure (f a)) = .ok b ↔ ∃ a, x = .ok a ∧ f a = b := by
  cases x <;> simp [bind, Except.bind, pure, Except.pure]

/-- A guard lets through what it does not refuse. -/
theorem guard_eq_ok_iff {p : Prop} [Decidable p] {e : ε} {x : Except ε α} {a : α} :
    (if p then .error e else x) = .ok a ↔ ¬ p ∧ x = .ok a := by
  split <;> simp_all

theorem toOption_eq_some_iff {x : Except ε α} {a : α} : x.toOption = some a ↔ x = .ok a := by
  cases x <;> simp [Except.toOption]

theorem mapError_eq_ok_iff {ε' : Type} {f : ε → ε'} {x : Except ε α} {a : α} :
    x.mapError f = .ok a ↔ x = .ok a := by
  constructor
  · intro h
    cases x with
    | ok b =>
      cases h
      rfl
    | error e => cases h
  · rintro rfl
    rfl

/-- Changing the result and changing the error do not meet. -/
theorem mapError_map {ε' : Type} (f : ε → ε') (g : α → β) (x : Except ε α) :
    (g <$> x).mapError f = g <$> x.mapError f := by
  cases x <;> rfl

theorem mapError_eq_error_iff {ε' : Type} {f : ε → ε'} {x : Except ε α} {e : ε'} :
    x.mapError f = .error e ↔ ∃ e', x = .error e' ∧ f e' = e := by
  cases x with
  | ok a => exact ⟨nofun, fun ⟨_, h, _⟩ => nomatch h⟩
  | error e' =>
    change Except.error (f e') = _ ↔ _
    simp only [Except.error.injEq, exists_eq_left']

/-- A computation over a list fails at the first entry that fails. -/
theorem mapM_eq_error_iff {f : α → Except ε β} {l : List α} {e : ε} :
    l.mapM f = .error e ↔ ∃ before x after, l = before ++ x :: after ∧
      (∀ y ∈ before, ∃ z, f y = .ok z) ∧ f x = .error e := by
  induction l with
  | nil => simp [pure, Except.pure]
  | cons a l ih =>
    rw [List.mapM_cons, bind_eq_error_iff]
    constructor
    · rintro (h | ⟨b, hb, h⟩)
      · exact ⟨[], a, l, rfl, by simp, h⟩
      · rcases bind_eq_error_iff.1 h with h | ⟨bs, -, h⟩
        · obtain ⟨before, x, after, rfl, hbefore, hx⟩ := ih.1 h
          exact ⟨a :: before, x, after, rfl, by simpa using ⟨⟨b, hb⟩, hbefore⟩, hx⟩
        · cases h
    · rintro ⟨before, x, after, hl, hbefore, hx⟩
      cases before with
      | nil =>
        obtain ⟨rfl, rfl⟩ := List.cons.inj hl
        exact Or.inl hx
      | cons y before =>
        obtain ⟨rfl, rfl⟩ := List.cons.inj hl
        obtain ⟨b, hb⟩ := hbefore a (by simp)
        have hrest := ih.2 ⟨before, x, after, rfl, fun y hy => hbefore y (by simp [hy]), hx⟩
        exact Or.inr ⟨b, hb, bind_eq_error_iff.2 (Or.inl hrest)⟩

/-- A computation over a list succeeds when every entry does. -/
theorem exists_mapM_eq_ok_iff {f : α → Except ε β} {l : List α} :
    (∃ ys, l.mapM f = .ok ys) ↔ ∀ x ∈ l, ∃ y, f x = .ok y := by
  induction l with
  | nil => simp [pure, Except.pure]
  | cons a l ih =>
    rw [List.forall_mem_cons, ← ih]
    constructor
    · rintro ⟨ys, h⟩
      rw [List.mapM_cons, bind_eq_ok_iff] at h
      obtain ⟨b, hb, h⟩ := h
      obtain ⟨bs, hbs, -⟩ := bind_eq_ok_iff.1 h
      exact ⟨⟨b, hb⟩, bs, hbs⟩
    · rintro ⟨⟨b, hb⟩, bs, hbs⟩
      refine ⟨b :: bs, ?_⟩
      rw [List.mapM_cons, hb, hbs]
      rfl

/-- What a computation over a list yields comes of its entries. -/
theorem exists_of_mem_mapM {f : α → Except ε β} {l : List α} {ys : List β} (h : l.mapM f = .ok ys)
    {y : β} (hy : y ∈ ys) : ∃ x ∈ l, f x = .ok y := by
  induction l generalizing ys with
  | nil =>
    obtain rfl := Except.ok.inj h
    cases hy
  | cons a l ih =>
    rw [List.mapM_cons] at h
    obtain ⟨b, hb, h⟩ := bind_eq_ok_iff.1 h
    obtain ⟨bs, hbs, h⟩ := bind_eq_ok_iff.1 h
    obtain rfl := Except.ok.inj h
    rcases List.mem_cons.1 hy with rfl | hy
    · exact ⟨a, by simp, hb⟩
    · obtain ⟨x, hx, hfx⟩ := ih hbs hy
      exact ⟨x, List.mem_cons_of_mem _ hx, hfx⟩

/-- A computation over a list yields something for each entry. -/
theorem exists_mem_of_mapM {f : α → Except ε β} {l : List α} {ys : List β} (h : l.mapM f = .ok ys)
    {x : α} (hx : x ∈ l) : ∃ y ∈ ys, f x = .ok y := by
  induction l generalizing ys with
  | nil => cases hx
  | cons a l ih =>
    rw [List.mapM_cons] at h
    obtain ⟨b, hb, h⟩ := bind_eq_ok_iff.1 h
    obtain ⟨bs, hbs, h⟩ := bind_eq_ok_iff.1 h
    obtain rfl := Except.ok.inj h
    rcases List.mem_cons.1 hx with rfl | hx
    · exact ⟨b, List.mem_cons_self .., hb⟩
    · obtain ⟨y, hy, hfx⟩ := ih hbs hx
      exact ⟨y, List.mem_cons_of_mem _ hy, hfx⟩

/-- A result of one step for each entry, the first entry apart. -/
theorem mapM_cons_eq_ok_iff {f : α → Except ε β} {a : α} {l : List α} {ys : List β} :
    (a :: l).mapM f = .ok ys ↔ ∃ b bs, f a = .ok b ∧ l.mapM f = .ok bs ∧ b :: bs = ys := by
  simp only [List.mapM_cons, bind_eq_ok_iff, pure, Except.pure, Except.ok.injEq]
  exact ⟨fun ⟨b, hb, bs, hbs, h⟩ => ⟨b, bs, hb, hbs, h⟩, fun ⟨b, bs, hb, hbs, h⟩ => ⟨b, hb, bs, hbs, h⟩⟩

/-- A computation over a list yields as many results as there are entries. -/
theorem length_of_mapM {f : α → Except ε β} {l : List α} {ys : List β} (h : l.mapM f = .ok ys) :
    ys.length = l.length := by
  induction l generalizing ys with
  | nil =>
    obtain rfl := Except.ok.inj h
    rfl
  | cons a l ih =>
    obtain ⟨b, bs, -, hbs, rfl⟩ := mapM_cons_eq_ok_iff.1 h
    rw [List.length_cons, List.length_cons, ih hbs]

/-- If each step still ends with what it ended with, so does the whole. -/
theorem mapM_eq_ok_of_imp {f g : α → Except ε β} {l : List α} {ys : List β}
    (h : ∀ a ∈ l, ∀ b, f a = .ok b → g a = .ok b) (hl : l.mapM f = .ok ys) : l.mapM g = .ok ys := by
  induction l generalizing ys with
  | nil => exact hl
  | cons a l ih =>
    obtain ⟨ha, hrest⟩ := List.forall_mem_cons.1 h
    obtain ⟨b, bs, hb, hbs, hys⟩ := mapM_cons_eq_ok_iff.1 hl
    exact mapM_cons_eq_ok_iff.2 ⟨b, bs, ha b hb, ih hrest hbs, hys⟩

theorem mapM_congr {f g : α → Except ε β} {l : List α} (h : ∀ a ∈ l, f a = g a) :
    l.mapM f = l.mapM g := by
  induction l with
  | nil => rfl
  | cons a l ih =>
    obtain ⟨ha, hl⟩ := List.forall_mem_cons.1 h
    rw [List.mapM_cons, List.mapM_cons, ha, ih hl]

/-- A computation over a list in another order yields the same in another order. -/
theorem exists_mapM_of_perm {f : α → Except ε β} {l others : List α} (h : l.Perm others) {ys : List β}
    (hys : l.mapM f = .ok ys) : ∃ zs, others.mapM f = .ok zs ∧ ys.Perm zs := by
  induction h generalizing ys with
  | nil => exact ⟨ys, hys, .refl ys⟩
  | @cons a l others _ ih =>
    rw [List.mapM_cons] at hys
    obtain ⟨b, hb, hys⟩ := bind_eq_ok_iff.1 hys
    obtain ⟨bs, hbs, hys⟩ := bind_eq_ok_iff.1 hys
    obtain rfl := Except.ok.inj hys
    obtain ⟨zs, hzs, hperm⟩ := ih hbs
    exact ⟨b :: zs, by rw [List.mapM_cons, hb, hzs]; rfl, hperm.cons b⟩
  | swap a a' l =>
    rw [List.mapM_cons, List.mapM_cons] at hys
    obtain ⟨b', hb', hys⟩ := bind_eq_ok_iff.1 hys
    obtain ⟨rest, hrest, hys⟩ := bind_eq_ok_iff.1 hys
    obtain ⟨b, hb, hrest⟩ := bind_eq_ok_iff.1 hrest
    obtain ⟨bs, hbs, hrest⟩ := bind_eq_ok_iff.1 hrest
    obtain rfl := Except.ok.inj hrest
    obtain rfl := Except.ok.inj hys
    exact ⟨b :: b' :: bs, by rw [List.mapM_cons, List.mapM_cons, hb, hb', hbs]; rfl, .swap b b' bs⟩
  | trans _ _ ih ih' =>
    obtain ⟨zs, hzs, hperm⟩ := ih hys
    obtain ⟨ws, hws, hperm'⟩ := ih' hzs
    exact ⟨ws, hws, hperm.trans hperm'⟩

/-- A computation that leaves each entry of a list leaves the list. -/
theorem mapM_eq_self {f : α → Except ε α} {l ys : List α} (h : l.mapM f = .ok ys)
    (hself : ∀ x ∈ l, ∀ y, f x = .ok y → y = x) : ys = l := by
  induction l generalizing ys with
  | nil => exact (Except.ok.inj h).symm
  | cons a l ih =>
    obtain ⟨ha, hl⟩ := List.forall_mem_cons.1 hself
    rw [List.mapM_cons] at h
    obtain ⟨b, hb, h⟩ := bind_eq_ok_iff.1 h
    obtain ⟨bs, hbs, h⟩ := bind_eq_ok_iff.1 h
    obtain rfl := Except.ok.inj h
    rw [ha b hb, ih hbs hl]

/-- Where all steps of a fold end well, each entry has been taken. -/
theorem exists_of_mem_foldlM {f : β → α → Except ε β} {l : List α} {a b : β}
    (h : l.foldlM f a = .ok b) {x : α} (hx : x ∈ l) : ∃ c d, f c x = .ok d := by
  induction l generalizing a with
  | nil => cases hx
  | cons y l ih =>
    rw [List.foldlM_cons] at h
    obtain ⟨c, hc, h⟩ := bind_eq_ok_iff.1 h
    rcases List.mem_cons.1 hx with rfl | hx
    · exact ⟨a, c, hc⟩
    · exact ih h hx

/-- A fold over one entry more. -/
theorem foldlM_append_singleton (f : β → α → Except ε β) (l : List α) (x : α) (b : β) :
    (l ++ [x]).foldlM f b = l.foldlM f b >>= fun c => f c x := by
  rw [List.foldlM_append]
  exact bind_congr fun c => bind_pure (f c x)

/-- A fold over other entries, from something else, whose steps go from something else to something else. -/
theorem foldlM_map_eq_map {γ δ : Type} {f : α → γ → Except ε α} {g : β → δ → Except ε β} {r : α → β} {m : γ → δ}
    (h : ∀ a c, g (r a) (m c) = r <$> f a c) (l : List γ) (a : α) :
    (l.map m).foldlM g (r a) = r <$> l.foldlM f a := by
  induction l generalizing a with
  | nil => rfl
  | cons c l ih =>
    rw [List.map_cons, List.foldlM_cons, List.foldlM_cons]
    exact bind_eq_map_bind (h a c) fun b _ => ih b

/-- Changing a part of each entry is changing the parts and putting each back into its entry. -/
theorem mapM_update_eq {γ δ : Type} (part : α → β) (put : α → γ → δ) (change : β → Except ε γ)
    (l : List α) :
    (l.mapM fun a => do return put a (← change (part a))) = (do
      return l.zipWith put (← (l.map part).mapM change)) := by
  induction l with
  | nil => rfl
  | cons a l ih =>
    rw [List.mapM_cons, ih, List.map_cons, List.mapM_cons]
    cases change (part a) with
    | error e => rfl
    | ok c => cases (l.map part).mapM change <;> rfl

/-- A loop over checks passes if all entries do. -/
theorem forM_eq_ok_iff_of_reached {P : α → Prop} {l : List α} {f : α → Except ε Unit}
    (h : ∀ before a after, l = before ++ a :: after → (∀ b ∈ before, P b) →
      (f a = .ok () ↔ P a)) :
    l.forM f = .ok () ↔ ∀ a ∈ l, P a := by
  induction l with
  | nil => exact ⟨fun _ => nofun, fun _ => rfl⟩
  | cons a l ih =>
    have ha := h [] a l rfl nofun
    change (f a >>= fun _ => l.forM f) = _ ↔ _
    rw [Except.bind_eq_ok_iff, List.forall_mem_cons, ← ha]
    constructor
    · rintro ⟨⟨⟩, hf, hl⟩
      exact ⟨hf, (ih (List.reached_tail h (ha.1 hf))).1 hl⟩
    · rintro ⟨hf, hl⟩
      exact ⟨(), hf, (ih (List.reached_tail h (ha.1 hf))).2 hl⟩

theorem forM_congr {f g : α → Except ε Unit} {l : List α} (h : ∀ a ∈ l, f a = g a) : l.forM f = l.forM g := by
  induction l with
  | nil => rfl
  | cons a l ih =>
    obtain ⟨ha, hl⟩ := List.forall_mem_cons.1 h
    simp only [List.forM_eq_forM, List.forM_cons] at ih ⊢
    rw [ha, ih hl]

/-- A loop over checks passes if each of them does. -/
theorem forM_eq_ok_iff {l : List α} {f : α → Except ε Unit} :
    l.forM f = .ok () ↔ ∀ a ∈ l, f a = .ok () :=
  forM_eq_ok_iff_of_reached fun _ _ _ _ _ => Iff.rfl

/-! ## Guarantees -/

/-- The result of a computation is good, and its error is no worse than bad. -/
def Meets (x : Except ε α) (good : α → Prop) (bad : ε → Prop) : Prop :=
  match x with
  | .ok a => good a
  | .error e => bad e

variable {x : Except ε α} {good : α → Prop} {bad : ε → Prop}

@[simp] theorem meets_ok {a : α} : Meets (.ok a : Except ε α) good bad ↔ good a := Iff.rfl

@[simp] theorem meets_error {e : ε} : Meets (.error e : Except ε α) good bad ↔ bad e := Iff.rfl

theorem Meets.of_ok (h : x.Meets good bad) {a : α} (hx : x = .ok a) : good a := by
  rw [hx] at h
  exact h

theorem Meets.of_error (h : x.Meets good bad) {e : ε} (hx : x = .error e) : bad e := by
  rw [hx] at h
  exact h

/-- A guarantee may be weakened. -/
theorem Meets.imp {good' : α → Prop} {bad' : ε → Prop} (h : x.Meets good bad)
    (hgood : ∀ a, good a → good' a) (hbad : ∀ e, bad e → bad' e) : x.Meets good' bad' := by
  cases x with
  | ok a => exact hgood a h
  | error e => exact hbad e h

/-- A chain guarantees what its second step makes of the result of the first. -/
theorem Meets.bind {good' : β → Prop} {f : α → Except ε β} (h : x.Meets good bad)
    (hf : ∀ a, good a → (f a).Meets good' bad) : (x >>= f).Meets good' bad := by
  cases x with
  | ok a => exact hf a h
  | error e => exact h

/-- Which of two computations is made does not matter if both guarantee the same. -/
theorem Meets.ite {p : Prop} [Decidable p] {y : Except ε α} (hx : x.Meets good bad)
    (hy : y.Meets good bad) : (if p then x else y).Meets good bad := by
  split
  · exact hx
  · exact hy

theorem Meets.mapError {ε' : Type} {bad' : ε' → Prop} {f : ε → ε'} (h : x.Meets good bad)
    (hf : ∀ e, bad e → bad' (f e)) : (x.mapError f).Meets good bad' := by
  cases x with
  | ok a => exact h
  | error e => exact hf e h

/-- A fold keeps what each of its steps keeps. -/
theorem Meets.foldlM {γ : Type} {f : α → γ → Except ε α} {l : List γ} {a : α} (ha : good a)
    (hf : ∀ a, good a → ∀ c ∈ l, (f a c).Meets good bad) : (l.foldlM f a).Meets good bad := by
  induction l generalizing a with
  | nil => exact ha
  | cons c l ih =>
    rw [List.foldlM_cons]
    refine Meets.bind (hf a ha c (by simp)) fun a' ha' => ?_
    exact ih ha' fun a ha c hc => hf a ha c (List.mem_cons_of_mem _ hc)

/-- A fold keeps what each of its steps keeps, and finds out of each entry what the step for it does. -/
theorem Meets.foldlM_forall {γ : Type} {f : α → γ → Except ε α} {P : γ → Prop} {l : List γ} {a : α}
    (ha : good a) (hf : ∀ a, good a → ∀ c ∈ l, (f a c).Meets (fun a' => P c ∧ good a') bad) :
    (l.foldlM f a).Meets (fun a' => (∀ c ∈ l, P c) ∧ good a') bad := by
  induction l generalizing a with
  | nil => exact ⟨nofun, ha⟩
  | cons c l ih =>
    rw [List.foldlM_cons]
    refine Meets.bind (hf a ha c (by simp)) fun a' ⟨hc, ha'⟩ => ?_
    refine (ih ha' fun a ha c hc => hf a ha c (List.mem_cons_of_mem _ hc)).imp ?_ fun _ h => h
    exact fun _ ⟨hl, hgood⟩ => ⟨List.forall_mem_cons.2 ⟨hc, hl⟩, hgood⟩

/-- A fold ends well where each step does, whatever came before it. -/
theorem exists_foldlM_eq_ok {γ : Type} {f : α → γ → Except ε α} {l : List γ}
    (h : ∀ a, ∀ c ∈ l, ∃ b, f a c = .ok b) (a : α) : ∃ b, l.foldlM f a = .ok b := by
  induction l generalizing a with
  | nil => exact ⟨a, rfl⟩
  | cons c l ih =>
    obtain ⟨b, hb⟩ := h a c (by simp)
    rw [List.foldlM_cons, hb]
    exact ih (fun a c hc => h a c (List.mem_cons_of_mem _ hc)) b

/-- Where a computation fails, its error is no worse than bad. -/
abbrev FailsOnly (x : Except ε α) (bad : ε → Prop) : Prop := x.Meets (fun _ => True) bad

/-- A fold fails as one of its steps does. -/
theorem FailsOnly.foldlM {γ : Type} {f : α → γ → Except ε α} {l : List γ} {a : α}
    (h : ∀ a, ∀ c ∈ l, (f a c).FailsOnly bad) : (l.foldlM f a).FailsOnly bad :=
  Meets.foldlM trivial fun a _ => h a

/-- A loop over checks fails as one of them does. -/
theorem FailsOnly.forM {f : α → Except ε Unit} {l : List α} (h : ∀ a ∈ l, (f a).FailsOnly bad) :
    (l.forM f).FailsOnly bad := by
  induction l with
  | nil => trivial
  | cons a l ih =>
    change (f a >>= fun _ => l.forM f).FailsOnly bad
    refine Meets.bind (h a (by simp)) fun _ _ => ?_
    exact ih fun b hb => h b (List.mem_cons_of_mem _ hb)

/-- A computation over a list guarantees of each part of its result what the steps guarantee. -/
theorem Meets.mapM {f : α → Except ε β} {good : β → Prop} {l : List α} (h : ∀ a ∈ l, (f a).Meets good bad) :
    (l.mapM f).Meets (fun bs => ∀ b ∈ bs, good b) bad := by
  induction l with
  | nil => exact fun b hb => (List.not_mem_nil hb).elim
  | cons a l ih =>
    obtain ⟨ha, hl⟩ := List.forall_mem_cons.1 h
    rw [List.mapM_cons]
    exact Meets.bind ha fun b hb => Meets.bind (ih hl) fun bs hbs => List.forall_mem_cons.2 ⟨hb, hbs⟩

/-- A computation over a list ends well where each of its steps may do so. -/
theorem Meets.mapM_forall {f : α → Except ε β} {P : α → Prop} {l : List α} (h : ∀ a ∈ l, (f a).Meets (fun _ => P a) bad) :
    (l.mapM f).Meets (fun _ => ∀ a ∈ l, P a) bad := by
  induction l with
  | nil => exact List.forall_mem_nil P
  | cons a l ih =>
    obtain ⟨ha, hl⟩ := List.forall_mem_cons.1 h
    rw [List.mapM_cons]
    exact Meets.bind ha fun b ha => Meets.bind (ih hl) fun bs hl => List.forall_mem_cons.2 ⟨ha, hl⟩

/-- A computation over a list fails as one of its steps does. -/
theorem FailsOnly.mapM {f : α → Except ε β} {l : List α} (h : ∀ a ∈ l, (f a).FailsOnly bad) :
    (l.mapM f).FailsOnly bad := (Meets.mapM h).imp (fun _ _ => trivial) fun _ => id

/-- A loop over checks fails at the first entry that fails. -/
theorem forM_eq_error_iff {f : α → Except ε Unit} {l : List α} {e : ε} :
    l.forM f = .error e ↔ ∃ before x after, l = before ++ x :: after ∧
      (∀ y ∈ before, f y = .ok ()) ∧ f x = .error e := by
  induction l with
  | nil => exact ⟨nofun, fun ⟨before, x, after, hl, _⟩ => by simp at hl⟩
  | cons a l ih =>
    change (f a >>= fun _ => l.forM f) = _ ↔ _
    rw [bind_eq_error_iff]
    constructor
    · rintro (h | ⟨⟨⟩, ha, h⟩)
      · exact ⟨[], a, l, rfl, nofun, h⟩
      · obtain ⟨before, x, after, rfl, hbefore, hx⟩ := ih.1 h
        exact ⟨a :: before, x, after, rfl, List.forall_mem_cons.2 ⟨ha, hbefore⟩, hx⟩
    · rintro ⟨before, x, after, hl, hbefore, hx⟩
      cases before with
      | nil =>
        obtain ⟨rfl, rfl⟩ := List.cons.inj hl
        exact Or.inl hx
      | cons y before =>
        obtain ⟨rfl, rfl⟩ := List.cons.inj hl
        obtain ⟨hy, hbefore⟩ := List.forall_mem_cons.1 hbefore
        exact Or.inr ⟨(), hy, ih.2 ⟨before, x, after, rfl, hbefore, hx⟩⟩

end Except
