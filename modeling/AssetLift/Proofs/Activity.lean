import Mathlib.Data.List.Forall2

/-!
# Computations that may fail

How a computation that gave a value is taken apart into the computations it is made of.

* `bind_eq_ok`, `bind_eq_error`, `map_eq_ok`, `mapError_eq_ok`, `mapM_eq_ok`: for results. Lists that
  correspond element by element (`List.Forall₂`) come from `mapM`.
* `run_bind`, `run_tryCatch` and the others: for activities on a state, which keep what they did
  before they failed. An activity is run to a pair of its result and the state it leaves.
-/

namespace AssetLift

/-! ## Results -/

section
variable {ε α β : Type}

theorem bind_eq_ok {x : Except ε α} {f : α → Except ε β} {b : β} :
    x >>= f = .ok b ↔ ∃ a, x = .ok a ∧ f a = .ok b := by
  cases x <;> simp [bind, Except.bind]

theorem bind_eq_error {x : Except ε α} {f : α → Except ε β} {e : ε} :
    x >>= f = .error e ↔ x = .error e ∨ ∃ a, x = .ok a ∧ f a = .error e := by
  cases x <;> simp [bind, Except.bind]

theorem map_eq_ok {x : Except ε α} {f : α → β} {b : β} :
    f <$> x = .ok b ↔ ∃ a, x = .ok a ∧ f a = b := by
  cases x <;> simp [Functor.map, Except.map]

theorem pure_eq_ok {a b : α} : (pure a : Except ε α) = .ok b ↔ a = b := by
  simp [pure, Except.pure]

theorem mapError_eq_ok {δ : Type} {x : Except ε α} {f : ε → δ} {a : α} :
    x.mapError f = .ok a ↔ x = .ok a := by
  cases x <;> simp [Except.mapError]

theorem mapM_eq_ok {f : α → Except ε β} {xs : List α} {ys : List β} :
    xs.mapM f = .ok ys ↔ List.Forall₂ (fun x y => f x = .ok y) xs ys := by
  induction xs generalizing ys with
  | nil => cases ys <;> simp [pure, Except.pure]
  | cons x xs ih =>
    simp only [List.mapM_cons, bind_eq_ok, pure_eq_ok, ih, List.forall₂_cons_left_iff]
    constructor
    · rintro ⟨y, hy, ys, hys, rfl⟩; exact ⟨y, ys, hy, hys, rfl⟩
    · rintro ⟨y, ys, hy, hys, rfl⟩; exact ⟨y, hy, ys, hys, rfl⟩

end

/-! ## Lists that correspond -/

theorem exists_left_of_forall₂ {α β : Type} {R : α → β → Prop} {xs : List α} {ys : List β}
    (h : List.Forall₂ R xs ys) {y : β} (hy : y ∈ ys) : ∃ x ∈ xs, R x y := by
  induction h with
  | nil => simp at hy
  | cons hxy _ ih =>
    rcases List.mem_cons.1 hy with rfl | hy
    · exact ⟨_, List.mem_cons_self, hxy⟩
    · obtain ⟨x, hx, hr⟩ := ih hy
      exact ⟨x, List.mem_cons_of_mem _ hx, hr⟩

theorem exists_right_of_forall₂ {α β : Type} {R : α → β → Prop} {xs : List α} {ys : List β}
    (h : List.Forall₂ R xs ys) {x : α} (hx : x ∈ xs) : ∃ y ∈ ys, R x y :=
  exists_left_of_forall₂ h.flip hx

theorem forall₂_imp_mem {α β : Type} {R S : α → β → Prop} {xs : List α} {ys : List β}
    (h : List.Forall₂ R xs ys) (himp : ∀ x ∈ xs, ∀ y ∈ ys, R x y → S x y) :
    List.Forall₂ S xs ys := by
  induction h with
  | nil => exact .nil
  | cons hxy _ ih =>
    exact .cons (himp _ List.mem_cons_self _ List.mem_cons_self hxy)
      (ih fun x hx y hy => himp x (List.mem_cons_of_mem _ hx) y (List.mem_cons_of_mem _ hy))

theorem forall₂_append_left {α β : Type} {R : α → β → Prop} {as bs : List α} {ys : List β}
    (h : List.Forall₂ R (as ++ bs) ys) :
    List.Forall₂ R as (ys.take as.length) ∧ List.Forall₂ R bs (ys.drop as.length) := by
  induction as generalizing ys with
  | nil => exact ⟨by simp, h⟩
  | cons a as ih =>
    cases h with
    | cons ha hrest => exact ⟨.cons ha (ih hrest).1, (ih hrest).2⟩

theorem pairwise_of_forall₂ {α β : Type} {R : α → β → Prop} {S : α → α → Prop} {T : β → β → Prop}
    {xs : List α} {ys : List β} (h : List.Forall₂ R xs ys) (hs : xs.Pairwise S)
    (hT : ∀ {x x' y y'}, R x y → R x' y' → S x x' → T y y') : ys.Pairwise T := by
  induction h with
  | nil => exact .nil
  | cons hxy hrest ih =>
    obtain ⟨hx, hs⟩ := List.pairwise_cons.1 hs
    refine List.pairwise_cons.2 ⟨fun y' hy' => ?_, ih hs⟩
    obtain ⟨x', hx', hr⟩ := exists_left_of_forall₂ hrest hy'
    exact hT hxy hr (hx x' hx')

theorem getElem?_of_forall₂ {α β : Type} {R : α → β → Prop} {xs : List α} {ys : List β}
    (h : List.Forall₂ R xs ys) {i : Nat} {x : α} (hx : xs[i]? = some x) :
    ∃ y, ys[i]? = some y ∧ R x y := by
  induction h generalizing i with
  | nil => simp at hx
  | cons hxy _ ih =>
    cases i with
    | zero =>
      obtain rfl := Option.some.inj hx
      exact ⟨_, rfl, hxy⟩
    | succ i => exact ih hx

/-! ## Activities -/

section
variable {ε σ α β : Type}

/-- Runs an activity from a state: its result, and the state it leaves. -/
def runFrom (x : ExceptT ε (StateM σ) α) (s : σ) : Except ε α × σ := x.run s

theorem run_get (s : σ) : runFrom (get : ExceptT ε (StateM σ) σ) s = (.ok s, s) := rfl

theorem run_modify (f : σ → σ) (s : σ) :
    runFrom (modify f : ExceptT ε (StateM σ) PUnit) s = (.ok ⟨⟩, f s) := rfl

theorem run_bind (x : ExceptT ε (StateM σ) α) (f : α → ExceptT ε (StateM σ) β) (s : σ) :
    runFrom (x >>= f) s = match runFrom x s with
      | (.ok a, s') => runFrom (f a) s'
      | (.error e, s') => (.error e, s') := by
  simp only [runFrom, bind, ExceptT.bind, ExceptT.mk, ExceptT.run, StateT.bind]
  rcases x s with ⟨a | a, s'⟩ <;> rfl

theorem run_tryCatch (x : ExceptT ε (StateM σ) α) (h : ε → ExceptT ε (StateM σ) α) (s : σ) :
    runFrom (tryCatch x h) s = match runFrom x s with
      | (.ok a, s') => (.ok a, s')
      | (.error e, s') => runFrom (h e) s' := by
  simp only [runFrom, tryCatch, tryCatchThe, MonadExceptOf.tryCatch, ExceptT.tryCatch, ExceptT.run,
    ExceptT.mk, bind, StateT.bind]
  rcases x s with ⟨a | a, s'⟩ <;> rfl

theorem run_bind_ok {x : ExceptT ε (StateM σ) α} {f : α → ExceptT ε (StateM σ) β} {s s' : σ} {b : β}
    (h : runFrom (x >>= f) s = (.ok b, s')) :
    ∃ a s₁, runFrom x s = (.ok a, s₁) ∧ runFrom (f a) s₁ = (.ok b, s') := by
  rw [run_bind] at h
  rcases hx : runFrom x s with ⟨e | a, s₁⟩
  · rw [hx] at h; simp at h
  · rw [hx] at h; exact ⟨a, s₁, rfl, h⟩

theorem run_bind_error {x : ExceptT ε (StateM σ) α} {f : α → ExceptT ε (StateM σ) β} {s s' : σ} {e : ε}
    (h : runFrom (x >>= f) s = (.error e, s')) : runFrom x s = (.error e, s') ∨
      ∃ a s₁, runFrom x s = (.ok a, s₁) ∧ runFrom (f a) s₁ = (.error e, s') := by
  rw [run_bind] at h
  rcases hx : runFrom x s with ⟨e' | a, s₁⟩
  · rw [hx] at h
    cases h
    exact .inl rfl
  · rw [hx] at h
    exact .inr ⟨a, s₁, rfl, h⟩

end

end AssetLift
