import Mathlib

/-!
# Fallible computations

Checks and pipelines over `Except` and `Option`: when does a chain of steps succeed?  The lemmas here turn a
successful run of a `do` block into the list of facts its steps established, one `obtain` a step.
-/

namespace PortageEngine.Library

open List

variable {ε α β : Type} {u : Unit} {f : α → Except ε β} {xs : List α}

/-- Fail with `error` unless the condition holds. -/
def require (condition : Bool) (error : ε) : Except ε Unit :=
  if condition then .ok () else .error error

variable {condition : Bool} {check : α → Except ε Unit}

@[simp] theorem require_eq_ok {error : ε} :
    require condition error = .ok u ↔ condition = true := by
  cases condition <;> simp [require]

variable {b : β} {x : Except ε α}

theorem bind_eq_ok :
    (x >>= f) = .ok b ↔ ∃ a, x = .ok a ∧ f a = .ok b := by
  cases x with
  | error e | ok a => simp [bind, Except.bind]

theorem map_eq_ok {f : α → β} :
    f <$> x = .ok b ↔ ∃ a, x = .ok a ∧ f a = b := by
  cases x with
  | error e | ok a => simp

theorem require_bind_eq_ok {error : ε} {f : Unit → Except ε β} :
    (require condition error >>= f) = .ok b ↔ condition = true ∧ f () = .ok b := by
  cases condition with
  | false | true => simp [require, bind, Except.bind]

/-- The rest of a computation whose check was passed. -/
theorem passed {check : Except ε Unit} {f : Unit → Except ε β} (h : (check >>= f) = .ok b) :
    f () = .ok b := by
  rcases bind_eq_ok.mp h with ⟨⟨⟩, _, h⟩
  exact h

@[elab_as_elim] theorem of_map_eq_ok {γ : Type} {f : α → β × γ} {c : γ}
    {P : β → γ → Prop} (h : f <$> x = .ok (b, c)) (hP : ∀ a, x = .ok a → P (f a).1 (f a).2) :
    P b c := by
  rcases map_eq_ok.mp h with ⟨a, ha, heq⟩
  have hPa := hP a ha
  rw [heq] at hPa
  exact hPa

@[simp] theorem pure_eq_ok {a b : α} : (pure a : Except ε α) = .ok b ↔ a = b := by
  simp [pure, Except.pure]

theorem guard_bind_eq_some {p : Prop} [Decidable p] {f : Unit → Option β} :
    (guard p >>= f) = some b ↔ p ∧ f () = some b := by
  by_cases hp : p
  · simp [hp]
  · simp [hp]

theorem forM_eq_ok :
    xs.forM check = .ok u ↔ ∀ x ∈ xs, check x = .ok () := by
  induction xs with
  | nil => simp
  | cons x xs ih =>
    have hcons : (x :: xs).forM check = (check x >>= fun _ => xs.forM check) := rfl
    rw [hcons, bind_eq_ok]
    constructor
    · rintro ⟨⟨⟩, hx, hxs⟩
      exact forall_mem_cons.mpr ⟨hx, ih.mp hxs⟩
    · intro h
      exact ⟨(), h x (by simp), ih.mpr fun y hy => h y (by simp [hy])⟩

theorem map_of_mapM_eq_ok {ys : List β}
    (h : xs.mapM f = .ok ys) : xs.map f = ys.map .ok := by
  induction xs generalizing ys with
  | nil =>
    cases pure_eq_ok.mp h
    rfl
  | cons x xs ih =>
    rw [mapM_cons, bind_eq_ok] at h
    rcases h with ⟨y, hy, h⟩
    rcases bind_eq_ok.mp h with ⟨rest, hrest, h⟩
    cases pure_eq_ok.mp h
    rw [map_cons, map_cons, hy, ih hrest]

/-- Convert the elements of a list; no key of the results may occur twice. -/
def mapDistinct {κ : Type} [DecidableEq κ] (key : β → κ) (f : α → Except ε β)
    (duplicate : β → ε) : List κ → List α → Except ε (List β)
  | _, [] => .ok []
  | seen, x :: xs => do
    let y ← f x
    require (!seen.contains (key y)) (duplicate y)
    return y :: (← mapDistinct key f duplicate (key y :: seen) xs)

theorem mapDistinct_ok {κ : Type} [DecidableEq κ] {key : β → κ} {duplicate : β → ε} {seen : List κ}
    {ys : List β} (h : mapDistinct key f duplicate seen xs = .ok ys) :
    xs.map f = ys.map .ok := by
  induction xs generalizing seen ys with
  | nil =>
    cases h
    rfl
  | cons x xs ih =>
    rcases bind_eq_ok.mp h with ⟨y, hy, h⟩
    rcases bind_eq_ok.mp (passed h) with ⟨rest, hrest, h⟩
    cases pure_eq_ok.mp h
    rw [map_cons, map_cons, hy, ih hrest]

theorem mem_of_map_eq_ok {ys : List β} (h : xs.map f = ys.map .ok) :
    (∀ x ∈ xs, ∃ y ∈ ys, f x = .ok y) ∧ ∀ y ∈ ys, ∃ x ∈ xs, f x = .ok y := by
  refine ⟨fun x hx => ?_, fun y hy => mem_map.mp (h ▸ mem_map_of_mem hy)⟩
  rcases mem_map.mp (h ▸ mem_map_of_mem hx) with ⟨y, hy, heq⟩
  exact ⟨y, hy, heq.symm⟩

theorem map_eq_of_map_eq_ok {γ : Type} {ys : List β} {g : α → γ} {k : β → γ}
    (h : xs.map f = ys.map .ok) (hg : ∀ x y, f x = .ok y → g x = k y) : xs.map g = ys.map k := by
  induction xs generalizing ys with
  | nil => simp_all
  | cons x xs ih =>
    cases ys with
    | nil => cases h
    | cons y ys =>
      simp only [map_cons, cons.injEq] at h ⊢
      exact ⟨hg x y h.1, ih h.2⟩

/-- Check every element of a list and that no key occurs twice, in one pass. -/
def forDistinct {κ : Type} [DecidableEq κ] (key : α → κ) (check : α → Except ε Unit)
    (duplicate : α → ε) : List κ → List α → Except ε Unit
  | _, [] => .ok ()
  | seen, x :: xs => do
    check x
    require (!seen.contains (key x)) (duplicate x)
    forDistinct key check duplicate (key x :: seen) xs

theorem forDistinct_eq_ok {κ : Type} [DecidableEq κ] {key : α → κ}
    {duplicate : α → ε} {seen : List κ} :
    forDistinct key check duplicate seen xs = .ok u ↔
      (∀ x ∈ xs, check x = .ok ()) ∧ (xs.map key).Nodup ∧ ∀ x ∈ xs, key x ∉ seen := by
  induction xs generalizing seen with
  | nil => simp [forDistinct]
  | cons x xs ih =>
    simp only [forDistinct, bind_eq_ok, require_eq_ok, ih, forall_mem_cons, map_cons,
      nodup_cons]
    constructor
    · rintro ⟨⟨⟩, hx, -, hseen, hxs, hnodup, hnew⟩
      refine ⟨⟨hx, hxs⟩, ⟨?_, hnodup⟩, by simpa using hseen, fun y hy hmem => hnew y hy (by simp [hmem])⟩
      intro hmem
      rcases mem_map.mp hmem with ⟨y, hy, hkey⟩
      exact hnew y hy (by simp [hkey])
    · rintro ⟨⟨hx, hxs⟩, ⟨hfresh, hnodup⟩, hseen, hnew⟩
      refine ⟨(), hx, (), by simpa using hseen, hxs, hnodup, ?_⟩
      intro y hy hmem
      rcases mem_cons.mp hmem with hkey | hmem
      · exact hfresh (hkey ▸ mem_map_of_mem hy)
      · exact hnew y hy hmem

theorem bind_ne_error {e : ε} (hx : x ≠ .error e) (hf : ∀ a, x = .ok a → f a ≠ .error e) :
    (x >>= f) ≠ .error e := by
  cases x with
  | error e' => exact fun h => hx (congrArg _ (Except.error.inj h))
  | ok a => exact hf a rfl

theorem mapM_ne_error {e : ε} (h : ∀ x ∈ xs, f x ≠ .error e) : xs.mapM f ≠ .error e := by
  induction xs with
  | nil => nofun
  | cons x xs ih =>
    rw [mapM_cons]
    refine bind_ne_error (h x mem_cons_self) fun y _ => ?_
    exact bind_ne_error (ih fun z hz => h z (mem_cons_of_mem x hz)) nofun

theorem mapError_succeeds_iff {δ : Type} {reword : ε → δ} {a : α} :
    x.mapError reword = .ok a ↔ x = .ok a := by
  cases x with
  | error e | ok a => simp [Except.mapError]

end PortageEngine.Library
