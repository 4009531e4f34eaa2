import PortageEngine.Library.Runs

/-!
# Sequential programs in a pool

A program is a tree of calls: it asks for an operation and goes on with the answer.  A pool runs any
number of programs on one state, one call at a time and in any order; a program may be killed between
two calls.

* `Safe` is partial correctness of one program among others: `R` is what the others may do to the
  state between two of its calls (rely), `G` what each of its own calls does (guarantee), and `I` an
  invariant of the state that everybody keeps.
* `PoolSafe.run` is the parallel rule: programs that are safe alone stay so in a pool in which what
  each one guarantees is what the others rely on.
-/

namespace PortageEngine.Library.Process

open List Runs

/-! ## Programs -/

/-- A program over operations `ω` with answers `ρ` and a result in `α`. -/
inductive Prog (ω ρ α : Type)
  | done (result : α)
  | call (op : ω) (next : ρ → Prog ω ρ α)

namespace Prog

variable {ω ρ α β : Type}

def bind : Prog ω ρ α → (α → Prog ω ρ β) → Prog ω ρ β
  | .done a, f => f a
  | .call op next, f => .call op fun r => (next r).bind f

instance : Monad (Prog ω ρ) where
  pure := .done
  bind := bind

def ask (op : ω) : Prog ω ρ ρ :=
  .call op .done

def running : Prog ω ρ α → Bool
  | .done _ => false
  | .call _ _ => true

@[simp] theorem pure_bind' {a : α} {f : α → Prog ω ρ β} : (Prog.done a).bind f = f a := rfl

@[simp] theorem call_bind {op : ω} {next : ρ → Prog ω ρ α} {f : α → Prog ω ρ β} :
    (Prog.call op next).bind f = .call op fun r => (next r).bind f := rfl

end Prog

section Semantics

variable {σ ω ρ χ α β : Type}

/-- Run a program by itself; every call goes the way of `c`. -/
def alone (exec : χ → ω → σ → σ × ρ) (c : χ) : Prog ω ρ α → σ → σ × α
  | .done a, s => (s, a)
  | .call op next, s => alone exec c (next (exec c op s).2) (exec c op s).1

variable {s : σ} {a : α} {c : χ}

variable {exec : χ → ω → σ → σ × ρ} {Q' : β → σ → Prop}

@[simp] theorem alone_done :
    alone exec c (.done a) s = (s, a) := rfl

@[simp] theorem alone_call {op : ω} {next : ρ → Prog ω ρ α}
    : alone exec c (.call op next) s = alone exec c (next (exec c op s).2) (exec c op s).1 :=
  rfl

theorem alone_bind (p : Prog ω ρ α) (f : α → Prog ω ρ β)
    (s : σ) :
    alone exec c (p.bind f) s = alone exec c (f (alone exec c p s).2) (alone exec c p s).1 := by
  induction p generalizing s with
  | done a => rfl
  | call op next ih => exact ih _ _

def Safe (exec : χ → ω → σ → σ × ρ) (I : σ → Prop) (R G : σ → σ → Prop)
    (Q : α → σ → Prop) : Prog ω ρ α → σ → Prop
  | .done a, s => Q a s
  | .call op next, s => ∀ s', R s s' → I s' → ∀ c, G s' (exec c op s').1 ∧
      I (exec c op s').1 ∧ Safe exec I R G Q (next (exec c op s').2) (exec c op s').1

variable {exec : χ → ω → σ → σ × ρ} {I : σ → Prop} {R G : σ → σ → Prop}
  {Q : α → σ → Prop} {p : Prog ω ρ α}

theorem Safe.rely (htrans : ∀ s₁ s₂ s₃, R s₁ s₂ → R s₂ s₃ → R s₁ s₃)
    {s' : σ} (hR : R s s') (hQ : ∀ a, Q a s → Q a s')
    (h : Safe exec I R G Q p s) : Safe exec I R G Q p s' := by
  cases p with
  | done a => exact hQ a h
  | call op next => exact fun s'' hs'' hI => h s'' (htrans _ _ _ hR hs'') hI

theorem Safe.bind {f : α → Prog ω ρ β}
    (h : Safe exec I R G Q p s) (hf : ∀ a s, Q a s → Safe exec I R G Q' (f a) s) :
    Safe exec I R G Q' (p.bind f) s := by
  induction p generalizing s with
  | done a => exact hf a s h
  | call op next ih =>
    intro s' hs' hI c
    rcases h s' hs' hI c with ⟨hG, hI', hnext⟩
    exact ⟨hG, hI', ih _ hnext⟩

theorem Safe.imp {Q' : α → σ → Prop} (h : Safe exec I R G Q p s)
    (hQ : ∀ a s, Q a s → Q' a s) : Safe exec I R G Q' p s := by
  induction p generalizing s with
  | done a => exact hQ a s h
  | call op next ih =>
    intro s' hs' hI c
    rcases h s' hs' hI c with ⟨hG, hI', hnext⟩
    exact ⟨hG, hI', ih _ hnext⟩

/-! ### Programs that may fail -/

variable {ε : Type}

/-- Whatever a fallible program returns meets `Q`, among others as in `Safe`; it may fail at any
point. -/
def Ensures (exec : χ → ω → σ → σ × ρ) (I : σ → Prop) (R G : σ → σ → Prop)
    (p : ExceptT ε (Prog ω ρ) α) (Q : α → σ → Prop) (s : σ) : Prop :=
  Safe exec I R G (fun r s => ∀ a, r = .ok a → Q a s) p.run s

theorem ensures_pure (h : Q a s) :
    Ensures exec I R G (pure a : ExceptT ε (Prog ω ρ) α) Q s := by
  intro a' ha'
  cases ha'
  exact h

theorem ensures_except {x : Except ε α} (h : ∀ a, x = .ok a → Q a s) :
    Ensures exec I R G (ExceptT.mk (.done x) : ExceptT ε (Prog ω ρ) α) Q s :=
  h

theorem ensures_throw {e : ε} :
    Ensures exec I R G (throw e : ExceptT ε (Prog ω ρ) α) Q s := by
  nofun

theorem ensures_bind {p : ExceptT ε (Prog ω ρ) α} {f : α → ExceptT ε (Prog ω ρ) β}
    (h : Ensures exec I R G p (fun a s => Ensures exec I R G (f a) Q' s) s) :
    Ensures exec I R G (p >>= f) Q' s := by
  refine Safe.bind h ?_
  intro r s hr
  cases r with
  | ok a => exact hr a rfl
  | error e =>
    nofun

theorem ensures_ask {op : ω} {Q : ρ → σ → Prop}
    (h : ∀ s', R s s' → I s' → ∀ c, G s' (exec c op s').1 ∧ I (exec c op s').1 ∧
      Q (exec c op s').2 (exec c op s').1) :
    Ensures exec I R G (ExceptT.lift (Prog.ask op) : ExceptT ε (Prog ω ρ) ρ) Q s := by
  intro s' hs' hI c
  rcases h s' hs' hI c with ⟨hG, hI', hQ⟩
  refine ⟨hG, hI', ?_⟩
  intro r hr
  cases hr
  exact hQ

theorem alone_bindExcept {p : ExceptT ε (Prog ω ρ) α} {f : α → ExceptT ε (Prog ω ρ) β}
    {s' : σ} (h : alone exec c p.run s = (s', .ok a)) :
    alone exec c (p >>= f).run s = alone exec c (f a).run s' := by
  have hbind : alone exec c (p >>= f).run s =
      alone exec c ((ExceptT.bindCont f) (alone exec c p.run s).2) (alone exec c p.run s).1 :=
    alone_bind p.run _ s
  rw [hbind, h]
  rfl

end Semantics

/-! ## Pools -/

section Pools

variable {σ ω ρ χ α ℓ : Type}

structure Job (ℓ ω ρ α : Type) where
  label : ℓ
  prog : Prog ω ρ α

structure Pool (σ ℓ ω ρ α : Type) where
  state : σ
  jobs : List (Job ℓ ω ρ α)

inductive Event (ℓ χ : Type)
  | start (label : ℓ)
  | call (i : Nat) (choice : χ)
  | kill (i : Nat)

def Job.advance (exec : χ → ω → σ → σ × ρ) (c : χ) (s : σ) (j : Job ℓ ω ρ α) :
    σ × Job ℓ ω ρ α :=
  match j.prog with
  | .done _ => (s, j)
  | .call op next => ((exec c op s).1, { j with prog := next (exec c op s).2 })

def stepPool (exec : χ → ω → σ → σ × ρ) (program : ℓ → Prog ω ρ α) (pool : Pool σ ℓ ω ρ α) :
    Event ℓ χ → Pool σ ℓ ω ρ α
  | .start label => { pool with jobs := pool.jobs ++ [⟨label, program label⟩] }
  | .call i c =>
    match pool.jobs[i]? with
    | none => pool
    | some j => {
        state := (j.advance exec c pool.state).1
        jobs := pool.jobs.set i (j.advance exec c pool.state).2 }
  | .kill i => { pool with jobs := pool.jobs.eraseIdx i }

structure PoolSafe (exec : χ → ω → σ → σ × ρ) (I : σ → Prop) (R G : ℓ → σ → σ → Prop)
    (Q : ℓ → α → σ → Prop) (pool : Pool σ ℓ ω ρ α) : Prop where
  inv : I pool.state
  jobs : ∀ j ∈ pool.jobs, Safe exec I (R j.label) (G j.label) (Q j.label) j.prog pool.state

/-- What the parallel rule asks of the relations. -/
structure Rules (I : σ → Prop) (R G : ℓ → σ → σ → Prop) (Q : ℓ → α → σ → Prop) : Prop where
  refl : ∀ l s, R l s s
  trans : ∀ l s₁ s₂ s₃, R l s₁ s₂ → R l s₂ s₃ → R l s₁ s₃
  rely : ∀ a b s s', I s → I s' → G b s s' → R a s s'
  result : ∀ a b r s s', I s → I s' → G b s s' → Q a r s → Q a r s'

variable {exec : χ → ω → σ → σ × ρ} {I : σ → Prop} {R G : ℓ → σ → σ → Prop}
  {Q : ℓ → α → σ → Prop} {program : ℓ → Prog ω ρ α} {pool : Pool σ ℓ ω ρ α}

/-- A call that reaches no running program changes nothing. -/
theorem stepPool_call {i : Nat} {c : χ} :
    stepPool exec program pool (.call i c) = pool ∨
      ∃ j op next, pool.jobs[i]? = some j ∧ j.prog = .call op next ∧
        stepPool exec program pool (.call i c) = {
          state := (exec c op pool.state).1
          jobs := pool.jobs.set i { j with prog := next (exec c op pool.state).2 } } := by
  cases hget : pool.jobs[i]? with
  | none => exact .inl (by simp only [stepPool, hget])
  | some j =>
    cases hprog : j.prog with
    | done r =>
      refine .inl ?_
      rcases List.getElem?_eq_some_iff.mp hget with ⟨hi, hj⟩
      simp only [stepPool, hget, Job.advance, hprog]
      rw [← hj, set_getElem_self hi]
    | call op next =>
      exact .inr ⟨j, op, next, rfl, hprog, by simp only [stepPool, hget, Job.advance, hprog]⟩

theorem PoolSafe.call (hrules : Rules I R G Q)
    (h : PoolSafe exec I R G Q pool) {i : Nat} {j : Job ℓ ω ρ α}
    (hj : pool.jobs[i]? = some j) {op : ω} {next : ρ → Prog ω ρ α} (hprog : j.prog = .call op next)
    (c : χ) :
    PoolSafe exec I R G Q {
      state := (exec c op pool.state).1
      jobs := pool.jobs.set i { j with prog := next (exec c op pool.state).2 } } := by
  have hsafe := h.jobs j (mem_of_getElem? hj)
  rw [hprog] at hsafe
  rcases hsafe pool.state (hrules.refl _ _) h.inv c with ⟨hG, hI, hnext⟩
  refine ⟨hI, ?_⟩
  intro j' hj'
  rcases mem_iff_getElem?.mp hj' with ⟨k, hk⟩
  by_cases hik : i = k
  · subst hik
    rw [getElem?_set_self (List.getElem?_eq_some_iff.mp hj).1] at hk
    cases hk
    exact hnext
  · rw [getElem?_set_ne hik] at hk
    have hR : R j'.label pool.state (exec c op pool.state).1 := hrules.rely _ _ _ _ h.inv hI hG
    exact (h.jobs j' (mem_of_getElem? hk)).rely (hrules.trans _) hR
      fun a => hrules.result _ _ _ _ _ h.inv hI hG

theorem PoolSafe.step (hrules : Rules I R G Q)
    (hstart : ∀ l s, I s → Safe exec I (R l) (G l) (Q l) (program l) s)
    (h : PoolSafe exec I R G Q pool) {e : Event ℓ χ} :
    PoolSafe exec I R G Q (stepPool exec program pool e) := by
  cases e with
  | start label =>
    refine ⟨h.inv, ?_⟩
    intro j hj
    rcases mem_append.mp hj with hj | hj
    · exact h.jobs j hj
    rw [mem_singleton] at hj
    subst hj
    exact hstart label pool.state h.inv
  | kill i => exact ⟨h.inv, fun j hj => h.jobs j (mem_of_mem_eraseIdx hj)⟩
  | call i c =>
    rcases stepPool_call with heq | ⟨j, op, next, hget, hprog, heq⟩ <;> rw [heq]
    · exact h
    · exact h.call hrules hget hprog c

theorem PoolSafe.run (hrules : Rules I R G Q)
    (hstart : ∀ l s, I s → Safe exec I (R l) (G l) (Q l) (program l) s)
    (h : PoolSafe exec I R G Q pool) {events : List (Event ℓ χ)} :
    PoolSafe exec I R G Q (Runs.run (stepPool exec program) pool events) :=
  run_induction (fun _ _ hsafe => hsafe.step hrules hstart) h

end Pools

end PortageEngine.Library.Process
