import PortageEngine.Library.Process

/-!
# Programs of one crew

In a crew the programs are started by actions on the state: an action may hand out a label, and the
program of that label then runs.  Programs whose labels are `apart` leave each other alone, so a crew
is safe if a label is handed out only while all running programs are apart from it.

* `Leaves` is `Ensures` for programs that clean up after a failure: `F` holds however the program
  ends.
* `CrewSafe.run` is the parallel rule.
* `run_guarded` brings in conditions on single calls and actions.
-/

namespace PortageEngine.Library.Process

open List Runs

/-! ## Programs that clean up -/

section Cleanup

variable {σ ω ρ χ α β ε : Type}

/-- Run `cleanup` if the program fails. -/
def onError (p : ExceptT ε (Prog ω ρ) α) (cleanup : Prog ω ρ Unit) : ExceptT ε (Prog ω ρ) α :=
  ExceptT.mk do
    match ← p.run with
    | .ok a => pure (.ok a)
    | .error e => do
      cleanup
      pure (.error e)

/-- `F` holds when the program ends, and `Q` if it succeeds. -/
def Leaves (exec : χ → ω → σ → σ × ρ) (I : σ → Prop) (R G : σ → σ → Prop)
    (F : σ → Prop) (p : ExceptT ε (Prog ω ρ) α) (Q : α → σ → Prop) (s : σ) : Prop :=
  Safe exec I R G (fun r s => F s ∧ ∀ a, r = .ok a → Q a s) p.run s

variable {exec : χ → ω → σ → σ × ρ} {I : σ → Prop} {R G : σ → σ → Prop}
  {F : σ → Prop} {Q : α → σ → Prop}

variable {s : σ} {p : ExceptT ε (Prog ω ρ) α}

theorem leaves_pure {a : α} (hF : F s) (hQ : Q a s) :
    Leaves exec I R G F (pure a : ExceptT ε (Prog ω ρ) α) Q s := by
  refine ⟨hF, ?_⟩
  intro a' ha'
  cases ha'
  exact hQ

theorem leaves_throw {e : ε} (hF : F s) :
    Leaves exec I R G F (throw e : ExceptT ε (Prog ω ρ) α) Q s := by
  refine ⟨hF, ?_⟩
  nofun

theorem leaves_except {x : Except ε α} (hF : F s) (h : ∀ a, x = .ok a → Q a s) :
    Leaves exec I R G F (ExceptT.mk (.done x) : ExceptT ε (Prog ω ρ) α) Q s :=
  ⟨hF, h⟩

theorem leaves_bind {f : α → ExceptT ε (Prog ω ρ) β} {Q' : β → σ → Prop}
    (h : Leaves exec I R G F p (fun a s => F s → Leaves exec I R G F (f a) Q' s) s) :
    Leaves exec I R G F (p >>= f) Q' s := by
  refine Safe.bind h ?_
  intro r s hr
  cases r with
  | ok a => exact hr.2 a rfl hr.1
  | error e => exact leaves_throw hr.1

theorem leaves_imp {Q' : α → σ → Prop}
    (h : Leaves exec I R G F p Q s) (hQ : ∀ a s, Q a s → Q' a s) :
    Leaves exec I R G F p Q' s :=
  Safe.imp h fun _ s hr => ⟨hr.1, fun a ha => hQ a s (hr.2 a ha)⟩

theorem leaves_ask {op : ω} {Q : ρ → σ → Prop}
    (h : ∀ s', R s s' → I s' → ∀ c, G s' (exec c op s').1 ∧ I (exec c op s').1 ∧
      F (exec c op s').1 ∧ Q (exec c op s').2 (exec c op s').1) :
    Leaves exec I R G F (ExceptT.lift (Prog.ask op) : ExceptT ε (Prog ω ρ) ρ) Q s := by
  intro s' hs' hI c
  rcases h s' hs' hI c with ⟨hG, hI', hF, hQ⟩
  refine ⟨hG, hI', hF, ?_⟩
  intro r hr
  cases hr
  exact hQ

theorem leaves_onError {cleanup : Prog ω ρ Unit} (h : Leaves exec I R G F p Q s)
    (hcleanup : ∀ s, F s → Safe exec I R G (fun _ s => F s) cleanup s) :
    Leaves exec I R G F (onError p cleanup) Q s := by
  refine Safe.bind h ?_
  intro r s hr
  cases r with
  | ok a => exact hr
  | error e =>
    refine Safe.bind (hcleanup s hr.1) ?_
    intro _ s' hF
    exact leaves_throw hF

end Cleanup

/-! ## Crews -/

section Crews

variable {σ ω ρ χ α ℓ η : Type}

inductive Move (η χ : Type)
  | act (action : η)
  | call (i : Nat) (choice : χ)
  | kill (i : Nat)

def stepCrew (exec : χ → ω → σ → σ × ρ) (act : η → σ → σ × Option ℓ) (program : ℓ → Prog ω ρ α)
    (pool : Pool σ ℓ ω ρ α) : Move η χ → Pool σ ℓ ω ρ α
  | .act e => {
      state := (act e pool.state).1
      jobs := pool.jobs ++ (act e pool.state).2.toList.map fun l => ⟨l, program l⟩ }
  | .call i c => stepPool exec program pool (.call i c)
  | .kill i => stepPool exec program pool (.kill i)

/-- A label is handed out only while every running program is apart from it. -/
def Exclusive (act : η → σ → σ × Option ℓ) (apart : ℓ → ℓ → Prop) (pool : Pool σ ℓ ω ρ α) :
    Move η χ → Prop
  | .act e => ∀ l ∈ (act e pool.state).2.toList, ∀ j ∈ pool.jobs, j.prog.running = true →
      apart j.label l
  | _ => True

instance (act : η → σ → σ × Option ℓ) (apart : ℓ → ℓ → Prop) [DecidableRel apart]
    (pool : Pool σ ℓ ω ρ α) : ∀ m : Move η χ, Decidable (Exclusive act apart pool m)
  | .act _ => inferInstanceAs (Decidable (∀ l ∈ _, ∀ j ∈ _, _ → _))
  | .call _ _ => inferInstanceAs (Decidable True)
  | .kill _ => inferInstanceAs (Decidable True)

/-- Two programs that are both running are apart. -/
def Job.Apart (apart : ℓ → ℓ → Prop) (j k : Job ℓ ω ρ α) : Prop :=
  j.prog.running = true → k.prog.running = true → apart j.label k.label

structure CrewSafe (exec : χ → ω → σ → σ × ρ) (I : σ → Prop) (R G : ℓ → σ → σ → Prop)
    (apart : ℓ → ℓ → Prop) (pool : Pool σ ℓ ω ρ α) : Prop where
  inv : I pool.state
  jobs : ∀ j ∈ pool.jobs, Safe exec I (R j.label) (G j.label)
    (fun _ _ => True) j.prog pool.state
  apart : pool.jobs.Pairwise (Job.Apart apart)

/-- What the rule for crews asks of the relations, of the actions and of the programs. -/
structure CrewRules (exec : χ → ω → σ → σ × ρ) (act : η → σ → σ × Option ℓ)
    (program : ℓ → Prog ω ρ α) (I : σ → Prop) (R G : ℓ → σ → σ → Prop) (apart : ℓ → ℓ → Prop) :
    Prop where
  symm : ∀ a b, apart a b → apart b a
  refl : ∀ l s, R l s s
  trans : ∀ l s₁ s₂ s₃, R l s₁ s₂ → R l s₂ s₃ → R l s₁ s₃
  rely : ∀ a b s s', apart a b → I s → G b s s' → R a s s'
  other : ∀ e a s, I s → (∀ l ∈ (act e s).2.toList, apart a l) → R a s (act e s).1
  inv : ∀ e s, I s → I (act e s).1
  start : ∀ e s, I s → ∀ l ∈ (act e s).2.toList, Safe exec I (R l) (G l)
    (fun _ _ => True) (program l) (act e s).1

variable {exec : χ → ω → σ → σ × ρ} {act : η → σ → σ × Option ℓ} {program : ℓ → Prog ω ρ α}
  {I : σ → Prop} {R G : ℓ → σ → σ → Prop} {apart : ℓ → ℓ → Prop} {pool : Pool σ ℓ ω ρ α}

theorem safe_of_not_running {R G : σ → σ → Prop} {p : Prog ω ρ α} {s : σ}
    (h : p.running = false) : Safe exec I R G (fun _ _ => True) p s := by
  cases p with
  | done a => trivial
  | call op next => cases h

theorem CrewSafe.action (hrules : CrewRules exec act program I R G apart)
    (h : CrewSafe exec I R G apart pool) {e : η}
    (he : ∀ l ∈ (act e pool.state).2.toList, ∀ j ∈ pool.jobs, j.prog.running = true →
      apart j.label l) :
    CrewSafe exec I R G apart {
      state := (act e pool.state).1
      jobs := pool.jobs ++ (act e pool.state).2.toList.map fun l => ⟨l, program l⟩ } := by
  refine ⟨hrules.inv e _ h.inv, ?_, ?_⟩
  · intro j hj
    rcases mem_append.mp hj with hj | hj
    · by_cases hrun : j.prog.running = true
      · refine (h.jobs j hj).rely (hrules.trans _) ?_ fun _ _ => trivial
        exact hrules.other e _ _ h.inv fun l hl => he l hl j hj hrun
      · exact safe_of_not_running (by simpa using hrun)
    · rcases mem_map.mp hj with ⟨l, hl, rfl⟩
      exact hrules.start e _ h.inv l hl
  · refine pairwise_append.mpr ⟨h.apart, ?_, ?_⟩
    · -- at most one label is handed out
      cases (act e pool.state).2 with
      | none => exact List.Pairwise.nil
      | some l => exact pairwise_singleton _ _
    · intro j hj k hk hjrun _
      rcases mem_map.mp hk with ⟨l, hl, rfl⟩
      exact he l hl j hj hjrun

theorem CrewSafe.call (hrules : CrewRules exec act program I R G apart)
    (h : CrewSafe exec I R G apart pool) {i : Nat} {j : Job ℓ ω ρ α}
    (hj : pool.jobs[i]? = some j) {op : ω} {next : ρ → Prog ω ρ α} (hprog : j.prog = .call op next)
    (c : χ) :
    CrewSafe exec I R G apart {
      state := (exec c op pool.state).1
      jobs := pool.jobs.set i { j with prog := next (exec c op pool.state).2 } } := by
  have hsafe := h.jobs j (mem_of_getElem? hj)
  have hrunning : j.prog.running = true := by rw [hprog]; rfl
  rw [hprog] at hsafe
  rcases hsafe pool.state (hrules.refl _ _) h.inv c with ⟨hG, hI, hnext⟩
  rcases List.getElem?_eq_some_iff.mp hj with ⟨hi, hget⟩
  have hpairs := pairwise_iff_getElem.mp h.apart
  refine ⟨hI, ?_, ?_⟩
  · intro k hk
    rcases mem_iff_getElem?.mp hk with ⟨m, hm⟩
    by_cases him : i = m
    · subst him
      rw [getElem?_set_self hi] at hm
      cases hm
      exact hnext
    rw [getElem?_set_ne him] at hm
    rcases List.getElem?_eq_some_iff.mp hm with ⟨hm', hgetm⟩
    by_cases hrun : k.prog.running = true
    · have hapart : apart k.label j.label := by
        rcases Nat.lt_or_gt_of_ne him with hlt | hgt
        · have hpair := hpairs i m hi hm' hlt
          rw [hget, hgetm] at hpair
          exact hrules.symm _ _ (hpair hrunning hrun)
        · have hpair := hpairs m i hm' hi hgt
          rw [hget, hgetm] at hpair
          exact hpair hrun hrunning
      refine (h.jobs k (mem_of_getElem? hm)).rely (hrules.trans _) ?_ fun _ _ => trivial
      exact hrules.rely _ _ _ _ hapart h.inv hG
    · exact safe_of_not_running (by simpa using hrun)
  · -- the changed job has the label it had, and was running
    refine pairwise_iff_getElem.mpr ?_
    intro m n hm hn hmn
    rw [length_set] at hm hn
    have hpair := hpairs m n hm hn hmn
    rw [getElem_set, getElem_set]
    by_cases him : i = m
    · have hin : ¬ i = n := by omega
      rw [if_pos him, if_neg hin]
      subst him
      rw [hget] at hpair
      exact fun _ hrun => hpair hrunning hrun
    · rw [if_neg him]
      by_cases hin : i = n
      · rw [if_pos hin]
        subst hin
        rw [hget] at hpair
        exact fun hrun _ => hpair hrun hrunning
      · rw [if_neg hin]
        exact hpair

theorem CrewSafe.step (hrules : CrewRules exec act program I R G apart)
    (h : CrewSafe exec I R G apart pool) {m : Move η χ} (hm : Exclusive act apart pool m) :
    CrewSafe exec I R G apart (stepCrew exec act program pool m) := by
  cases m with
  | act e => exact h.action hrules hm
  | kill i =>
    refine ⟨h.inv, fun j hj => h.jobs j (mem_of_mem_eraseIdx hj), ?_⟩
    exact h.apart.sublist (eraseIdx_sublist _ _)
  | call i c =>
    simp only [stepCrew]
    rcases stepPool_call with heq | ⟨j, op, next, hget, hprog, heq⟩ <;> rw [heq]
    · exact h
    · exact h.call hrules hget hprog c

/-- What holds of a label when it is handed out, and is kept by all calls and actions, holds of the
labels of all programs. -/
theorem stepCrew_labels {L : ℓ → σ → Prop} (hexec : ∀ c op l s, I s → L l s → L l (exec c op s).1)
    (hact : ∀ e l s, I s → L l s → L l (act e s).1)
    (hnew : ∀ e s, I s → ∀ l ∈ (act e s).2.toList, L l (act e s).1) (hI : I pool.state)
    (h : ∀ j ∈ pool.jobs, L j.label pool.state) {m : Move η χ} :
    ∀ j ∈ (stepCrew exec act program pool m).jobs,
      L j.label (stepCrew exec act program pool m).state := by
  cases m with
  | act e =>
    intro j hj
    rcases mem_append.mp hj with hj | hj
    · exact hact e _ _ hI (h j hj)
    · rcases mem_map.mp hj with ⟨l, hl, rfl⟩
      exact hnew e _ hI l hl
  | kill i => exact fun j hj => h j (mem_of_mem_eraseIdx hj)
  | call i c =>
    simp only [stepCrew]
    rcases stepPool_call with heq | ⟨k, op, next, hget, _, heq⟩ <;> rw [heq]
    · exact h
    intro j hj
    rcases mem_or_eq_of_mem_set hj with hj | rfl
    · exact hexec c op _ _ hI (h j hj)
    · exact hexec c op _ _ hI (h k (mem_of_getElem? hget))

theorem CrewSafe.run (hrules : CrewRules exec act program I R G apart)
    (h : CrewSafe exec I R G apart pool) {moves : List (Move η χ)}
    (hmoves : Along (stepCrew exec act program) (Exclusive act apart) pool moves) :
    CrewSafe exec I R G apart (Runs.run (stepCrew exec act program) pool moves) :=
  run_invariant (fun _ _ hsafe hm => hsafe.step hrules hm) h hmoves

end Crews

/-! ## Conditions on calls

A condition on single calls and actions is used by running another crew, in which what does not meet
it goes differently, for instance fails without effect: while everything meets the condition, the two
run alike. -/

section Guards

variable {σ ω ρ χ α ℓ η : Type}

def guardedExec (ok : χ → ω → σ → Bool) (refusal : ρ) (exec : χ → ω → σ → σ × ρ) (c : χ) (op : ω)
    (s : σ) : σ × ρ :=
  if ok c op s then exec c op s else (s, refusal)

def guardedAct (okAct : η → σ → Bool) (act : η → σ → σ × Option ℓ) (e : η) (s : σ) : σ × Option ℓ :=
  if okAct e s then act e s else (s, none)

def Obeys (okAct : η → σ → Bool) (ok : χ → ω → σ → Bool) (pool : Pool σ ℓ ω ρ α) : Move η χ → Prop
  | .act e => okAct e pool.state = true
  | .call i c => ∀ j ∈ pool.jobs[i]?.toList,
      (match j.prog with
        | .done _ => true
        | .call op _ => ok c op pool.state) = true
  | .kill _ => True

instance (okAct : η → σ → Bool) (ok : χ → ω → σ → Bool) (pool : Pool σ ℓ ω ρ α) :
    ∀ m : Move η χ, Decidable (Obeys okAct ok pool m)
  | .act _ => inferInstanceAs (Decidable (_ = _))
  | .call _ _ => inferInstanceAs (Decidable (∀ j ∈ _, _))
  | .kill _ => inferInstanceAs (Decidable True)

variable {okAct : η → σ → Bool} {ok : χ → ω → σ → Bool} {refusal : ρ} {exec : χ → ω → σ → σ × ρ}
  {act : η → σ → σ × Option ℓ} {program : ℓ → Prog ω ρ α} {pool : Pool σ ℓ ω ρ α}

variable {exec' : χ → ω → σ → σ × ρ} {act' : η → σ → σ × Option ℓ} {moves : List (Move η χ)}

theorem stepCrew_agrees
    (hexec : ∀ c op s, ok c op s = true → exec' c op s = exec c op s)
    (hact : ∀ e s, okAct e s = true → act' e s = act e s) {m : Move η χ}
    (hm : Obeys okAct ok pool m) :
    stepCrew exec' act' program pool m = stepCrew exec act program pool m := by
  cases m with
  | act e => simp only [stepCrew, hact e _ hm]
  | kill i => rfl
  | call i c =>
    cases hget : pool.jobs[i]? with
    | none => simp only [stepCrew, stepPool, hget]
    | some j =>
      have hok := hm j (by rw [hget]; exact mem_singleton_self j)
      cases hprog : j.prog with
      | done r => simp only [stepCrew, stepPool, hget, Job.advance, hprog]
      | call op next =>
        rw [hprog] at hok
        simp only [stepCrew, stepPool, hget, Job.advance, hprog, hexec c op _ hok]

theorem run_agrees
    (hexec : ∀ c op s, ok c op s = true → exec' c op s = exec c op s)
    (hact : ∀ e s, okAct e s = true → act' e s = act e s)
    (h : Along (stepCrew exec act program) (Obeys okAct ok) pool moves) :
    Runs.run (stepCrew exec' act' program) pool moves =
      Runs.run (stepCrew exec act program) pool moves := by
  induction moves generalizing pool with
  | nil => rfl
  | cons m moves ih =>
    rw [run_cons, stepCrew_agrees hexec hact h.1]
    exact ih h.2

theorem run_guarded
    (h : Along (stepCrew exec act program) (Obeys okAct ok) pool moves) :
    Runs.run (stepCrew (guardedExec ok refusal exec) (guardedAct okAct act) program) pool moves =
      Runs.run (stepCrew exec act program) pool moves :=
  run_agrees (fun _ _ _ hok => if_pos hok) (fun _ _ hok => if_pos hok) h

end Guards

end PortageEngine.Library.Process
