import Mathlib

/-!
# Runs of a state machine

A machine takes one operation after another: `step : σ → ω → σ`.  `run` is the state after a list of
operations, and `Along step C s ops` says that every operation of the list meets the condition `C`
in the state it is taken in.  The two induction rules turn a fact about one step into a fact about
every run.
-/

namespace PortageEngine.Library.Runs

variable {σ ω : Type}

/-- The state after the operations, in order. -/
def run (step : σ → ω → σ) (s : σ) (ops : List ω) : σ :=
  ops.foldl step s

/-- Every operation of the run meets `C` in the state it is taken in. -/
def Along (step : σ → ω → σ) (C : σ → ω → Prop) : σ → List ω → Prop
  | _, [] => True
  | s, op :: ops => C s op ∧ Along step C (step s op) ops

instance decidableAlong (step : σ → ω → σ) (C : σ → ω → Prop) [∀ s op, Decidable (C s op)] :
    ∀ s ops, Decidable (Along step C s ops)
  | _, [] => isTrue trivial
  | s, op :: ops =>
    haveI := decidableAlong step C (step s op) ops
    inferInstanceAs (Decidable (C s op ∧ Along step C (step s op) ops))

section Rules

variable {step : σ → ω → σ} {C : σ → ω → Prop} {I : σ → Prop}

variable {s : σ} {ops : List ω}

@[simp] theorem run_nil : run step s [] = s := rfl

@[simp] theorem run_cons {op : ω} :
    run step s (op :: ops) = run step (step s op) ops := rfl

theorem run_append {more : List ω} :
    run step s (ops ++ more) = run step (run step s ops) more := by
  simp [run]

theorem along_append {more : List ω} :
    Along step C s (ops ++ more) ↔ Along step C s ops ∧ Along step C (run step s ops) more := by
  induction ops generalizing s with
  | nil => simp [Along]
  | cons op ops ih => simp [Along, ih, and_assoc]

theorem run_invariant (hstep : ∀ s op, I s → C s op → I (step s op)) (hs : I s)
    (halong : Along step C s ops) : I (run step s ops) := by
  induction ops generalizing s with
  | nil => exact hs
  | cons op ops ih => exact ih (hstep s op hs halong.1) halong.2

theorem along_invariant (hstep : ∀ s op, I s → C s op → I (step s op)) (hs : I s)
    (halong : Along step C s ops) :
    Along step (fun s op => I s ∧ C s op) s ops := by
  induction ops generalizing s with
  | nil => trivial
  | cons op ops ih => exact ⟨⟨hs, halong.1⟩, ih (hstep s op hs halong.1) halong.2⟩

theorem along_of_forall {P : ω → Prop} (h : ∀ op ∈ ops, P op) :
    Along step (fun _ op => P op) s ops := by
  induction ops generalizing s with
  | nil => trivial
  | cons op ops ih => exact ⟨h op (by simp), ih fun o ho => h o (by simp [ho])⟩

theorem along_of_always (h : ∀ s op, C s op) : Along step C s ops := by
  induction ops generalizing s with
  | nil => trivial
  | cons op ops ih => exact ⟨h s op, ih⟩

theorem run_induction (hstep : ∀ s op, I s → I (step s op)) (hs : I s) :
    I (run step s ops) :=
  run_invariant (C := fun _ _ => True) (fun s op h _ => hstep s op h) hs
    (along_of_always fun _ _ => trivial)

variable {D : σ → ω → Prop}

theorem Along.and (hC : Along step C s ops) (hD : Along step D s ops) :
    Along step (fun s op => C s op ∧ D s op) s ops := by
  induction ops generalizing s with
  | nil => trivial
  | cons op ops ih => exact ⟨⟨hC.1, hD.1⟩, ih hC.2 hD.2⟩

theorem Along.imp (h : ∀ s op, C s op → D s op) (halong : Along step C s ops) :
    Along step D s ops := by
  induction ops generalizing s with
  | nil => trivial
  | cons op ops ih => exact ⟨h s op halong.1, ih halong.2⟩

end Rules

end PortageEngine.Library.Runs
