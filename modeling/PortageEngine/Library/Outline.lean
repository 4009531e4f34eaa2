import PortageEngine.Library.Crew

/-!
# Proof outlines

Pre- and postconditions for one program among others.  The process of a program may die (`gone`);
from then on its calls do nothing, and its conditions are void.

* `Env.Spec` is the triple of a program, `Env.Triple` that of a program that may fail, with one
  postcondition for its result and one for a failure.
* `Env.ask` is the rule for one call: its precondition has to be one that the others do not disturb.
-/

namespace PortageEngine.Library.Process

/-- What a program meets: how calls go, the invariant, what the others do, what it may do itself, and
whether its process has died. -/
structure Env (σ ω ρ χ : Type) where
  exec : χ → ω → σ → σ × ρ
  inv : σ → Prop
  rely : σ → σ → Prop
  guarantee : σ → σ → Prop
  gone : σ → Prop

namespace Env

variable {σ ω ρ χ α β ε : Type} {e : Env σ ω ρ χ}

/-- `A` holds, unless the process has died. -/
def Fact (e : Env σ ω ρ χ) (A : σ → Prop) (s : σ) : Prop :=
  e.gone s ∨ A s

def Spec (e : Env σ ω ρ χ) (A : σ → Prop) (p : Prog ω ρ α) (B : α → σ → Prop) : Prop :=
  ∀ s, e.Fact A s →
    Safe e.exec e.inv e.rely e.guarantee (fun a => e.Fact (B a)) p s

/-- `B` holds of a result, and `C` after a failure. -/
def Ends (B : α → σ → Prop) (C : σ → Prop) : Except ε α → σ → Prop
  | .ok a => B a
  | .error _ => C

def Triple (e : Env σ ω ρ χ) (A : σ → Prop) (p : ExceptT ε (Prog ω ρ) α) (B : α → σ → Prop)
    (C : σ → Prop) : Prop :=
  e.Spec A p.run (Ends B C)

/-- The others do not disturb `A`. -/
def Stable (e : Env σ ω ρ χ) (A : σ → Prop) : Prop :=
  ∀ s s', e.rely s s' → ¬ e.gone s' → A s → A s'

/-- The call does nothing once the process has died. -/
def Inert (e : Env σ ω ρ χ) (op : ω) : Prop :=
  ∀ c s, e.inv s → e.gone s → e.guarantee s (e.exec c op s).1 ∧ e.inv (e.exec c op s).1 ∧
    e.gone (e.exec c op s).1

variable {A A' C C' : σ → Prop} {B B' : α → σ → Prop} {D : β → σ → Prop}

theorem Fact.imp {s : σ} (h : e.Fact A s) (himp : ∀ s, A s → A' s) : e.Fact A' s :=
  Or.imp id (himp s) h

/-! ## Programs -/

theorem Spec.imp {p : Prog ω ρ α} (h : e.Spec A p B) (hpre : ∀ s, A' s → A s)
    (hpost : ∀ a s, B a s → B' a s) : e.Spec A' p B' :=
  fun s hs => (h s (hs.imp hpre)).imp fun a _ ha => ha.imp (hpost a)

theorem Spec.pure {a : α} (h : ∀ s, A s → B a s) : e.Spec A (pure a : Prog ω ρ α) B :=
  fun _ hs => hs.imp h

theorem Spec.bind {p : Prog ω ρ α} {f : α → Prog ω ρ β} (h : e.Spec A p B)
    (hf : ∀ a, e.Spec (B a) (f a) D) : e.Spec A (p >>= f) D :=
  fun s hs => Safe.bind (h s hs) fun a s' ha => hf a s' ha

theorem ask {op : ω} {B : ρ → σ → Prop} (hstable : e.Stable A) (hinert : e.Inert op)
    (h : ∀ c s, e.inv s → ¬ e.gone s → A s → e.guarantee s (e.exec c op s).1 ∧
      e.inv (e.exec c op s).1 ∧ e.Fact (B (e.exec c op s).2) (e.exec c op s).1)
    (hgone : ∀ s s', e.rely s s' → e.gone s → e.gone s') : e.Spec A (Prog.ask op) B := by
  intro s hs s' hrely hinv c
  by_cases hdead : e.gone s'
  · rcases hinert c s' hinv hdead with ⟨hG, hI, hgone'⟩
    exact ⟨hG, hI, .inl hgone'⟩
  · have hA : A s := hs.resolve_left fun hgone' => hdead (hgone s s' hrely hgone')
    exact h c s' hinv hdead (hstable s s' hrely hdead hA)

/-! ## Programs that may fail -/

variable {p : ExceptT ε (Prog ω ρ) α}

theorem Triple.imp (h : e.Triple A p B C) (hpre : ∀ s, A' s → A s)
    (hpost : ∀ a s, B a s → B' a s) (hfail : ∀ s, C s → C' s) : e.Triple A' p B' C' := by
  refine Spec.imp h hpre ?_
  intro r s hr
  cases r with
  | ok a => exact hpost a s hr
  | error => exact hfail s hr

theorem Triple.pure {a : α} (h : ∀ s, A s → B a s) :
    e.Triple A (pure a : ExceptT ε (Prog ω ρ) α) B C :=
  fun _ hs => hs.imp h

theorem Triple.throw {x : ε} (h : ∀ s, A s → C s) :
    e.Triple A (throw x : ExceptT ε (Prog ω ρ) α) B C :=
  fun _ hs => hs.imp h

theorem Triple.bind {f : α → ExceptT ε (Prog ω ρ) β}
    (h : e.Triple A p B C) (hf : ∀ a, e.Triple (B a) (f a) D C) : e.Triple A (p >>= f) D C := by
  intro s hs
  refine Safe.bind (h s hs) ?_
  intro r s' hr
  cases r with
  | ok a => exact hf a s' hr
  | error => exact hr

theorem Triple.onError {cleanup : Prog ω ρ Unit}
    (h : e.Triple A p B C) (hcleanup : e.Spec C cleanup fun _ => C') :
    e.Triple A (onError p cleanup) B C' := by
  refine Spec.bind h ?_
  intro r
  cases r with
  | ok a => exact Spec.pure fun _ hs => hs
  | error x => exact Spec.bind hcleanup fun _ => Spec.pure fun _ hs => hs

end Env

end PortageEngine.Library.Process
