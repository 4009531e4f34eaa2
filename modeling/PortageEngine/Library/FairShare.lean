import Mathlib

/-!
# Fair sharing by virtual time

Clients share a resource.  Each has a virtual time, and serving a client advances its time by the
client's own step.  If of two clients that both ask for service only the one that is not ahead is
ever served, then neither gets ahead of the other by more than its own step.
-/

namespace PortageEngine.Library.FairShare

variable {ι : Type} {step v : ι → Nat} {a b k : ι}

def serve [DecidableEq ι] (step : ι → Nat) (v : ι → Nat) (k : ι) : ι → Nat :=
  Function.update v k (v k + step k)

theorem serve_self [DecidableEq ι] : serve step v k k = v k + step k := by
  simp [serve]

theorem serve_other [DecidableEq ι] (step v : ι → Nat) (h : a ≠ k) : serve step v k a = v a := by
  simp [serve, h]

/-- Neither of two clients is ahead of the other by more than its own step. -/
structure Close (step v : ι → Nat) (a b : ι) : Prop where
  left : v a ≤ v b + step a
  right : v b ≤ v a + step b

theorem close_of_eq (h : v a = v b) : Close step v a b :=
  ⟨by omega, by omega⟩

theorem Close.congr {w : ι → Nat} (h : Close step v a b) (ha : w a = v a) (hb : w b = v b) :
    Close step w a b := by
  constructor
  · rw [ha, hb]
    exact h.left
  · rw [ha, hb]
    exact h.right

/-- The client to serve is not ahead of either of the two. -/
def InTurn (v : ι → Nat) (a b k : ι) : Prop :=
  (k = a → v a ≤ v b) ∧ (k = b → v b ≤ v a)

theorem Close.serve [DecidableEq ι] (h : Close step v a b) (hturn : InTurn v a b k) :
    Close step (serve step v k) a b := by
  by_cases hka : k = a
  · subst hka
    have hle := hturn.1 rfl
    by_cases hkb : k = b
    · subst hkb
      exact close_of_eq rfl
    constructor
    · rw [serve_self, serve_other _ _ (Ne.symm hkb)]
      omega
    · rw [serve_self, serve_other _ _ (Ne.symm hkb)]
      exact h.right.trans (by omega)
  · by_cases hkb : k = b
    · subst hkb
      have hle := hturn.2 rfl
      constructor
      · rw [serve_self, serve_other _ _ (Ne.symm hka)]
        exact h.left.trans (by omega)
      · rw [serve_self, serve_other _ _ (Ne.symm hka)]
        omega
    · constructor
      · rw [serve_other _ _ (Ne.symm hka), serve_other _ _ (Ne.symm hkb)]
        exact h.left
      · rw [serve_other _ _ (Ne.symm hka), serve_other _ _ (Ne.symm hkb)]
        exact h.right

theorem Close.le_max (h : Close step v a b) :
    v a ≤ v b + max (step a) (step b) ∧ v b ≤ v a + max (step a) (step b) :=
  ⟨h.left.trans (Nat.add_le_add_left (Nat.le_max_left _ _) _),
    h.right.trans (Nat.add_le_add_left (Nat.le_max_right _ _) _)⟩

end PortageEngine.Library.FairShare
