import PortageEngine.Capacity.Autoscale

/-!
# The autoscale decision over time

One evaluation follows another, with whatever demand and policy there is by then. Between them the
decision remembers when it last changed the desired number and since when the demand has been below
it. The bounds are those of the policy in force only when the number changes: a policy that is
narrowed has to wait for cooldown and dwell, and one that is off takes the number of active slots.
-/

namespace PortageEngine.Capacity

open Library.Runs
open Ledger (Time)

structure Evaluation where
  observation : Observation
  policy : Policy
  now : Time

def evaluate (s : DecisionState) (e : Evaluation) : DecisionState :=
  (decideAutoscale e.observation e.policy e.now s).toDecisionState

def Evaluation.raw (e : Evaluation) : Nat :=
  rawDesired e.observation e.policy

/-- What an evaluation can do. -/
inductive Evaluated (s : DecisionState) (e : Evaluation) : DecisionState → Prop
  | off (hmode : e.policy.mode = .off) :
      Evaluated s e { s with desired := e.observation.activeSlots, underTarget := none }
  | changed (hmode : e.policy.mode ≠ .off) (hraw : e.raw ≠ s.desired)
      (hcooldown : ∀ t, s.lastChanged = some t → t + e.policy.cooldown ≤ e.now)
      (hdwell : e.raw < s.desired → s.underTarget.getD e.now + e.policy.scaleDownDelay ≤ e.now) :
      Evaluated s e { desired := e.raw, underTarget := none, lastChanged := some e.now }
  | waits (hmode : e.policy.mode ≠ .off) (hraw : e.raw < s.desired) :
      Evaluated s e { s with underTarget := some (s.underTarget.getD e.now) }
  | kept (hmode : e.policy.mode ≠ .off) : Evaluated s e { s with underTarget := none }

/-- The evaluation changes the number for a reason of its own. -/
def Changes (s : DecisionState) (e : Evaluation) : Prop :=
  e.policy.mode ≠ .off ∧ (evaluate s e).desired ≠ s.desired

/-- The demand within the bounds of the policy in force is below the desired number. -/
def Under (s : DecisionState) (e : Evaluation) : Prop :=
  e.policy.mode ≠ .off ∧ e.raw < s.desired

variable {s s₀ : DecisionState} {e : Evaluation} {history : List Evaluation}

theorem evaluated (s : DecisionState) (e : Evaluation) : Evaluated s e (evaluate s e) := by
  have hready : (s.lastChanged.all fun t => decide (t + e.policy.cooldown ≤ e.now)) = true →
      ∀ t, s.lastChanged = some t → t + e.policy.cooldown ≤ e.now := by
    intro h t ht
    simpa [ht] using h
  have heq : evaluate s e = (decideDesired e.observation e.policy e.now s).1 := rfl
  rw [heq]
  unfold decideDesired
  dsimp only
  split
  · next hmode => exact .off hmode
  next hmode =>
  split
  · next hraw =>
    split
    · next hcooldown =>
      exact .changed hmode (Nat.ne_of_gt hraw) (hready hcooldown) fun h => absurd h (Nat.lt_asymm hraw)
    · exact .kept hmode
  split
  · next hraw =>
    split
    · next hchange =>
      simp only [Bool.and_eq_true, decide_eq_true_eq] at hchange
      exact .changed hmode (Nat.ne_of_lt hraw) (hready hchange.1) fun _ => hchange.2
    · exact .waits hmode hraw
  · exact .kept hmode

theorem clampSlots_bounds {value minimum maximum : Nat} (h : minimum ≤ maximum) :
    minimum ≤ clampSlots value minimum maximum ∧ clampSlots value minimum maximum ≤ maximum := by
  unfold clampSlots
  split
  · exact ⟨Nat.le_refl _, h⟩
  split
  · exact ⟨h, Nat.le_refl _⟩
  · omega

/-- What the state after a history remembers of it. -/
structure Remembers (s₀ : DecisionState) (history : List Evaluation) (s : DecisionState) : Prop where
  changed : Along evaluate (fun a d => Changes a d → ∃ t, s.lastChanged = some t ∧ d.now ≤ t)
    s₀ history
  under : ∀ t, s.underTarget = some t →
    Along evaluate (fun a d => t < d.now → Under a d) s₀ history

theorem Remembers.step (h : Remembers s₀ history (run evaluate s₀ history))
    (hordered : ∀ d ∈ history, d.now ≤ e.now) :
    Remembers s₀ (history ++ [e]) (evaluate (run evaluate s₀ history) e) := by
  have hbefore : Along evaluate (fun _ d => d.now ≤ e.now) s₀ history := along_of_forall hordered
  generalize hnext : evaluate (run evaluate s₀ history) e = next
  have hcases := evaluated (run evaluate s₀ history) e
  rw [hnext] at hcases
  cases hcases with
  | off hmode =>
    exact ⟨along_append.mpr ⟨h.changed, fun hchanges => absurd hmode hchanges.1, trivial⟩, nofun⟩
  | changed hmode hraw hcooldown hdwell =>
    refine ⟨along_append.mpr ⟨hbefore.imp fun _ d hd _ => ⟨e.now, rfl, hd⟩, ?_, trivial⟩, nofun⟩
    exact fun _ => ⟨e.now, rfl, Nat.le_refl _⟩
  | waits hmode hraw =>
    refine ⟨along_append.mpr ⟨h.changed, ?_, trivial⟩, fun t ht =>
      along_append.mpr ⟨?_, fun _ => ⟨hmode, hraw⟩, trivial⟩⟩
    · exact fun hchanges => absurd (congrArg DecisionState.desired hnext) hchanges.2
    cases hunder : (run evaluate s₀ history).underTarget with
    | some started =>
      have hstarted : started = t := by simpa [hunder] using ht
      exact hstarted ▸ h.under started hunder
    | none =>
      -- the wait begins now, and nothing was evaluated later
      have hnow : e.now = t := by simpa [hunder] using ht
      exact hbefore.imp fun _ d hd hlater => absurd (hnow ▸ hd) (Nat.not_le_of_lt hlater)
  | kept hmode =>
    refine ⟨along_append.mpr ⟨h.changed, ?_, trivial⟩, nofun⟩
    exact fun hchanges => absurd (congrArg DecisionState.desired hnext) hchanges.2

theorem remembers (s₀ : DecisionState) (hordered : history.Pairwise fun d e => d.now ≤ e.now) :
    Remembers s₀ history (run evaluate s₀ history) := by
  induction history using List.reverseRecOn with
  | nil => exact ⟨trivial, fun _ _ => trivial⟩
  | append_singleton history e ih =>
    rcases List.pairwise_append.mp hordered with ⟨hbefore, -, hlast⟩
    rw [run_append]
    exact (ih hbefore).step fun d hd => hlast d hd e (List.mem_singleton_self e)

/-- At every evaluation after a history at non-decreasing times: an evaluation that is off takes the
number of active slots. Any other one changes the desired number only to one within the bounds of
the policy in force, only if all changes before are at least the cooldown ago, and to a lesser number
only if at every evaluation of the scale-down delay before it the demand, within the bounds of the
policy then in force, was below the number then desired. -/
theorem autoscale_over_time (s₀ : DecisionState) (history : List Evaluation) (e : Evaluation)
    (hordered : (history ++ [e]).Pairwise fun d e => d.now ≤ e.now) :
    let s := run evaluate s₀ history
    (e.policy.mode = .off → (evaluate s e).desired = e.observation.activeSlots) ∧
      (Changes s e →
        (e.policy.minSlots ≤ e.policy.maxSlots →
          e.policy.minSlots ≤ (evaluate s e).desired ∧ (evaluate s e).desired ≤ e.policy.maxSlots) ∧
        Along evaluate (fun a d => Changes a d → d.now + e.policy.cooldown ≤ e.now) s₀ history ∧
        ((evaluate s e).desired < s.desired →
          Along evaluate (fun a d => e.now < d.now + e.policy.scaleDownDelay → Under a d)
            s₀ (history ++ [e]))) := by
  intro s
  rcases List.pairwise_append.mp hordered with ⟨hhistory, -, hlast⟩
  have hbefore : Along evaluate (fun _ d => d.now ≤ e.now) s₀ history :=
    along_of_forall fun d hd => hlast d hd e (List.mem_singleton_self e)
  have hremembers := remembers s₀ hhistory
  have hcases := evaluated s e
  unfold Changes
  generalize evaluate s e = next at hcases ⊢
  cases hcases with
  | off hmode => exact ⟨fun _ => rfl, fun hchanges => absurd hmode hchanges.1⟩
  | waits hmode hraw | kept hmode =>
    exact ⟨fun h => absurd h hmode, fun hchanges => absurd rfl hchanges.2⟩
  | changed hmode hraw hcooldown hdwell =>
    refine ⟨fun h => absurd h hmode, fun _ => ⟨clampSlots_bounds, ?_, fun hlower => ?_⟩⟩
    · refine hremembers.changed.imp fun a d hd hchanges => ?_
      rcases hd hchanges with ⟨t, ht, hle⟩
      exact (Nat.add_le_add_right hle _).trans (hcooldown t ht)
    · refine along_append.mpr ⟨?_, fun _ => ⟨hmode, hlower⟩, trivial⟩
      have hwait := hdwell hlower
      cases hunder : s.underTarget with
      | some started =>
        rw [hunder] at hwait
        refine (hremembers.under started hunder).imp fun a d hd hrecent => hd ?_
        exact Nat.lt_of_add_lt_add_right (lt_of_le_of_lt hwait hrecent)
      | none =>
        rw [hunder] at hwait
        refine hbefore.imp fun a d hd hrecent => absurd hwait (Nat.not_le_of_lt ?_)
        exact lt_of_lt_of_le hrecent (Nat.add_le_add_right hd _)

def narrowPolicy : Policy where
  mode := .observe
  minSlots := 0
  maxSlots := 4
  targetReady := 1
  cooldown := 60
  scaleDownDelay := 300
  pools := []
  providerMaxSlots := []

/-- The number falls from six to two once the demand has been low for the delay. -/
theorem autoscale_falls :
    let history : List Evaluation := [⟨⟨6, 2, 0, 0⟩, narrowPolicy, 100⟩]
    let e : Evaluation := ⟨⟨6, 2, 0, 0⟩, narrowPolicy, 400⟩
    Along evaluate (fun a d => e.now < d.now + e.policy.scaleDownDelay → Under a d)
      ⟨6, none, none⟩ (history ++ [e]) := by
  intro history e
  have hover := autoscale_over_time ⟨6, none, none⟩ history e (by simp [history, e])
  exact ((hover.2 ⟨by decide, by decide⟩).2.2 (by decide))

def wideEvaluation : Evaluation :=
  ⟨⟨6, 6, 0, 0⟩, { narrowPolicy with maxSlots := 6 }, 0⟩

/-- After the maximum was lowered from six to four, six slots stay desired; and when the policy is
off, the number follows the active slots at once, past the maximum and within the cooldown. -/
theorem desired_exceeds_maximum :
    (run evaluate ⟨0, none, none⟩ [wideEvaluation, ⟨⟨6, 2, 0, 0⟩, narrowPolicy, 100⟩]).desired = 6 ∧
      (run evaluate ⟨0, none, none⟩
        [wideEvaluation, ⟨⟨9, 2, 0, 0⟩, { narrowPolicy with mode := .off }, 1⟩]).desired = 9 ∧
      narrowPolicy.maxSlots = 4 ∧ narrowPolicy.cooldown = 60 := by
  decide

end PortageEngine.Capacity
