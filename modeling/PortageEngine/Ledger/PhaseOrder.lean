import PortageEngine.Ledger.BalanceAttempt
import PortageEngine.Ledger.Contexts

/-!
# Phase plans are worked off in order, one claim at a time

Every transaction of the ledger keeps the phase plans in order and never sets a claim fence back, so
along every run, whatever the attempts report:

* an attempt has at most one item that is ready or claimed, and everything before it is completed;
* the claims handed out for one item carry rising fences;
* an operation that presents another fence than the item's current one is refused, except for the
  writing half of a context save: `late_save_overwrites` has one that was overtaken by a new claim.
-/

namespace PortageEngine.Ledger

open Library Library.Rows Library.Runs

variable {l l' : Ledger} {c : PhaseClaim} {s : PhaseSystem}

/-- A transaction that presents a phase claim commits only if the item records that claim. -/
theorem Op.claimsItem_of_run {op : Op} {r : Ledger × Option PhaseClaim}
    (hpresents : op.presents = some c) (hok : op.run l = .ok r) :
    ∃ i ∈ l.items, claimsItem c i = true := by
  rcases r with ⟨l', claim⟩
  cases op.commits hok with
  | renewPhase c' lease now hk =>
    cases hpresents
    rcases renewPhaseWork_ok hk with ⟨_, ⟨_, _, hitem⟩, _⟩
    exact hitem
  | finishPhase c' outcome now hk =>
    cases hpresents
    rcases finishPhaseWork_ok hk with ⟨i, hi, hclaims, _⟩
    exact ⟨i, hi, hclaims⟩
  | finalize c' previous completed now at_ hk =>
    cases hpresents
    rcases lockTerminalPhaseClaim_ok (finalizePhaseWork_ok hk).2.2.1 with ⟨⟨i, hi, hclaims, _⟩, _⟩
    exact ⟨i, hi, hclaims⟩
  | failPhase c' previous detail now at_ hk =>
    cases hpresents
    rcases lockTerminalPhaseClaim_ok (failPhaseWorkAndJob_ok hk).1 with ⟨⟨i, hi, hclaims, _⟩, _⟩
    exact ⟨i, hi, hclaims⟩
  | budget hk => cases hk <;> cases hpresents
  | _ => cases hpresents

/-! ## Runs -/

/-- The invariant of the phase queue: plans in order, and claims whose fences rise. -/
structure PlanInv (s : System) : Prop where
  planned : Planned s.ledger
  issued : ∀ c ∈ s.issued, ∃ i ∈ s.ledger.items, i.ref = c.ref ∧ c.claimFence ≤ i.claimFence
  rising : s.issued.Pairwise fun newer older =>
    newer.id = older.id → older.claimFence < newer.claimFence

theorem planInv_init {policies : List Policy} : PlanInv (System.init policies) := by
  refine ⟨⟨(balanced_empty busy_not_idle).refs, ?_⟩, by simp [System.init],
    List.Pairwise.nil⟩
  nofun

theorem PlanInv.step {s : System} (h : PlanInv s) (op : Op) : PlanInv (step s op) := by
  rcases step_cases s op with heq | ⟨l, claim, hok, hissued, heq⟩
  · rw [heq]
    exact h
  rw [heq]
  have hpresented : ∀ c, op.presents = some c → c.ref ∈ s.ledger.refs.items := by
    intro c hc
    rcases h.issued c (hissued c hc) with ⟨i, hi, href, _⟩
    exact List.mem_map.mpr ⟨i, hi, href⟩
  rcases h.planned.run hpresented hok with ⟨hadvances, hhanded⟩
  have hold : ∀ c ∈ s.issued, ∃ i ∈ l.items, i.ref = c.ref ∧ c.claimFence ≤ i.claimFence := by
    intro c hc
    rcases h.issued c hc with ⟨i, hi, href, hfence⟩
    rcases hadvances.tended i hi with ⟨k, hk, hkref, hkfence⟩
    exact ⟨k, hk, hkref.trans href, hfence.trans hkfence⟩
  cases claim with
  | none => exact ⟨hadvances.planned, hold, h.rising⟩
  | some c =>
    have hc := hhanded c rfl
    refine ⟨hadvances.planned, ?_, List.pairwise_cons.mpr ⟨?_, h.rising⟩⟩
    · intro d hd
      rcases List.mem_cons.mp hd with rfl | hd
      · rcases hc.after with ⟨k, hk, href, hfence⟩
        exact ⟨k, hk, href, Nat.le_of_eq hfence.symm⟩
      · exact hold d hd
    · -- an older claim of the item has at most the fence that the new one raises
      intro older holder hid
      rcases hc.before with ⟨i, hi, href, hlt⟩
      rcases h.issued older holder with ⟨k, hk, hkref, hkfence⟩
      have hik : k = i := h.planned.refs.planKeys.id k hk i hi
        ((congrArg ItemRef.id hkref).trans (hid.symm.trans (congrArg ItemRef.id href).symm))
      subst hik
      exact hkfence.trans_lt hlt

theorem PlanInv.stepPhase (h : PlanInv s.system) (op : PhaseOp) :
    PlanInv (stepPhase s op).system := by
  cases op with
  | ledger op => exact h.step op
  | readContext claim value now =>
    rcases stepPhase_readContext with heq | ⟨_, _, heq⟩ <;> rw [heq] <;> exact h
  | writeContext k =>
    rcases stepPhase_writeContext with heq | ⟨_, _, _, heq⟩ <;> rw [heq] <;> exact h

/-- The item that records a claim is the one with the claim's number. -/
theorem PlanInv.fence_of_claimsItem {s : System} (h : PlanInv s)
    (hclaims : ∃ k ∈ s.ledger.items, claimsItem c k = true) {i : PhaseItem}
    (hi : i ∈ s.ledger.items) (hid : i.id = c.id) : i.claimFence = c.claimFence := by
  rcases hclaims with ⟨k, hk, hclaims⟩
  simp only [claimsItem, Bool.and_eq_true, decide_eq_true_eq] at hclaims
  have hki : k = i := h.planned.refs.planKeys.id k hk i hi (hclaims.1.1.1.trans hid.symm)
  exact hki ▸ hclaims.2

/-- Made under another fence than the current one of its item, the operation changes nothing. -/
def PhaseSystem.Refuses (s : PhaseSystem) (op : PhaseOp) : Prop :=
  ∀ c, op.presents s = some c → ∀ i ∈ s.system.ledger.items, i.id = c.id →
    i.claimFence ≠ c.claimFence → Ledger.stepPhase s op = s

theorem PlanInv.refuses (h : PlanInv s.system) {op : PhaseOp} (hop : op.isWrite = false) :
    s.Refuses op := by
  intro c hpresents i hi hid hfence
  have hnone : ¬ ∃ k ∈ s.system.ledger.items, claimsItem c k = true :=
    fun hclaims => hfence (h.fence_of_claimsItem hclaims hi hid)
  cases op with
  | ledger op =>
    rcases step_cases s.system op with heq | ⟨l, claim, hok, _, _⟩
    · simp only [Ledger.stepPhase, heq]
    · exact absurd (op.claimsItem_of_run hpresents hok) hnone
  | readContext claim value now =>
    cases hpresents
    rcases stepPhase_readContext with heq | ⟨p, hread, _⟩
    · exact heq
    · exact absurd (readContextItem_ok hread).2 hnone
  | writeContext k => cases hop

/-! ## Saves that nobody overtakes -/

/-- No save under way is made under a fence that its item has left behind. -/
def PhaseSystem.Current (s : PhaseSystem) : Prop :=
  ∀ p ∈ s.saving, ∀ i ∈ s.system.ledger.items, i.id = p.claim.id → i.claimFence = p.claim.claimFence

/-- The step hands out no claim of an item while a save under an earlier one is under way. -/
def Undisturbed (s : PhaseSystem) (op : PhaseOp) : Prop :=
  ∀ p ∈ s.saving, ∀ i ∈ (stepPhase s op).system.ledger.items, i.id = p.claim.id →
    i.claimFence = p.claim.claimFence

instance (s : PhaseSystem) (op : PhaseOp) : Decidable (Undisturbed s op) :=
  inferInstanceAs (Decidable (∀ p ∈ _, ∀ i ∈ _, _ → _))

theorem PhaseSystem.Current.step (h : PlanInv s.system) {op : PhaseOp} (hop : Undisturbed s op) :
    (stepPhase s op).Current := by
  intro p hp i hi hid
  cases op with
  | ledger op => exact hop p hp i hi hid
  | readContext claim value now =>
    rcases stepPhase_readContext with heq | ⟨q, hread, heq⟩ <;> rw [heq] at hp
    · exact hop p hp i hi hid
    rcases List.mem_cons.mp hp with rfl | hp
    · rw [heq] at hi
      rcases readContextItem_ok hread with ⟨hclaim, hclaims⟩
      rw [hclaim] at hid ⊢
      exact h.fence_of_claimsItem hclaims hi hid
    · exact hop p hp i hi hid
  | writeContext k =>
    rcases stepPhase_writeContext with heq | ⟨_, _, _, heq⟩ <;> rw [heq] at hp
    · exact hop p hp i hi hid
    · exact hop p (List.mem_of_mem_eraseIdx hp) i hi hid

theorem PhaseSystem.Current.refuses (h : s.Current) {k : Nat} : s.Refuses (.writeContext k) := by
  intro c hpresents i hi hid hfence
  rcases Option.map_eq_some_iff.mp hpresents with ⟨p, hp, rfl⟩
  exact absurd (h p (List.mem_of_getElem? hp) i hi hid) hfence

structure PhaseOrder (s : PhaseSystem) : Prop where
  one_running : ∀ i ∈ s.system.ledger.items, ∀ k ∈ s.system.ledger.items, i.attempt = k.attempt →
    i.state = .ready ∨ i.state = .claimed → k.state = .ready ∨ k.state = .claimed → i = k
  in_sequence : ∀ i ∈ s.system.ledger.items, ∀ k ∈ s.system.ledger.items, k.attempt = i.attempt →
    k.sequence < i.sequence → i.state = .ready ∨ i.state = .claimed ∨ i.state = .completed →
    k.state = .completed
  fences_rise : s.system.issued.Pairwise fun newer older =>
    newer.id = older.id → older.claimFence < newer.claimFence
  stale_refused : ∀ op : PhaseOp, op.isWrite = false → s.Refuses op

theorem PlanInv.phaseOrder (h : PlanInv s.system) : PhaseOrder s := by
  constructor
  · intro i hi k hk hattempt hirun hkrun
    exact h.planned.plan.running_unique h.planned.refs.planKeys hi hk hattempt hirun hkrun
  · intro i hi k hk hattempt hlt hstate
    rcases h.planned.plan k hk i hi hattempt hlt with hdone | ⟨_, hblocked⟩ | ⟨_, hcanceled⟩
    · exact hdone
    · rw [hblocked] at hstate
      simp at hstate
    · rw [hcanceled] at hstate
      simp at hstate
  · exact h.rising
  · exact fun op hop => h.refuses hop

/-- In every run from an empty ledger, over any number of executors, phase plans are worked off in
order and phase claims are fenced; if no save of a context is overtaken by a new claim of its item,
saves are fenced as well. -/
theorem phaseOrder_of_run (policies : List Policy) (ops : List PhaseOp) :
    let s := run stepPhase (PhaseSystem.init policies) ops
    PhaseOrder s ∧
      (Along stepPhase Undisturbed (PhaseSystem.init policies) ops → ∀ op, s.Refuses op) := by
  intro s
  have hinit : PlanInv (PhaseSystem.init policies).system := planInv_init
  have hplan : PlanInv s.system :=
    run_induction (I := fun s : PhaseSystem => PlanInv s.system) (fun s op hs => hs.stepPhase op) hinit
  refine ⟨hplan.phaseOrder, fun halong op => ?_⟩
  have hcurrent : s.Current :=
    (run_invariant (I := fun s : PhaseSystem => PlanInv s.system ∧ s.Current)
      (fun s op hs hop => ⟨hs.1.stepPhase op, .step hs.1 hop⟩)
      ⟨hinit, fun _ hp => absurd hp List.not_mem_nil⟩ halong).2
  cases hop : op.isWrite with
  | false => exact hplan.refuses hop
  | true =>
    cases op with
    | writeContext k => exact hcurrent.refuses
    | _ => cases hop

/-! ## Two executors of one phase -/

/-- The newest claim handed out reads its item, to save a document with this staging root. -/
def PhaseSystem.reads (s : PhaseSystem) (stagingRoot : String) (now : Time) : List PhaseOp :=
  (s.system.issued.take 1).map fun claim => .readContext claim { stagingRoot := stagingRoot } now

def examplePhase (owner : Worker) (now : Time) : PhaseOp :=
  .ledger (.claimPhase { owner := owner, lease := 1000000, item := 110, now := now })

/-- An executor has claimed the first phase of a job for one second. -/
def claimedPhase : List PhaseOp :=
  [.ledger (exampleCreate 1 0), .ledger (exampleClaim 1 1 0),
    .ledger (.activate (exampleStatus 1 1 .claimed 1) 1), examplePhase "executor-a" 2]

def exampleSystem (ops : List PhaseOp) : PhaseSystem :=
  run stepPhase (PhaseSystem.init [examplePolicy]) ops

/-- It reads its item and writes the document before anybody else claims the phase. -/
def savedPhase : List PhaseOp :=
  claimedPhase ++ (exampleSystem claimedPhase).reads "a" 3 ++ [.writeContext 0, examplePhase "executor-b" 2000000]

theorem phaseOrder_saved :
    (exampleSystem savedPhase).contexts.map (·.context.stagingRoot) = ["a"] ∧
      ∀ op, (exampleSystem savedPhase).Refuses op :=
  ⟨by decide +kernel, (phaseOrder_of_run [examplePolicy] savedPhase).2 (by decide +kernel)⟩

/-- It reads its item, but the next executor claims the phase and saves its document first. -/
def overtakenPhase : List PhaseOp :=
  let reclaimed := claimedPhase ++ (exampleSystem claimedPhase).reads "a" 3 ++
    [examplePhase "executor-b" 2000000]
  reclaimed ++ (exampleSystem reclaimed).reads "b" 2000001 ++ [.writeContext 0]

/-- The save that was overtaken takes effect, and the executor that holds the claim loads the document
of the one before. -/
theorem late_save_overwrites :
    let s := exampleSystem overtakenPhase
    let s' := stepPhase s (.writeContext 0)
    ¬ s.Refuses (.writeContext 0) ∧
      (s.system.issued.take 1).map (fun claim =>
        ((loadPhaseExecutionContext s.system.ledger s.contexts claim 2000002).toOption.map (·.stagingRoot),
          (loadPhaseExecutionContext s'.system.ledger s'.contexts claim 2000002).toOption.map
            (·.stagingRoot))) = [(some "b", some "a")] := by
  refine ⟨fun h => ?_, by decide +kernel⟩
  have hstale : ((PhaseOp.writeContext 0).presents (exampleSystem overtakenPhase)).any (fun c =>
      (exampleSystem overtakenPhase).system.ledger.items.any fun i =>
        i.id = c.id && i.claimFence ≠ c.claimFence) = true := by decide +kernel
  rcases Option.any_eq_true .. |>.mp hstale with ⟨c, hc, hitem⟩
  simp only [List.any_eq_true, Bool.and_eq_true, decide_eq_true_eq] at hitem
  rcases hitem with ⟨i, hi, hid, hfence⟩
  have hsame := congrArg (fun s => s.saving.length) (h c hc i hi hid hfence)
  exact absurd hsame (by decide +kernel)

/-- In every run, whatever is reported, nobody is charged for another project: attempts and jobs are
unique, and every reservation, usage record and budget names its attempt's job and that job's project. -/
theorem charges_attributed_of_run (policies : List Policy) (ops : List Op) :
    let l := (run step (System.init policies) ops).ledger
    Keyed Prod.fst l.refs.attempts ∧ Keyed Prod.fst l.refs.jobs ∧
      ∀ h ∈ l.refs.reservations ++ l.refs.usages ++ l.refs.budgets, l.refs.Held h := by
  intro l
  have hinv : PlanInv (run step (System.init policies) ops) :=
    run_induction (fun _ op hs => hs.step op) planInv_init
  have hrefs : l.refs.Sound := hinv.planned.refs
  refine ⟨hrefs.attempts, hrefs.jobs, fun h hh => ?_⟩
  rcases List.mem_append.mp hh with hh | hh
  · rcases List.mem_append.mp hh with hh | hh
    · exact hrefs.reservations_held h hh
    · exact hrefs.usages_held h hh
  · exact hrefs.budgets_held h hh

end PortageEngine.Ledger
