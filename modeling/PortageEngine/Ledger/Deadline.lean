import PortageEngine.Ledger.Cleanup
import PortageEngine.Ledger.Leases
import PortageEngine.Ledger.PhaseOrder

/-!
# Runtime deadlines

A lease never outlives the runtime budget of its attempt, however often and for however long it is
renewed, and a renewal that reads the clock after the lease has run out is refused.
`ClaimInfraCleanup` takes a machine only from an attempt without a live lease, so the attempt of a
machine that is being destroyed has lost its lease for good, unless a renewal is still under way:
operations stand in the order in which they take effect, and `renewal_revives_reclaimed` has a renewal
that had read the clock earlier.
-/

namespace PortageEngine.Ledger

open List Library Library.Rows Library.Runs

variable {l l' : Ledger}

/-! ## Leases end with the runtime budget -/

/-- Every lease belongs to an attempt, is its only one and ends by the deadline on its usage
record. -/
structure Capped (l : Ledger) : Prop where
  known : ∀ x ∈ l.leases, x.attempt ∈ l.attempts.map Attempt.id
  single : ∀ x ∈ l.leases, ∀ y ∈ l.leases, x.attempt = y.attempt → x = y
  capped : ∀ x ∈ l.leases, ∃ m ∈ l.usages.map Usage.meter, m.1 = x.attempt ∧ x.expiresAt ≤ m.2

theorem Capped.winding (h : Capped l) (hw : Winding l l') : Capped l' := by
  refine ⟨fun x hx => hw.attempts (h.known x (hw.leases hx)), ?_, ?_⟩
  · exact fun x hx y hy => h.single x (hw.leases hx) y (hw.leases hy)
  · intro x hx
    rw [hw.meters]
    exact h.capped x (hw.leases hx)

theorem Capped.renewing (h : Capped l) {now : Time} (hr : Renewing now l l') : Capped l' := by
  rcases hr.leases with ⟨u, hu, p, f, hleases, hown, hf⟩
  have hkey : ∀ x, (if p x = true then f x else x).attempt = x.attempt := by
    intro x
    by_cases hp : p x = true
    · rw [if_pos hp, (hf x).1]
    · rw [if_neg hp]
  refine ⟨?_, ?_, ?_⟩
  · rw [hleases, hr.attempts]
    intro x hx
    rcases mem_update.mp hx with ⟨y, hy, rfl⟩
    rw [hkey]
    exact h.known y hy
  · rw [hleases]
    intro x hx y hy hxy
    rcases mem_update.mp hx with ⟨x₀, hx₀, rfl⟩
    rcases mem_update.mp hy with ⟨y₀, hy₀, rfl⟩
    rw [hkey, hkey] at hxy
    rw [h.single x₀ hx₀ y₀ hy₀ hxy]
  · rw [hleases, hr.usages]
    intro x hx
    rcases mem_update_cases hx with ⟨y, hy, hp, rfl⟩ | ⟨hx, _⟩
    · rw [(hf y).1]
      exact ⟨u.meter, mem_map_of_mem hu, (hown y hp).1.symm, (hf y).2⟩
    · exact h.capped x hx

theorem Capped.leasing (h : Capped l) {call : ClaimCall} (hl : Leasing call l l') : Capped l' := by
  rcases hl.started with ⟨l₁, j, charge, attemptNo, fence, hwinding, hstart, rfl⟩
  have hrecovered := h.winding hwinding
  have hfresh : ∀ x ∈ l₁.leases, x.attempt ≠ call.attempt := by
    intro x hx hattempt
    rcases mem_map.mp (hrecovered.known x hx) with ⟨a, ha, hid⟩
    exact (freshIds_spec hstart.fresh).1 a ha (hid.trans hattempt)
  refine ⟨?_, ?_, ?_⟩
  · intro x hx
    rcases mem_cons.mp hx with rfl | hx
    · exact mem_cons_self
    · exact mem_cons_of_mem _ (hrecovered.known x hx)
  · intro x hx y hy hxy
    rcases mem_cons.mp hx with rfl | hx <;> rcases mem_cons.mp hy with rfl | hy
    · rfl
    · exact absurd hxy.symm (hfresh y hy)
    · exact absurd hxy (hfresh x hx)
    · exact hrecovered.single x hx y hy hxy
  · intro x hx
    rcases mem_cons.mp hx with rfl | hx
    · exact ⟨_, mem_cons_self, rfl, Nat.min_le_right _ _⟩
    · rcases hrecovered.capped x hx with ⟨m, hm, hattempt, hcap⟩
      exact ⟨m, mem_cons_of_mem _ hm, hattempt, hcap⟩

theorem Capped.step {s : System} (h : Capped s.ledger) (op : Op) : Capped (step s op).ledger := by
  rcases step_cases s op with heq | ⟨l, claim, hok, _, heq⟩
  · rw [heq]
    exact h
  rw [heq]
  cases Op.leaseStep hok with
  | winding hw => exact h.winding hw
  | renewing now hop hr => exact h.renewing hr
  | leasing call hop hl => exact h.leasing hl

/-! ## Machines belong to attempts -/

theorem attempts_step {s : System} {op : Op} :
    s.ledger.attempts.map Attempt.id ⊆ (step s op).ledger.attempts.map Attempt.id := by
  intro k hk
  rcases step_cases s op with heq | ⟨l, claim, hok, _, heq⟩
  · rw [heq]
    exact hk
  rw [heq]
  cases Op.leaseStep hok with
  | winding hw => exact hw.attempts hk
  | renewing now hop hr =>
    rw [hr.attempts]
    exact hk
  | leasing call hop hl =>
    rcases hl.started with ⟨l₁, j, charge, attemptNo, fence, hwinding, _, rfl⟩
    exact mem_cons_of_mem _ (hwinding.attempts hk)

/-- What holds in every state that the ledger and its machines reach. -/
structure DeadlineInv (s : CleanupSystem) : Prop where
  plan : PlanInv s.system
  capped : Capped s.system.ledger
  owned : ∀ i ∈ s.instances, i.attempt ∈ s.system.ledger.attempts.map Attempt.id

variable {policies : List Policy} {t : Time}

theorem deadlineInv_init : DeadlineInv (CleanupSystem.init policies) := by
  refine ⟨planInv_init, ⟨?_, ?_, ?_⟩, ?_⟩
  all_goals exact fun _ hx => absurd hx not_mem_nil

theorem attempts_stepCleanup {s : CleanupSystem} {op : CleanupOp} :
    s.system.ledger.attempts.map Attempt.id ⊆
      (stepCleanup s op).system.ledger.attempts.map Attempt.id := by
  cases op with
  | ledger op => exact attempts_step
  | _ => exact fun _ => id

variable {s : CleanupSystem}

theorem DeadlineInv.step (h : DeadlineInv s) (op : CleanupOp) :
    DeadlineInv (stepCleanup s op) := by
  have howned : ∀ i ∈ (stepCleanup s op).instances,
      i.attempt ∈ (stepCleanup s op).system.ledger.attempts.map Attempt.id := by
    intro i hi
    refine attempts_stepCleanup ?_
    rcases accounted_step i hi with ⟨k, hk, hattempt⟩ | hknown
    · rw [← hattempt]
      exact h.owned k hk
    · exact hknown
  cases op with
  | ledger op => exact ⟨h.plan.step op, h.capped.step op, howned⟩
  | _ =>
    exact ⟨h.plan, h.capped, howned⟩

theorem deadlineInv_run {ops : List CleanupOp} :
    DeadlineInv (run stepCleanup (CleanupSystem.init policies) ops) :=
  run_induction (fun _ op h => h.step op) (deadlineInv_init)

/-! ## No resurrection -/

def CleanupOp.renewsAt : CleanupOp → Option Time
  | .ledger op => op.renewsAt
  | _ => none

/-- A renewal reads the database clock at `t` or later. -/
def CleanupOp.NotBefore (t : Time) (op : CleanupOp) : Prop :=
  ∀ now, op.renewsAt = some now → t ≤ now

theorem Lapsed.stepCleanup {k : AttemptId}
    (h : Lapsed s.system.ledger k t) {op : CleanupOp} (htime : op.NotBefore t) :
    Lapsed (stepCleanup s op).system.ledger k t := by
  cases op with
  | ledger op => exact Lapsed.step h htime
  | _ => exact h

theorem Lapsed.runCleanup {k : AttemptId}
    (h : Lapsed s.system.ledger k t) {later : List CleanupOp}
    (htime : ∀ op ∈ later, op.NotBefore t) :
    Lapsed (Runs.run Ledger.stepCleanup s later).system.ledger k t :=
  run_invariant (I := fun s : CleanupSystem => Lapsed s.system.ledger k t)
    (fun _ _ hs hop => Lapsed.stepCleanup hs hop) h (along_of_forall htime)

/-- Deadlines in a state: leases end by them, a lease that has run out is not renewed, and the
attempt of a machine that is taken for destruction never holds a live lease again. -/
structure Deadlines (s : CleanupSystem) : Prop where
  capped : ∀ x ∈ s.system.ledger.leases, (∃ u ∈ s.system.ledger.usages, u.attempt = x.attempt) ∧
    ∀ u ∈ s.system.ledger.usages, u.attempt = x.attempt →
      x.expiresAt ≤ u.meteringStartedAt + u.maxRuntimeSeconds * microsPerSecond
  lapsed : ∀ x ∈ s.system.ledger.leases, ∀ t, x.expiresAt ≤ t →
    ∀ later : List CleanupOp, (∀ op ∈ later, op.NotBefore t) → ∀ now, t ≤ now →
      ¬ holdsLease (run stepCleanup s later).system.ledger x.attempt now
  reclaimed : ∀ call instances claim,
    claimInfraCleanup s.system.ledger s.instances call = .ok (instances, some claim) →
    ∃ i ∈ s.instances, i.id = claim.id ∧
      ∀ later : List CleanupOp, (∀ op ∈ later, op.NotBefore call.now) → ∀ now, call.now ≤ now →
        ¬ holdsLease (run stepCleanup s (.claimCleanup call :: later)).system.ledger i.attempt now

theorem Capped.lapsed (h : Capped l) {x : Lease} (hx : x ∈ l.leases)
    (ht : x.expiresAt ≤ t) : Lapsed l x.attempt t := by
  refine ⟨h.known x hx, ?_⟩
  intro y hy hattempt
  rw [h.single y hy x hx hattempt]
  exact ht

theorem DeadlineInv.deadlines (h : DeadlineInv s) : Deadlines s := by
  refine ⟨?_, ?_, ?_⟩
  · intro x hx
    rcases h.capped.capped x hx with ⟨m, hm, hattempt, hcap⟩
    rcases mem_map.mp hm with ⟨u, hu, rfl⟩
    refine ⟨⟨u, hu, hattempt⟩, ?_⟩
    intro v hv hvx
    rw [← h.plan.planned.refs.usages_keyed.eq hu hv (hattempt.trans hvx.symm)]
    exact hcap
  · intro x hx t ht later htime now hnow
    exact ((h.capped.lapsed hx ht).runCleanup htime).not_holdsLease hnow
  · intro call instances claim hclaim
    rcases claimInfraCleanup_ok hclaim with ⟨_, hnone⟩ | ⟨i, hi, _, hid, hexpired, _⟩
    · cases hnone
    refine ⟨i, hi, (Option.some.inj hid).symm, ?_⟩
    intro later htime now hnow
    have hlapsed : Lapsed s.system.ledger i.attempt call.now := ⟨h.owned i hi, hexpired⟩
    have hstep : CleanupOp.NotBefore call.now (.claimCleanup call) := nofun
    exact ((hlapsed.stepCleanup hstep).runCleanup htime).not_holdsLease hnow

/-- In every state that the ledger and its machines reach, deadlines are kept. -/
theorem deadlines_of_run (policies : List Policy) (ops : List CleanupOp) :
    Deadlines (run stepCleanup (CleanupSystem.init policies) ops) :=
  (deadlineInv_run).deadlines

/-- A build is claimed, records its machine and loses its lease. -/
def abandonedRun : List CleanupOp :=
  [.ledger (exampleCreate 1 1000000),
    .ledger (exampleClaim 1 7 2000000),
    .recordInfra (exampleStatus 1 7 .provisioning 3000000)
      { provider := "pve", providerInstanceId := "vm-1", state := .other "running"
        remoteStateRef := "state/vm-1", failureDetail := "", cleanupAfter := none
        deletedAt := none } 70 3000000,
    .ledger (.recover 90000000 (fun _ => false) 32)]

/-- The attempt of the abandoned machine is over once its cleanup has been claimed. -/
theorem deadlines_abandoned :
    let s := run stepCleanup (CleanupSystem.init [examplePolicy]) abandonedRun
    let call : CleanupCall :=
      { owner := "replica-b", leaseDuration := 600000000, candidate := 70, now := 91000000 }
    ∃ instances claim, claimInfraCleanup s.system.ledger s.instances call =
        .ok (instances, some claim) ∧
      ∃ i ∈ s.instances, i.id = claim.id ∧ ∀ later : List CleanupOp,
        (∀ op ∈ later, op.NotBefore call.now) → ∀ now, call.now ≤ now →
          ¬ holdsLease (run stepCleanup s (.claimCleanup call :: later)).system.ledger i.attempt
            now := by
  intro s call
  have hclaimed : ((claimInfraCleanup s.system.ledger s.instances call).toOption.bind
      Prod.snd).isSome = true := by decide +kernel
  cases hclaim : claimInfraCleanup s.system.ledger s.instances call with
  | error e => simp [hclaim, Except.toOption] at hclaimed
  | ok r =>
    rcases r with ⟨instances, none | claim⟩
    · simp [hclaim, Except.toOption] at hclaimed
    · exact ⟨instances, claim, rfl,
        (deadlines_of_run [examplePolicy] abandonedRun).reclaimed call instances claim hclaim⟩

/-- A machine that is to be cleaned up at three seconds, and whose attempt is leased until 62. -/
def overdueRun : List CleanupOp :=
  [.ledger (exampleCreate 1 1000000),
    .ledger (exampleClaim 1 7 2000000),
    .recordInfra (exampleStatus 1 7 .provisioning 3000000)
      { provider := "pve", providerInstanceId := "vm-1", state := .other "running"
        remoteStateRef := "state/vm-1", failureDetail := "", cleanupAfter := some 3000000
        deletedAt := none } 70 3000000]

/-- The cleanup is claimed at 63 seconds; then a renewal takes effect that has found the lease
live at 61 seconds. -/
theorem renewal_revives_reclaimed :
    let s := run stepCleanup (CleanupSystem.init [examplePolicy]) overdueRun
    let call : CleanupCall :=
      { owner := "replica-b", leaseDuration := 600000000, candidate := 70, now := 63000000 }
    let late : CleanupOp :=
      .ledger (.renew (exampleStatus 1 7 .provisioning 61000000) 60000000 61000000)
    ((claimInfraCleanup s.system.ledger s.instances call).toOption.bind Prod.snd).map
        InfraCleanupClaim.id = some 70 ∧
      (∀ i ∈ s.instances, i.id = 70 → i.attempt = 7) ∧
      holdsLease (run stepCleanup s [.claimCleanup call, late]).system.ledger 7 64000000 := by
  decide +kernel

end PortageEngine.Ledger
