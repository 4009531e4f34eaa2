import PortageEngine.Ledger.Deadline

/-!
# Reclaimed machines

Four transactions write the row of a machine: its executor records it, a cleaner claims it, and the
cleaner reports that it is destroyed or that destroying it failed.  A cleaner holds a machine only
after the attempt has lost its lease for good, and a machine that is left over can always be claimed
again.  A machine that a cleaner has destroyed stays destroyed as long as nobody uses the exception
for ended attempts in `RecordInfra` to record it as running again.
-/

namespace PortageEngine.Ledger

open List Library Library.Rows Library.Runs

/-! ## What a step does to a row -/

/-- The row of a machine that its cleaner has destroyed. -/
def destroyedRow (now : Time) (i : InfraInstance) : InfraInstance :=
  { i with
    state := .destroyed, deletedAt := some now, failureDetail := "", cleanupOwner := ""
    cleanupLeaseExpiresAt := none }

/-- What an operation on the machines makes of one of them. -/
inductive RowStep (l : Ledger) (i : InfraInstance) : CleanupOp → InfraInstance → Prop
  | kept (op : CleanupOp) : RowStep l i op i
  | recorded (status : BuildStatus) (record : InfraRecord) (fresh : InstanceId) (now : Time)
      (attempt : AttemptId) (hfence : validateMetadataFence l status true now = .ok attempt)
      (hprovider : i.provider = record.provider)
      (hinstance : i.providerInstanceId = record.providerInstanceId)
      (htoken : i.ownerToken = (attempt, status.fenceToken)) :
      RowStep l i (.recordInfra status record fresh now) { i with
        job := status.jobId, attempt := attempt, state := record.state
        ownerToken := (attempt, status.fenceToken)
        remoteStateRef := record.remoteStateRef, failureDetail := record.failureDetail
        cleanupAfter := record.cleanupAfter, deletedAt := record.deletedAt }
  | claimed (call : CleanupCall) (howner : call.owner ≠ "")
      (heligible : cleanupEligible l call.now i = true) :
      RowStep l i (.claimCleanup call) (claimCleanupRow call i)
  | destroyed {id : InstanceId} {owner : String} {fence : Nat} {now : Time}
      (hholds : holdsCleanup id owner fence now i = true) :
      RowStep l i (.completeCleanup id owner fence now) (destroyedRow now i)
  | failed {id : InstanceId} {owner detail : String} {fence : Nat} {now : Time}
      (hholds : holdsCleanup id owner fence now i = true) :
      RowStep l i (.failCleanup id owner fence detail now) { i with
        state := .destroyFailed, failureDetail := Decimal.cutText 4096 detail, cleanupOwner := ""
        cleanupLeaseExpiresAt := none
        nextCleanupAt := now + min 300 (max 5 (i.cleanupAttempts * 5)) * microsPerSecond }

/-- A row that `RecordInfra` has just inserted. -/
structure FreshRow (l : Ledger) (instances : List InfraInstance) (op : CleanupOp)
    (i : InfraInstance) : Prop where
  recorded : ∃ status record now attempt, op = .recordInfra status record i.id now ∧
    validateMetadataFence l status true now = .ok attempt ∧
    i.ownerToken = (attempt, status.fenceToken) ∧ i.attempt = attempt ∧
    i.remoteStateRef = record.remoteStateRef ∧ i.nextCleanupAt = now
  unclaimed : i.cleanupOwner = "" ∧ i.cleanupLeaseExpiresAt = none
  fresh : ∀ k ∈ instances, k.id ≠ i.id

/-- Everything an operation can do to the machines: each row takes its step, or one is inserted. -/
inductive TableStep (l : Ledger) (instances : List InfraInstance) (op : CleanupOp) :
    List InfraInstance → Prop
  | rows (g : InfraInstance → InfraInstance) (h : ∀ i ∈ instances, RowStep l i op (g i)) :
      TableStep l instances op (instances.map g)
  | inserted (i : InfraInstance) (h : FreshRow l instances op i) :
      TableStep l instances op (i :: instances)

variable {l : Ledger} {instances instances' : List InfraInstance}

theorem tableStep_refl {op : CleanupOp} : TableStep l instances op instances := by
  have hrows : TableStep l instances op (instances.map id) := .rows id fun _ _ => .kept op
  rwa [map_id] at hrows

variable {op : CleanupOp} {now : Time} {i i' : InfraInstance} {s : Clocked} {id : InstanceId}

theorem tableStep_update {p : InfraInstance → Bool} {f : InfraInstance → InfraInstance}
    (h : ∀ i ∈ instances, p i = true → RowStep l i op (f i)) :
    TableStep l instances op (update p f instances) := by
  refine .rows (fun i => if p i then f i else i) ?_
  intro i hi
  by_cases hp : p i = true
  · rw [if_pos hp]
    exact h i hi hp
  · rw [if_neg hp]
    exact .kept op

variable {status : BuildStatus} {call : CleanupCall}

theorem tableStep_recordInfra {record : InfraRecord} {fresh : InstanceId}
    (h : recordInfra l instances status record fresh now = .ok instances') :
    TableStep l instances (.recordInfra status record fresh now) instances' := by
  replace h := passed h
  rcases bind_eq_ok.mp h with ⟨attempt, hfence, h⟩
  split at h
  · replace h := passed h
    cases h
    refine tableStep_update ?_
    intro i _ hp
    simp only [Bool.and_eq_true, decide_eq_true_eq] at hp
    exact .recorded status record fresh now attempt hfence hp.1.1 hp.1.2 hp.2
  · rcases require_bind_eq_ok.mp h with ⟨hfresh, h⟩
    cases h
    refine .inserted _ ⟨⟨status, record, now, attempt, rfl, hfence, rfl, rfl, rfl, rfl⟩,
      ⟨rfl, rfl⟩, ?_⟩
    simpa using hfresh

theorem tableStep_claimInfraCleanup (hkeyed : Keyed InfraInstance.id instances) {claim : Option InfraCleanupClaim}
    (h : claimInfraCleanup l instances call = .ok (instances', claim)) :
    TableStep l instances (.claimCleanup call) instances' := by
  rcases require_bind_eq_ok.mp h with ⟨howner, h⟩
  replace h := passed h
  cases hfind : instances.find? fun i => i.id = call.candidate && cleanupEligible l call.now i with
  | none =>
    rw [hfind] at h
    cases h
    exact tableStep_refl
  | some i =>
    rw [hfind] at h
    cases h
    have hi := find?_some hfind
    simp only [Bool.and_eq_true] at hi
    refine tableStep_update ?_
    intro k hk hp
    -- identifiers are unique, so the row that is written is the one that was found
    have hki : k = i := hkeyed.eq hk (mem_of_find?_eq_some hfind) (by simpa using hp)
    exact .claimed call (by simpa using howner) (hki ▸ hi.2)

theorem tableStep (s : CleanupSystem) (hkeyed : Keyed InfraInstance.id s.instances)
    (op : CleanupOp) :
    TableStep s.system.ledger s.instances op (stepCleanup s op).instances := by
  unfold stepCleanup
  cases hrun : op.runInstances s with
  | error e => exact tableStep_refl
  | ok instances =>
    cases op with
    | ledger op =>
      cases hrun
      exact tableStep_refl
    | recordInfra status record fresh now => exact tableStep_recordInfra hrun
    | claimCleanup call =>
      rcases map_eq_ok.mp hrun with ⟨⟨_, claim⟩, hclaim, rfl⟩
      exact tableStep_claimInfraCleanup hkeyed hclaim
    | completeCleanup id owner fence now =>
      replace hrun := passed hrun
      cases hrun
      exact tableStep_update fun i _ hp => .destroyed hp
    | failCleanup id owner fence detail now =>
      replace hrun := passed hrun
      cases hrun
      exact tableStep_update fun i _ hp => .failed hp

theorem RowStep.id_eq (h : RowStep l i op i') :
    i'.id = i.id := by
  cases h <;> rfl

theorem TableStep.keyed (h : TableStep l instances op instances')
    (hkeyed : Keyed InfraInstance.id instances) : Keyed InfraInstance.id instances' := by
  cases h with
  | rows g hg =>
    have hids : (instances.map g).map InfraInstance.id = instances.map InfraInstance.id := by
      rw [map_map]
      exact map_congr_left fun i hi => (hg i hi).id_eq
    unfold Keyed
    rw [hids]
    exact hkeyed
  | inserted i hi => exact hkeyed.cons hi.fresh

theorem TableStep.mem (h : TableStep l instances op instances') (hi' : i' ∈ instances') :
    (∃ i ∈ instances, RowStep l i op i') ∨ FreshRow l instances op i' := by
  cases h with
  | rows g hg =>
    rcases mem_map.mp hi' with ⟨i, hi, rfl⟩
    exact .inl ⟨i, hi, hg i hi⟩
  | inserted i hi =>
    rcases mem_cons.mp hi' with rfl | hold
    · exact .inr hi
    · exact .inl ⟨i', hold, .kept op⟩

theorem TableStep.next (h : TableStep l instances op instances') (hi : i ∈ instances) :
    ∃ i' ∈ instances', RowStep l i op i' := by
  cases h with
  | rows g hg => exact ⟨g i, mem_map_of_mem hi, hg i hi⟩
  | inserted k hk => exact ⟨i, mem_cons_of_mem _ hi, .kept op⟩

/-! ## The system with the database clock -/

/-- The database clock as the operation reads it.  Of the transactions of the ledger only the
renewals of a lease matter here. -/
def CleanupOp.clock : CleanupOp → Option Time
  | .ledger op => op.renewsAt
  | .recordInfra _ _ _ now => some now
  | .claimCleanup call => some call.now
  | .completeCleanup _ _ _ now => some now
  | .failCleanup _ _ _ _ now => some now

/-- The ledger with its machines and the last reading of the database clock. -/
structure Clocked where
  cleanup : CleanupSystem
  clock : Time

def Clocked.init (policies : List Policy) : Clocked where
  cleanup := CleanupSystem.init policies
  clock := 0

def stepClocked (s : Clocked) (op : CleanupOp) : Clocked where
  cleanup := stepCleanup s.cleanup op
  clock := op.clock.elim s.clock (max s.clock)

/-- The call takes effect in the order of the clock readings. -/
def OnTime (s : Clocked) (op : CleanupOp) : Prop :=
  ∀ now, op.clock = some now → s.clock ≤ now

instance (s : Clocked) (op : CleanupOp) : Decidable (OnTime s op) :=
  match h : op.clock with
  | none => isTrue fun _ hnow => by rw [h] at hnow; cases hnow
  | some t =>
    if ht : s.clock ≤ t then isTrue fun _ hnow => by rw [h] at hnow; cases hnow; exact ht
    else isFalse fun hon => ht (hon t h)

theorem OnTime.clock_le :
    s.clock ≤ (stepClocked s op).clock := by
  unfold stepClocked
  cases op.clock with
  | none => exact Nat.le_refl _
  | some now => exact Nat.le_max_left _ _

theorem OnTime.clock_eq (h : OnTime s op) (hop : op.clock = some now) :
    (stepClocked s op).clock = now := by
  unfold stepClocked
  rw [hop]
  exact Nat.max_eq_right (h now hop)

theorem OnTime.notBefore (h : OnTime s op) :
    op.NotBefore s.clock := by
  intro now hnow
  cases op with
  | ledger op => exact h now hnow
  | _ => cases hnow

theorem Lapsed.mono {k : AttemptId} {t t' : Time} (h : Lapsed l k t) (ht : t ≤ t') :
    Lapsed l k t' :=
  ⟨h.known, fun x hx hk => (h.expired x hx hk).trans ht⟩

theorem Lapsed.stepClocked {k : AttemptId} (h : Lapsed s.cleanup.system.ledger k s.clock)
    (hop : OnTime s op) :
    Lapsed (Ledger.stepClocked s op).cleanup.system.ledger k (Ledger.stepClocked s op).clock :=
  (Lapsed.stepCleanup h hop.notBefore).mono OnTime.clock_le

/-! ## Destroyed machines -/

/-- The machine is recorded as destroyed, with the time of its deletion. -/
def InfraInstance.Destroyed (i : InfraInstance) : Prop :=
  i.state = .destroyed ∧ i.deletedAt ≠ none

instance (i : InfraInstance) : Decidable i.Destroyed :=
  inferInstanceAs (Decidable (_ ∧ _))

/-- The record says that the machine is destroyed. -/
def InfraRecord.Destroyed (r : InfraRecord) : Prop :=
  r.state = .destroyed ∧ r.deletedAt ≠ none

instance (r : InfraRecord) : Decidable r.Destroyed :=
  inferInstanceAs (Decidable (_ ∧ _))

/-- The fence of `RecordInfra` passes by its exception for ended attempts only. -/
def byException (l : Ledger) (status : BuildStatus) (now : Time) : Bool :=
  (validateMetadataFence l status false now).toOption.isNone

/-- `RecordInfra` names the Terraform workspace of the machine, and a late executor, one whose
attempt has ended, does not record a destroyed machine as anything else. -/
def Considerate (s : Clocked) : CleanupOp → Prop
  | .recordInfra status record _ now => record.remoteStateRef ≠ "" ∧
      (byException s.cleanup.system.ledger status now = true → ¬ record.Destroyed →
        ∀ i ∈ s.cleanup.instances, i.provider = record.provider →
          i.providerInstanceId = record.providerInstanceId → ¬ i.Destroyed)
  | _ => True

instance (s : Clocked) : ∀ op, Decidable (Considerate s op)
  | .recordInfra _ _ _ _ => inferInstanceAs (Decidable (_ ∧ (_ → _ → ∀ i ∈ _, _)))
  | .ledger _ | .claimCleanup _ | .completeCleanup _ _ _ _ | .failCleanup _ _ _ _ _ =>
    isTrue trivial

theorem holdsLease_of_strict {attempt : AttemptId}
    (h : validateMetadataFence l status true now = .ok attempt)
    (hstrict : byException l status now = false) : holdsLease l attempt now := by
  unfold byException at hstrict
  cases hfence : validateMetadataFence l status false now with
  | error e => simp [hfence, Except.toOption] at hstrict
  | ok attempt' =>
    have hsame : attempt' = attempt := by
      have h₁ := (validateMetadataFence_ok h).1
      have h₂ := (validateMetadataFence_ok hfence).1
      exact Option.some.inj (h₂.symm.trans h₁)
    rcases bind_eq_ok.mp hfence with ⟨_, _, hfence⟩
    replace hfence := passed hfence
    rcases require_bind_eq_ok.mp hfence with ⟨hany, hfence⟩
    cases hfence
    simp only [any_eq_true, Bool.and_eq_true, Bool.or_eq_true, decide_eq_true_eq,
      Bool.false_eq_true, false_and, or_false] at hany
    rcases hany with ⟨a, _, _, j, _, _, x, hx, ⟨⟨hxa, hlive⟩, _⟩, _⟩
    exact ⟨x, hx, hxa.trans hsame, hlive⟩

/-! ## What holds in every state -/

/-- The longest wait before a machine is offered to cleaners again. -/
def maxCleanupWait : Time :=
  300 * microsPerSecond

structure Kempt (s : Clocked) (i : InfraInstance) : Prop where
  token : i.ownerToken.1 = i.attempt
  claimed : i.cleanupOwner ≠ "" ∨ i.cleanupLeaseExpiresAt ≠ none →
    Lapsed s.cleanup.system.ledger i.attempt s.clock
  workspace : i.remoteStateRef ≠ ""
  soon : i.nextCleanupAt ≤ s.clock + maxCleanupWait

theorem Kempt.later (h : Kempt s i) (hop : OnTime s op) : Kempt (stepClocked s op) i :=
  ⟨h.token, fun hclaimed => (h.claimed hclaimed).stepClocked hop, h.workspace,
    h.soon.trans (Nat.add_le_add_right OnTime.clock_le _)⟩

theorem lapsed_of_eligible (hknown : i.attempt ∈ l.attempts.map Attempt.id)
    (h : cleanupEligible l now i = true) :
    Lapsed l i.attempt now := by
  refine ⟨hknown, ?_⟩
  simp only [cleanupEligible, Bool.and_eq_true, Bool.not_eq_true', any_eq_false,
    decide_eq_true_eq, not_and, Nat.not_lt] at h
  exact h.1.2

theorem Kempt.row (h : Kempt s i)
    (hknown : i.attempt ∈ s.cleanup.system.ledger.attempts.map Attempt.id) (hop : OnTime s op)
    (hconsiderate : Considerate s op) (hrow : RowStep s.cleanup.system.ledger i op i') :
    Kempt (stepClocked s op) i' := by
  have hlater := h.later hop
  cases hrow with
  | kept => exact hlater
  | recorded status record fresh now attempt hfence _ _ htoken =>
    -- the token names the attempt, so the row stays with it
    have hattempt : attempt = i.attempt := by rw [← h.token, htoken]
    subst hattempt
    exact ⟨rfl, hlater.claimed, hconsiderate.1, hlater.soon⟩
  | claimed call howner heligible =>
    have hlapsed := lapsed_of_eligible hknown heligible
    refine ⟨h.token, ?_, h.workspace, hlater.soon⟩
    intro _
    rw [hop.clock_eq rfl]
    exact hlapsed
  | destroyed hholds =>
    exact ⟨h.token, by simp [destroyedRow], h.workspace, hlater.soon⟩
  | failed hholds =>
    refine ⟨h.token, by simp, h.workspace, ?_⟩
    rw [hop.clock_eq rfl]
    exact Nat.add_le_add_left (Nat.mul_le_mul_right _ (Nat.min_le_left _ _)) _

theorem FreshRow.kempt (h : FreshRow s.cleanup.system.ledger s.cleanup.instances op i)
    (hop : OnTime s op) (hconsiderate : Considerate s op) : Kempt (stepClocked s op) i := by
  rcases h.recorded with ⟨status, record, now, attempt, rfl, _, htoken, hattempt, href, hnext⟩
  refine ⟨by rw [htoken, hattempt], ?_, href ▸ hconsiderate.1, ?_⟩
  · intro hclaimed
    rw [h.unclaimed.1, h.unclaimed.2] at hclaimed
    simp at hclaimed
  · rw [hop.clock_eq rfl, hnext]
    exact Nat.le_add_right _ _

/-- What holds in every state that a considerate run reaches. -/
structure ReclaimInv (s : Clocked) : Prop where
  deadline : DeadlineInv s.cleanup
  keyed : Keyed InfraInstance.id s.cleanup.instances
  kempt : ∀ i ∈ s.cleanup.instances, Kempt s i

theorem reclaimInv_init {policies : List Policy} : ReclaimInv (Clocked.init policies) :=
  ⟨deadlineInv_init, nodup_nil, fun _ hi => absurd hi not_mem_nil⟩

theorem ReclaimInv.step (h : ReclaimInv s) (hop : OnTime s op) (hconsiderate : Considerate s op) :
    ReclaimInv (stepClocked s op) := by
  have htable := tableStep s.cleanup h.keyed op
  refine ⟨h.deadline.step op, htable.keyed h.keyed, ?_⟩
  intro i' hi'
  rcases htable.mem hi' with ⟨i, hi, hrow⟩ | hfresh
  · exact (h.kempt i hi).row (h.deadline.owned i hi) hop hconsiderate hrow
  · exact hfresh.kempt hop hconsiderate

/-- A machine that a cleaner has destroyed: its attempt has lost its lease for good and no cleaner
holds it. -/
structure Retired (s : Clocked) (i : InfraInstance) : Prop where
  destroyed : i.Destroyed
  unclaimed : i.cleanupLeaseExpiresAt = none
  lapsed : Lapsed s.cleanup.system.ledger i.attempt s.clock

/-- A destroyed machine stays destroyed: nobody can claim it, and an executor that still holds its
lease cannot belong to it. -/
theorem Retired.row (h : Retired s i) (hi : i ∈ s.cleanup.instances) (hkempt : Kempt s i)
    (hop : OnTime s op) (hconsiderate : Considerate s op)
    (hrow : RowStep s.cleanup.system.ledger i op i') :
    Retired (stepClocked s op) i' := by
  have hlapsed := h.lapsed.stepClocked hop
  cases hrow with
  | kept => exact ⟨h.destroyed, h.unclaimed, hlapsed⟩
  | recorded status record fresh now attempt hfence hprovider hinstance htoken =>
    have hattempt : attempt = i.attempt := by rw [← hkempt.token, htoken]
    subst hattempt
    refine ⟨?_, h.unclaimed, hlapsed⟩
    by_contra hundestroyed
    cases hexception : byException s.cleanup.system.ledger status now with
    | true =>
      exact hconsiderate.2 hexception hundestroyed i hi hprovider hinstance h.destroyed
    | false =>
      exact h.lapsed.not_holdsLease (hop now rfl) (holdsLease_of_strict hfence hexception)
  | claimed call _ heligible =>
    simp [cleanupEligible, h.destroyed.1] at heligible
  | destroyed hholds | failed hholds =>
    simp [holdsCleanup, h.unclaimed] at hholds

/-- The state holds a machine of this identifier that a cleaner has destroyed. -/
structure Buried (id : InstanceId) (s : Clocked) : Prop where
  inv : ReclaimInv s
  retired : ∃ i ∈ s.cleanup.instances, i.id = id ∧ Retired s i

theorem Buried.step (h : Buried id s) (hop : OnTime s op)
    (hconsiderate : Considerate s op) : Buried id (stepClocked s op) := by
  rcases h.retired with ⟨i, hi, rfl, hretired⟩
  rcases (tableStep s.cleanup h.inv.keyed op).next hi with ⟨i', hi', hrow⟩
  exact ⟨h.inv.step hop hconsiderate, i', hi', hrow.id_eq,
    hretired.row hi (h.inv.kempt i hi) hop hconsiderate hrow⟩

theorem Buried.destroyed (h : Buried id s) :
    (∃ i ∈ s.cleanup.instances, i.id = id) ∧
      ∀ i ∈ s.cleanup.instances, i.id = id → i.Destroyed := by
  rcases h.retired with ⟨i, hi, hid, hretired⟩
  refine ⟨⟨i, hi, hid⟩, ?_⟩
  intro k hk hkid
  rw [h.inv.keyed.eq hk hi (hkid.trans hid.symm)]
  exact hretired.destroyed

theorem ReclaimInv.buried (h : ReclaimInv s) {owner : String} {fence : Nat}
    (hok : completeInfraCleanup s.cleanup.instances id owner fence now = .ok instances)
    (hop : OnTime s (.completeCleanup id owner fence now)) :
    Buried id (stepClocked s (.completeCleanup id owner fence now)) := by
  rcases require_bind_eq_ok.mp hok with ⟨hany, hok⟩
  rcases any_eq_true.mp hany with ⟨i, hi, hholds⟩
  have hfields := hholds
  simp only [holdsCleanup, Bool.and_eq_true, decide_eq_true_eq] at hfields
  have hclaimed : i.cleanupLeaseExpiresAt ≠ none := by
    intro hnone
    simp [hnone] at hfields
  have hlapsed := ((h.kempt i hi).claimed (.inr hclaimed)).stepClocked hop
  have hinstances : (stepClocked s (.completeCleanup id owner fence now)).cleanup.instances =
      update (holdsCleanup id owner fence now) (destroyedRow now) s.cleanup.instances := by
    have hrun : completeInfraCleanup s.cleanup.instances id owner fence now =
        .ok (update (holdsCleanup id owner fence now) (destroyedRow now) s.cleanup.instances) :=
      require_bind_eq_ok.mpr ⟨hany, rfl⟩
    simp only [stepClocked, stepCleanup, CleanupOp.runInstances, hrun]
  have hmem : destroyedRow now i ∈
      (stepClocked s (.completeCleanup id owner fence now)).cleanup.instances := by
    rw [hinstances]
    exact mem_update.mpr ⟨i, hi, if_pos hholds⟩
  exact ⟨h.step hop trivial, _, hmem, hfields.1.1.1, ⟨rfl, Option.some_ne_none now⟩, rfl, hlapsed⟩

/-! ## Claimable machines -/

/-- A machine that is gone, for the query of `ClaimInfraCleanup`. -/
def InfraInstance.Gone (i : InfraInstance) : Prop :=
  i.state = .destroyed ∨ i.state = .terminated ∨ i.deletedAt ≠ none

theorem claimInfraCleanup_leftover (hi : i ∈ instances) (hpresent : ¬ i.Gone)
    (hworkspace : i.remoteStateRef ≠ "")
    (hover : ∃ a, l.attempt? i.attempt = some a ∧ attemptOver a.state = true)
    (howner : call.owner ≠ "") (hlease : 0 < call.leaseDuration)
    (hcandidate : call.candidate = i.id) (hnext : i.nextCleanupAt ≤ call.now)
    (hcleaner : ∀ t, i.cleanupLeaseExpiresAt = some t → t ≤ call.now)
    (hexpired : ¬ holdsLease l i.attempt call.now) :
    ∃ instances' claim, claimInfraCleanup l instances call = .ok (instances', some claim) ∧
      claim.id = i.id := by
  have heligible : cleanupEligible l call.now i = true := by
    rcases hover with ⟨a, ha, hover⟩
    simp only [InfraInstance.Gone, not_or, not_not] at hpresent
    have hdone : (i.cleanupLeaseExpiresAt.all fun t => t ≤ call.now) = true := by
      cases hc : i.cleanupLeaseExpiresAt with
      | none => rfl
      | some t => simpa using hcleaner t hc
    have hfree : (l.leases.any fun x => x.attempt = i.attempt && call.now < x.expiresAt) =
        false := by
      simp only [any_eq_false, Bool.and_eq_true, decide_eq_true_eq]
      exact fun x hx hlive => hexpired ⟨x, hx, hlive⟩
    simp [cleanupEligible, hpresent, hworkspace, hnext, hdone, hfree, ha, hover]
  cases hfind : instances.find? fun i =>
      i.id = call.candidate && cleanupEligible l call.now i with
  | none =>
    have := find?_eq_none.mp hfind i hi
    simp [hcandidate, heligible] at this
  | some k =>
    have hk := find?_some hfind
    simp only [Bool.and_eq_true, decide_eq_true_eq] at hk
    refine ⟨update (fun i => i.id = k.id) (claimCleanupRow call) instances,
      ⟨k.id, k.provider, k.providerInstanceId, k.remoteStateRef, k.cleanupFence + 1⟩, ?_,
      hk.1.trans hcandidate⟩
    refine require_bind_eq_ok.mpr ⟨by simpa using howner, ?_⟩
    refine require_bind_eq_ok.mpr ⟨by simpa using hlease, ?_⟩
    rw [hfind]
    rfl

/-! ## Cleanup is safe and complete -/

/-- Cleanup in a state: a cleaner's claim excludes the executor's lease, what a cleaner has
destroyed stays destroyed, and what is left over can be claimed within bounded time. -/
structure CleanupSound (s : Clocked) : Prop where
  exclusive : ∀ i ∈ s.cleanup.instances, i.cleanupOwner ≠ "" → ∀ now, s.clock ≤ now →
    ¬ holdsLease s.cleanup.system.ledger i.attempt now
  final : ∀ id owner fence now instances,
    completeInfraCleanup s.cleanup.instances id owner fence now = .ok instances →
    ∀ later, Along stepClocked (fun s op => OnTime s op ∧ Considerate s op) s
        (.completeCleanup id owner fence now :: later) →
      let s' := run stepClocked s (.completeCleanup id owner fence now :: later)
      (∃ i ∈ s'.cleanup.instances, i.id = id) ∧
        ∀ i ∈ s'.cleanup.instances, i.id = id → i.Destroyed
  claimable : ∀ i ∈ s.cleanup.instances, ¬ i.Gone →
    (∃ a, s.cleanup.system.ledger.attempt? i.attempt = some a ∧ attemptOver a.state = true) →
    i.nextCleanupAt ≤ s.clock + maxCleanupWait ∧
    ∀ call : CleanupCall, call.owner ≠ "" → 0 < call.leaseDuration → call.candidate = i.id →
      i.nextCleanupAt ≤ call.now → (∀ t, i.cleanupLeaseExpiresAt = some t → t ≤ call.now) →
      ¬ holdsLease s.cleanup.system.ledger i.attempt call.now →
      ∃ instances claim, claimInfraCleanup s.cleanup.system.ledger s.cleanup.instances call =
        .ok (instances, some claim) ∧ claim.id = i.id

theorem ReclaimInv.cleanupSound (h : ReclaimInv s) : CleanupSound s := by
  refine ⟨?_, ?_, ?_⟩
  · intro i hi howner now hnow
    exact ((h.kempt i hi).claimed (.inl howner)).not_holdsLease hnow
  · intro id owner fence now instances hok later halong
    have hburied := run_invariant (I := Buried id)
      (fun _ _ hs hC => hs.step hC.1 hC.2) (h.buried hok halong.1.1) halong.2
    exact hburied.destroyed
  · intro i hi hpresent hover
    have hkempt := h.kempt i hi
    refine ⟨hkempt.soon, ?_⟩
    intro call howner hlease hcandidate hnext hcleaner hexpired
    exact claimInfraCleanup_leftover hi hpresent hkempt.workspace hover howner hlease hcandidate
      hnext hcleaner hexpired

/-- In every state that a run without late records of destroyed machines reaches, cleanup is safe
and complete. -/
theorem cleanup_sound_of_considerate (policies : List Policy) (ops : List CleanupOp)
    (halong : Along stepClocked (fun s op => OnTime s op ∧ Considerate s op)
      (Clocked.init policies) ops) :
    CleanupSound (run stepClocked (Clocked.init policies) ops) := by
  have hinv : ReclaimInv (run stepClocked (Clocked.init policies) ops) :=
    run_invariant (fun _ _ hs hC => hs.step hC.1 hC.2) (reclaimInv_init) halong
  exact hinv.cleanupSound

/-- The machine of the example runs as its executor records it. -/
def exampleRecord : InfraRecord where
  provider := "pve"
  providerInstanceId := "vm-1"
  state := .other "running"
  remoteStateRef := "state/vm-1"
  failureDetail := ""
  cleanupAfter := none
  deletedAt := none

/-- A build records its machine and is canceled; a cleaner takes the machine. -/
def reclaimedRun : List CleanupOp :=
  [.ledger (exampleCreate 1 1000000),
    .ledger (exampleClaim 1 7 2000000),
    .recordInfra (exampleStatus 1 7 .provisioning 3000000) exampleRecord 70 3000000,
    .ledger (.cancel 1 "canceled by user" 4000000),
    .claimCleanup
      { owner := "replica-b", leaseDuration := 600000000, candidate := 70, now := 5000000 }]

/-- Cleanup of the canceled build's machine. -/
theorem cleanup_sound_reclaimed :
    CleanupSound (run stepClocked (Clocked.init [examplePolicy]) reclaimedRun) :=
  cleanup_sound_of_considerate [examplePolicy] reclaimedRun (by decide +kernel)

/-- The executor of the canceled build closes the inbound access of its machine and records it as
running, after the cleaner has destroyed it: the row is no longer destroyed. -/
theorem destroyed_machine_revived :
    let s := run stepClocked (Clocked.init [examplePolicy]) reclaimedRun
    let complete : CleanupOp := .completeCleanup 70 "replica-b" 1 6000000
    let late : CleanupOp :=
      .recordInfra (exampleStatus 1 7 .provisioning 7000000) exampleRecord 71 7000000
    Along stepClocked OnTime s [complete, late] ∧
      ((completeInfraCleanup s.cleanup.instances 70 "replica-b" 1 6000000).toOption.isSome = true) ∧
      ((run stepClocked s [complete]).cleanup.instances.map fun i =>
        (i.id, i.state, i.deletedAt)) = [(70, .destroyed, some 6000000)] ∧
      ((run stepClocked s [complete, late]).cleanup.instances.map fun i =>
        (i.id, i.state, i.deletedAt)) = [(70, .other "running", none)] := by
  decide +kernel

end PortageEngine.Ledger
