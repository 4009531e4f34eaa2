import PortageEngine.Compile.Slots
import PortageEngine.Ledger.System

/-!
# Compile slots are never overcommitted

Leases end by the clock, so the slots in use only shrink between two grants: a lease that has run
out is never renewed.  A grant is made when the slots in use and the new ones fit what the worker
advertises; from then on the leases up to it stay within that count, whatever the worker advertises
later.
-/

namespace PortageEngine.Compile

open List Library Library.Rows Library.Runs
open Ledger (Time)

variable {x : SlotLease} {t t' now : Time} {leases leases' : List SlotLease}
  {workers : List CompileWorker} {l : Ledger}

theorem SlotLease.live_of_le (ht : t ≤ t') (h : x.live t' = true) :
    x.live t = true := by
  simp only [SlotLease.live, Bool.and_eq_true, decide_eq_true_eq] at h ⊢
  exact ⟨h.1, ht.trans_lt h.2⟩

/-! ## What a call does -/

/-- What a lease keeps from its grant to its end. -/
def SlotLease.core (x : SlotLease) : LeaseId × WorkerId × Nat × Nat :=
  (x.id, x.worker, x.fence, x.slots)

/-- Every lease is carried over, and none that was over at `t` is live at `t'`. -/
def Wanes (t t' : Time) (leases leases' : List SlotLease) : Prop :=
  ∃ g : SlotLease → SlotLease, leases' = leases.map g ∧
    ∀ x ∈ leases, (g x).core = x.core ∧ ((g x).live t' = true → x.live t = true)

theorem wanes_of_le (ht : t ≤ t') :
    Wanes t t' leases leases :=
  ⟨id, by simp, fun _ _ => ⟨rfl, SlotLease.live_of_le ht⟩⟩

theorem wanes_update (ht : t ≤ t') {p : SlotLease → Bool} {f : SlotLease → SlotLease}
    (hcore : ∀ x, (f x).core = x.core)
    (hlive : ∀ x, p x = true → (f x).live t' = true → x.live t = true) :
    Wanes t t' leases (update p f leases) := by
  refine ⟨fun x => if p x then f x else x, rfl, ?_⟩
  intro x _
  dsimp only
  by_cases hp : p x = true
  · rw [if_pos hp]
    exact ⟨hcore x, hlive x hp⟩
  · rw [if_neg hp]
    exact ⟨rfl, SlotLease.live_of_le ht⟩

/-- No worker goes away, and no fence goes back. -/
structure Lasting (workers workers' : List CompileWorker) : Prop where
  keyed : Keyed CompileWorker.id workers → Keyed CompileWorker.id workers'
  fences : ∀ w ∈ workers, ∃ w' ∈ workers', w'.id = w.id ∧ w.nextFence ≤ w'.nextFence

theorem lasting_refl : Lasting workers workers :=
  ⟨id, fun w hw => ⟨w, hw, rfl, Nat.le_refl _⟩⟩

theorem lasting_update {p : CompileWorker → Bool} {f : CompileWorker → CompileWorker}
    (hid : ∀ w, (f w).id = w.id) (hfence : ∀ w, w.nextFence ≤ (f w).nextFence) :
    Lasting workers (update p f workers) := by
  refine ⟨fun h => h.update hid, ?_⟩
  intro w hw
  refine ⟨_, mem_update.mpr ⟨w, hw, rfl⟩, ?_⟩
  by_cases hp : p w = true
  · simp only [hp, if_true]
    exact ⟨hid w, hfence w⟩
  · simp [hp]

theorem lasting_heartbeat {hash : PoolHash} {workers' : List CompileWorker}
    {heartbeat : WorkerHeartbeat} {fresh : WorkerId}
    (h : heartbeatCompileWorker hash workers leases heartbeat fresh now = .ok workers') :
    Lasting workers workers' := by
  rcases bind_eq_ok.mp h with ⟨pool, _, h⟩
  split at h
  · rcases require_bind_eq_ok.mp h with ⟨hfresh, h⟩
    cases h
    refine ⟨fun hk => hk.cons ?_, fun w hw => ⟨w, mem_cons_of_mem _ hw, rfl, Nat.le_refl _⟩⟩
    simpa using hfresh
  · replace h := passed h
    cases h
    exact lasting_update (fun _ => rfl) fun _ => Nat.le_refl _

/-- A reservation on the worker `w`. -/
structure Granted (s s' : CompileSystem) (w : CompileWorker) (x : SlotLease) (g : Grant) : Prop where
  worker : w ∈ s.workers
  workers : s'.workers = update (fun k => k.id = w.id)
    (fun k => { k with nextFence := k.nextFence + 1 }) s.workers
  leases : s'.leases = x :: s.leases
  grants : s'.grants = g :: s.grants
  lease : x.worker = w.id ∧ x.fence = w.nextFence + 1
  grant : g.lease = x.id ∧ g.worker = x.worker ∧ g.fence = x.fence ∧ g.requested = x.slots
  advertised : Keyed CompileWorker.id s.workers → g.advertised = w.maxSlots
  room : ∃ t, s.clock ≤ t ∧ t ≤ s'.clock ∧ liveSlots s.leases w.id t + x.slots ≤ w.maxSlots

inductive Effect (s s' : CompileSystem) : Prop
  | waned (workers : Lasting s.workers s'.workers) (grants : s'.grants = s.grants)
      (leases : Wanes s.clock s'.clock s.leases s'.leases)
  | granted (w : CompileWorker) (x : SlotLease) (g : Grant) (h : Granted s s' w x g)

variable {hash : PoolHash} {s s' : CompileSystem} {op : CompileOp}

theorem le_foldl_max {start : Time} {readings : List Time} :
    start ≤ readings.foldl max start ∧ ∀ t ∈ readings, t ≤ readings.foldl max start := by
  induction readings generalizing start with
  | nil => exact ⟨Nat.le_refl _, fun _ ht => absurd ht not_mem_nil⟩
  | cons now readings ih =>
    have hrest : max start now ≤ readings.foldl max (max start now) ∧
        ∀ t ∈ readings, t ≤ readings.foldl max (max start now) := ih
    refine ⟨(Nat.le_max_left _ _).trans hrest.1, ?_⟩
    intro t ht
    rcases mem_cons.mp ht with rfl | ht
    · exact (Nat.le_max_right _ _).trans hrest.1
    · exact hrest.2 t ht

theorem clock_le_step (hash : PoolHash) (s : CompileSystem) (op : CompileOp) :
    s.clock ≤ (stepCompile hash s op).clock :=
  le_foldl_max.1

theorem readings_le_clock (hash : PoolHash) (s : CompileSystem)
    (ht : t ∈ op.readings) : t ≤ (stepCompile hash s op).clock :=
  le_foldl_max.2 t ht

theorem OnTime.clock_le (h : OnTime s op) (ht : t ∈ op.readings) : s.clock ≤ t :=
  rel_of_pairwise_cons h ht

theorem granted_reserve {request : ReservationRequest} {call : ReserveCall}
    {lease : Option BuilderLease} (hon : OnTime s (.reserve l request call))
    (hok : reserveCompileSlots hash l s.workers s.leases request call =
      .ok ((workers, leases), lease)) (hs' : s' = { s with
      workers := workers, leases := leases
      grants := (lease.map (s.grant request)).toList ++ s.grants
      clock := (stepCompile hash s (.reserve l request call)).clock }) :
    Effect s s' := by
  have hclock : s.clock ≤ s'.clock := by
    rw [hs']
    exact clock_le_step hash s _
  rcases bind_eq_ok.mp hok with ⟨pool, _, hok⟩
  dsimp only at hok
  cases hfind : s.workers.find? fun w => w.id = call.candidate &&
      hasRoom s.leases pool (pool.identity hash) request call.selectedAt w with
  | none =>
    rw [hfind] at hok
    cases hok
    subst hs'
    exact .waned (lasting_refl) rfl (wanes_of_le hclock)
  | some w =>
    rw [hfind] at hok
    replace hok := passed hok
    replace hok := passed hok
    cases hok
    have hw := mem_of_find?_eq_some hfind
    have hroom := find?_some hfind
    simp only [hasRoom, Bool.and_eq_true, decide_eq_true_eq] at hroom
    subst hs'
    refine .granted w (grantedLease request (pool.identity hash) w call) _
      ⟨hw, rfl, rfl, rfl, ⟨rfl, rfl⟩, ⟨rfl, rfl, rfl, rfl⟩, ?_, call.selectedAt, ?_, ?_, hroom.2.2⟩
    · intro hkeyed
      have hfound : s.workers.find? (fun k => decide (k.id = w.id)) = some w := hkeyed.find hw
      have hadvertised : s.advertised w.id = w.maxSlots := by
        unfold CompileSystem.advertised
        rw [hfound]
        rfl
      exact hadvertised
    · exact hon.clock_le (by simp [CompileOp.readings])
    · exact readings_le_clock hash s (by simp [CompileOp.readings])

variable {lease : BuilderLease}

variable {duration freshness : Duration} {reason : FailureReason} {w : CompileWorker}

theorem wanes_heartbeatLease
    {checkedAt renewedAt : Time} (ht : t ≤ t') (hchecked : t ≤ checkedAt)
    (hok : heartbeatCompileLease l workers leases lease duration freshness checkedAt renewedAt =
      .ok leases') : Wanes t t' leases leases' := by
  replace hok := passed hok
  replace hok := passed hok
  cases hok
  refine wanes_update ht (fun _ => rfl) ?_
  intro x hx _
  simp only [SlotLease.usable, Bool.and_eq_true] at hx
  exact SlotLease.live_of_le hchecked hx.1.1.2

theorem wanes_release (ht : t ≤ t')
    (hok : releaseCompileLease leases lease reason now = .ok leases') :
    Wanes t t' leases leases' := by
  replace hok := passed hok
  replace hok := passed hok
  cases hok
  refine wanes_update ht (fun _ => rfl) ?_
  intro x _ hlive
  -- a lease that has been given back is not active
  by_cases hexpired : x.expiresAt ≤ now
  · simp [SlotLease.live, hexpired] at hlive
  · simp [SlotLease.live, hexpired] at hlive

theorem stepCompile_effect (hon : OnTime s op) : Effect s (stepCompile hash s op) := by
  have hclock : s.clock ≤ (stepCompile hash s op).clock := clock_le_step hash s op
  cases hrun : op.run hash s with
  | error e =>
    have hstep : stepCompile hash s op = { s with clock := (stepCompile hash s op).clock } := by
      simp [stepCompile, hrun]
    rw [hstep]
    exact .waned (lasting_refl) rfl (wanes_of_le hclock)
  | ok next =>
    have hstep : stepCompile hash s op = { next with clock := (stepCompile hash s op).clock } := by
      simp [stepCompile, hrun]
    cases op with
    | heartbeatWorker heartbeat fresh now =>
      rcases bind_eq_ok.mp hrun with ⟨workers, hok, hnext⟩
      cases hnext
      rw [hstep]
      exact .waned (lasting_heartbeat hok) rfl (wanes_of_le hclock)
    | reserve l request call =>
      rcases bind_eq_ok.mp hrun with ⟨⟨⟨workers, leases⟩, lease⟩, hok, hnext⟩
      cases hnext
      exact granted_reserve hon hok hstep
    | heartbeatLease l lease duration freshness checkedAt renewedAt =>
      rcases bind_eq_ok.mp hrun with ⟨leases, hok, hnext⟩
      cases hnext
      rw [hstep]
      have hchecked : s.clock ≤ checkedAt := hon.clock_le (by simp [CompileOp.readings])
      exact .waned (lasting_refl) rfl (wanes_heartbeatLease hclock hchecked hok)
    | release lease reason now =>
      rcases bind_eq_ok.mp hrun with ⟨leases, hok, hnext⟩
      cases hnext
      rw [hstep]
      exact .waned (lasting_refl) rfl (wanes_release hclock hok)
    | observe lease observation now =>
      rcases bind_eq_ok.mp hrun with ⟨observations, _, hnext⟩
      cases hnext
      rw [hstep]
      exact .waned (lasting_refl) rfl (wanes_of_le hclock)

/-! ## The invariant -/

/-- The slots of the live leases on the worker of `x` that were granted no later than `x`. -/
def slotsUpTo (leases : List SlotLease) (x : SlotLease) (t : Time) : Nat :=
  total (fun y => y.worker = x.worker && y.fence ≤ x.fence && y.live t) SlotLease.slots leases

/-- The grant of a lease, within whose advertised count the leases up to it stay. -/
def Covered (grants : List Grant) (leases : List SlotLease) (t : Time) (x : SlotLease) : Prop :=
  ∃ g ∈ grants, g.lease = x.id ∧ g.worker = x.worker ∧ g.fence = x.fence ∧ g.requested = x.slots ∧
    slotsUpTo leases x t ≤ g.advertised

structure SlotInv (s : CompileSystem) : Prop where
  keyed : Keyed CompileWorker.id s.workers
  fenced : ∀ g ∈ s.grants, ∃ w ∈ s.workers, w.id = g.worker ∧ g.fence ≤ w.nextFence
  covered : ∀ x ∈ s.leases, Covered s.grants s.leases s.clock x
  rising : s.grants.Pairwise fun newer older =>
    newer.worker = older.worker → older.fence < newer.fence

theorem slotInv_init : SlotInv CompileSystem.init :=
  ⟨nodup_nil, fun _ h => absurd h not_mem_nil, fun _ h => absurd h not_mem_nil,
    List.Pairwise.nil⟩

theorem slotsUpTo_wanes (h : Wanes t t' leases leases') {x' : SlotLease} (hx : x'.core = x.core) :
    slotsUpTo leases' x' t' ≤ slotsUpTo leases x t := by
  rcases h with ⟨g, rfl, hg⟩
  simp only [SlotLease.core, Prod.mk.injEq] at hx
  refine total_map_le ?_
  intro y hy hp
  rcases hg y hy with ⟨hcore, hlive⟩
  simp only [SlotLease.core, Prod.mk.injEq] at hcore
  simp only [Bool.and_eq_true, decide_eq_true_eq] at hp ⊢
  rw [hcore.2.1, hcore.2.2.1, hx.2.1, hx.2.2.1] at hp
  exact ⟨⟨hp.1, hlive hp.2⟩, hcore.2.2.2.le⟩

theorem Covered.wanes {grants : List Grant} {x' : SlotLease} (h : Covered grants leases t x)
    (hw : Wanes t t' leases leases') (hx : x'.core = x.core) : Covered grants leases' t' x' := by
  rcases h with ⟨g, hg, hlease, hworker, hfence, hrequested, hslots⟩
  have hle := slotsUpTo_wanes hw hx
  simp only [SlotLease.core, Prod.mk.injEq] at hx
  refine ⟨g, hg, ?_, ?_, ?_, ?_, hle.trans hslots⟩
  · rw [hlease, hx.1]
  · rw [hworker, hx.2.1]
  · rw [hfence, hx.2.2.1]
  · rw [hrequested, hx.2.2.2]

theorem SlotInv.waned (h : SlotInv s) (hw : Lasting s.workers s'.workers)
    (hg : s'.grants = s.grants) (hl : Wanes s.clock s'.clock s.leases s'.leases) : SlotInv s' := by
  refine ⟨hw.keyed h.keyed, ?_, ?_, by rw [hg]; exact h.rising⟩
  · rw [hg]
    intro g hgrant
    rcases h.fenced g hgrant with ⟨w, hmem, hid, hfence⟩
    rcases hw.fences w hmem with ⟨w', hw', hid', hfence'⟩
    exact ⟨w', hw', hid'.trans hid, hfence.trans hfence'⟩
  · rw [hg]
    intro x' hx'
    have hwanes := hl
    rcases hl with ⟨f, hmap, hf⟩
    rw [hmap] at hx'
    rcases mem_map.mp hx' with ⟨x, hx, rfl⟩
    exact (h.covered x hx).wanes hwanes (hf x hx).1

theorem SlotInv.fence_le (h : SlotInv s) (hw : w ∈ s.workers) {g : Grant}
    (hg : g ∈ s.grants) (hworker : g.worker = w.id) : g.fence ≤ w.nextFence := by
  rcases h.fenced g hg with ⟨k, hk, hid, hfence⟩
  rw [← h.keyed.eq hk hw (hid.trans hworker)]
  exact hfence

theorem slotsUpTo_cons_of_newer {y : SlotLease} (hnewer : x.worker = y.worker → y.fence < x.fence) :
    slotsUpTo (x :: leases) y t = slotsUpTo leases y t := by
  unfold slotsUpTo
  by_cases hworker : x.worker = y.worker
  · simp [hworker, Nat.not_le.mpr (hnewer hworker)]
  · simp [hworker]

theorem slotsUpTo_cons_self_le (ht : t ≤ t') :
    slotsUpTo (x :: leases) x t' ≤ liveSlots leases x.worker t + x.slots := by
  have hold : total (fun y => y.worker = x.worker && y.fence ≤ x.fence && y.live t')
      SlotLease.slots leases ≤ liveSlots leases x.worker t := by
    refine total_mono ?_
    intro y _ hy
    simp only [Bool.and_eq_true] at hy ⊢
    exact ⟨hy.1.1, SlotLease.live_of_le ht hy.2⟩
  unfold slotsUpTo
  rw [total_cons, Nat.add_comm]
  refine Nat.add_le_add hold ?_
  split
  · exact Nat.le_refl _
  · exact Nat.zero_le _

theorem SlotInv.granted (h : SlotInv s) {g : Grant} (hg : Granted s s' w x g) :
    SlotInv s' := by
  rcases hg.room with ⟨t, hstart, hend, hroom⟩
  have hlasting : Lasting s.workers s'.workers := by
    rw [hg.workers]
    exact lasting_update (fun _ => rfl) fun _ => Nat.le_succ _
  -- the new fence is above those of all earlier grants on the worker
  have hnewer : ∀ g' ∈ s.grants, x.worker = g'.worker → g'.fence < x.fence := by
    intro g' hg' hworker
    have := h.fence_le hg.worker hg' (hworker.symm.trans hg.lease.1)
    rw [hg.lease.2]
    exact Nat.lt_succ_of_le this
  refine ⟨hlasting.keyed h.keyed, ?_, ?_, ?_⟩
  · rw [hg.grants]
    intro g' hg'
    rcases mem_cons.mp hg' with rfl | hg'
    · refine ⟨{ w with nextFence := w.nextFence + 1 }, ?_, ?_, ?_⟩
      · rw [hg.workers]
        exact mem_update.mpr ⟨w, hg.worker, by simp⟩
      · exact (hg.grant.2.1.trans hg.lease.1).symm
      · exact (hg.grant.2.2.1.trans hg.lease.2).le
    · rcases h.fenced g' hg' with ⟨k, hk, hid, hfence⟩
      rcases hlasting.fences k hk with ⟨k', hk', hid', hfence'⟩
      exact ⟨k', hk', hid'.trans hid, hfence.trans hfence'⟩
  · rw [hg.leases, hg.grants]
    intro y hy
    rcases mem_cons.mp hy with rfl | hy
    · refine ⟨g, mem_cons_self, hg.grant.1, hg.grant.2.1, hg.grant.2.2.1, hg.grant.2.2.2, ?_⟩
      rw [hg.advertised h.keyed]
      refine (slotsUpTo_cons_self_le hend).trans ?_
      rw [hg.lease.1]
      exact hroom
    · rcases (h.covered y hy).wanes (wanes_of_le (hstart.trans hend)) rfl with
        ⟨g', hg', hlease, hworker, hfence, hrequested, hslots⟩
      refine ⟨g', mem_cons_of_mem _ hg', hlease, hworker, hfence, hrequested, ?_⟩
      rw [slotsUpTo_cons_of_newer]
      · exact hslots
      intro hxy
      rw [← hfence]
      exact hnewer g' hg' (hxy.trans hworker.symm)
  · rw [hg.grants]
    refine h.rising.cons ?_
    intro g' hg' hworker
    rw [hg.grant.2.2.1]
    exact hnewer g' hg' (hg.grant.2.1.symm.trans hworker)

theorem SlotInv.step (h : SlotInv s) (hon : OnTime s op) : SlotInv (stepCompile hash s op) := by
  have heffect : Effect s (stepCompile hash s op) := stepCompile_effect hon
  cases heffect with
  | waned workers grants leases => exact h.waned workers grants leases
  | granted w x g hg => exact h.granted hg

/-! ## Superseded fences -/

/-- The builder's lease is no longer good: no row of this identity and fence is live. -/
def Superseded (leases : List SlotLease) (lease : BuilderLease) (now : Time) : Prop :=
  ∀ x ∈ leases, x.named lease = true → x.live now = false

theorem Superseded.not_renewed (h : Superseded leases lease now) {renewedAt : Time} :
    heartbeatCompileLease l workers leases lease duration freshness now renewedAt ≠
      .ok leases' := by
  intro hok
  replace hok := passed hok
  rcases require_bind_eq_ok.mp hok with ⟨hany, _⟩
  rcases any_eq_true.mp hany with ⟨x, hx, husable⟩
  simp only [SlotLease.usable, Bool.and_eq_true] at husable
  exact Bool.false_ne_true ((h x hx husable.1.1.1).symm.trans husable.1.1.2)

theorem Superseded.not_checked (h : Superseded leases lease now) :
    checkCompileLease l workers leases lease freshness now ≠ .ok () := by
  intro hok
  replace hok := passed hok
  rcases any_eq_true.mp (require_eq_ok.mp hok) with ⟨x, hx, husable⟩
  simp only [SlotLease.usable, Bool.and_eq_true] at husable
  exact Bool.false_ne_true ((h x hx husable.1.1.1).symm.trans husable.1.1.2)

theorem Superseded.not_observed (h : Superseded leases lease now)
    {observations observations' : List (LeaseId × Observation)} {observation : Observation} :
    recordCompileObservation leases observations lease observation now ≠ .ok observations' := by
  intro hok
  replace hok := passed hok
  rcases require_bind_eq_ok.mp hok with ⟨hany, _⟩
  rcases any_eq_true.mp hany with ⟨x, hx, hnamed⟩
  rw [Bool.and_eq_true] at hnamed
  exact Bool.false_ne_true ((h x hx hnamed.1).symm.trans hnamed.2)

theorem Superseded.not_released (h : Superseded leases lease now)
    (ht : now ≤ t)
    (hok : releaseCompileLease leases lease reason now = .ok leases') :
    leases'.filter (SlotLease.live t) = leases.filter (SlotLease.live t) := by
  replace hok := passed hok
  replace hok := passed hok
  cases hok
  unfold update
  rw [filter_map]
  have hsame : leases.filter (SlotLease.live t ∘ fun x =>
      if (x.named lease && decide (x.state = .active)) = true then
        { x with
          state := if x.expiresAt ≤ now then .expired else .released
          releasedAt := some now, failureReason := reason }
      else x) = leases.filter (SlotLease.live t) := by
    refine filter_congr ?_
    intro x hx
    by_cases hnamed : (x.named lease && decide (x.state = .active)) = true
    · have hdead : x.live now = false := h x hx (Bool.and_eq_true _ _ ▸ hnamed).1
      have hlater : x.live t = false := by
        by_contra hlive
        rw [Bool.not_eq_false] at hlive
        exact Bool.false_ne_true (hdead.symm.trans (SlotLease.live_of_le ht hlive))
      rw [Function.comp_apply, if_pos hnamed, hlater]
      by_cases hexpired : x.expiresAt ≤ now <;> simp [SlotLease.live, hexpired]
    · rw [Function.comp_apply, if_neg hnamed]
  rw [hsame]
  refine (map_congr_left ?_).trans (map_id _)
  intro x hx
  rcases mem_filter.mp hx with ⟨hx, hlive⟩
  have hother : ¬ (x.named lease && decide (x.state = .active)) = true := by
    intro hnamed
    have hdead : x.live now = false := h x hx (Bool.and_eq_true _ _ ▸ hnamed).1
    exact Bool.false_ne_true (hdead.symm.trans (SlotLease.live_of_le ht hlive))
  rw [if_neg hother]
  rfl

/-! ## Slot safety -/

/-- Slot safety in a state, now and at any later moment before the next call. -/
structure SlotSafe (s : CompileSystem) : Prop where
  within : ∀ now, s.clock ≤ now → ∀ x ∈ s.leases, x.live now = true →
    (∀ y ∈ s.leases, y.worker = x.worker → y.live now = true → y.fence ≤ x.fence) →
    ∃ g ∈ s.grants, g.lease = x.id ∧ g.worker = x.worker ∧ g.fence = x.fence ∧
      liveSlots s.leases x.worker now ≤ g.advertised
  requested : ∀ x ∈ s.leases, ∃ g ∈ s.grants, g.lease = x.id ∧ g.worker = x.worker ∧
    g.fence = x.fence ∧ x.slots ≤ g.requested
  rising : s.grants.Pairwise fun newer older =>
    newer.worker = older.worker → older.fence < newer.fence
  superseded : ∀ lease now, Superseded s.leases lease now →
    (∀ l duration freshness renewedAt leases, heartbeatCompileLease l s.workers s.leases lease
      duration freshness now renewedAt ≠ .ok leases) ∧
    (∀ l freshness, checkCompileLease l s.workers s.leases lease freshness now ≠ .ok ()) ∧
    (∀ observation observations,
      recordCompileObservation s.leases s.observations lease observation now ≠ .ok observations) ∧
    ∀ reason leases, releaseCompileLease s.leases lease reason now = .ok leases → ∀ t, now ≤ t →
      leases.filter (SlotLease.live t) = s.leases.filter (SlotLease.live t)

theorem SlotInv.slotSafe (h : SlotInv s) : SlotSafe s := by
  refine ⟨?_, ?_, h.rising, ?_⟩
  · intro now hnow x hx _ hnewest
    rcases h.covered x hx with ⟨g, hg, hlease, hworker, hfence, _, hslots⟩
    refine ⟨g, hg, hlease, hworker, hfence, le_trans ?_ hslots⟩
    refine total_mono ?_
    intro y hy hp
    simp only [Bool.and_eq_true, decide_eq_true_eq] at hp ⊢
    exact ⟨⟨hp.1, hnewest y hy hp.1 hp.2⟩, SlotLease.live_of_le hnow hp.2⟩
  · intro x hx
    rcases h.covered x hx with ⟨g, hg, hlease, hworker, hfence, hrequested, _⟩
    exact ⟨g, hg, hlease, hworker, hfence, hrequested.ge⟩
  · intro lease now hsuper
    exact ⟨fun _ _ _ _ _ => hsuper.not_renewed, fun _ _ => hsuper.not_checked,
      fun _ _ => hsuper.not_observed, fun _ _ hok _ ht => hsuper.not_released ht hok⟩

/-- In every state that the calls reach, compile slots are safe. -/
theorem compile_slots_safe (hash : PoolHash) (ops : List CompileOp)
    (hclock : Along (stepCompile hash) OnTime CompileSystem.init ops) :
    SlotSafe (run (stepCompile hash) CompileSystem.init ops) := by
  have hinv : SlotInv (run (stepCompile hash) CompileSystem.init ops) :=
    run_invariant (fun _ _ hs hon => hs.step hon) slotInv_init hclock
  exact hinv.slotSafe

/-- All pools have one hash. -/
def exampleHash : PoolHash :=
  fun _ => "0"

def examplePool : Pool where
  architecture := "amd64"
  chost := "x86_64-pc-linux-gnu"
  compilerDigest := "sha256:" ++ String.ofList (List.replicate 64 'a')
  toolchainImageGeneration := "gcc-15"
  cpuFeatures := ["avx2"]
  networkZone := "zone-a"
  projectTrustDomain := "default"

def exampleHeartbeat (slots : Nat) (now : Time) : CompileOp :=
  .heartbeatWorker ⟨"compile-1", "10.0.0.7:3632", slots, examplePool⟩ 1 now

def exampleReserve (slots : Nat) (lease : LeaseId) (seconds : Nat) (now : Time) : CompileOp :=
  .reserve Ledger.exampleLedger
    { projectId := 1, jobId := 1, attemptId := 7, attemptFence := 1, builderId := "builder-1"
      builderNetworkIdentity := "10.0.1.4", slots := slots
      leaseDuration := seconds * 1000 * millisecond, workerFreshness := 60000 * millisecond
      pool := examplePool, fallbackPolicy := .localBuild }
    { candidate := 1, lease := lease, selectedAt := now, admittedAt := now, grantedAt := now }

/-- Two reservations share a worker of four slots, which then tries to lower its count and refuses a
third reservation. -/
def sharedRun : List CompileOp :=
  [exampleHeartbeat 4 3000000, exampleReserve 2 11 60 4000000, exampleReserve 2 12 60 5000000,
    exampleHeartbeat 2 6000000, exampleReserve 1 13 60 7000000]

theorem compile_slots_safe_shared :
    SlotSafe (run (stepCompile exampleHash) CompileSystem.init sharedRun) :=
  compile_slots_safe exampleHash sharedRun (by decide +kernel)

/-- The first reservation of the worker, as the builder was given it. -/
def exampleLease : BuilderLease where
  id := 11
  workerId := 1
  workerEndpoint := "10.0.0.7:3632"
  builderId := "builder-1"
  builderNetworkIdentity := "10.0.1.4"
  attemptId := 7
  attemptFence := 1
  fence := 1
  slots := 4
  poolId := examplePool.identity exampleHash
  pool := examplePool
  fallbackPolicy := .localBuild
  expiresAt := 6000000

/-- A lease on all slots of a worker ends at six seconds and another one is granted at seven; then a
renewal of the first one takes effect that has found it live at five seconds. -/
def lateRenewalRun : List CompileOp :=
  [exampleHeartbeat 4 3000000, exampleReserve 4 11 2 4000000, exampleReserve 4 12 60 7000000,
    .heartbeatLease Ledger.exampleLedger exampleLease (60000 * millisecond) (60000 * millisecond)
      5000000 5000000]

/-- The worker of four slots then has eight of them leased. -/
theorem late_renewal_overcommits :
    let s := run (stepCompile exampleHash) CompileSystem.init lateRenewalRun
    liveSlots s.leases 1 8000000 = 8 ∧ ¬ SlotSafe s := by
  intro s
  have hslots : liveSlots s.leases 1 8000000 = 8 := by decide +kernel
  refine ⟨hslots, fun hsafe => ?_⟩
  have hgrants : ∀ g ∈ s.grants, g.advertised = 4 := by decide +kernel
  have hnewest : ∃ x ∈ s.leases, x.worker = 1 ∧ x.live 8000000 = true ∧
      ∀ y ∈ s.leases, y.worker = x.worker → y.live 8000000 = true → y.fence ≤ x.fence := by
    decide +kernel
  rcases hnewest with ⟨x, hx, hworker, hlive, hnewest⟩
  rcases hsafe.within 8000000 (by decide +kernel) x hx hlive hnewest with ⟨g, hg, -, -, -, hle⟩
  rw [hworker, hslots, hgrants g hg] at hle
  exact absurd hle (by decide)

end PortageEngine.Compile
