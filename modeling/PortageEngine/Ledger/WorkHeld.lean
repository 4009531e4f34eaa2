import PortageEngine.Ledger.Leases
import PortageEngine.Ledger.Fairness

/-!
# Who holds work

A worker holds work through the lease of an attempt or through the claim of a phase, each until some
time.  A transaction prolongs work only while it is held, and only the two claims give a worker
something new to do; a poll does so only for a worker whose row is active.
-/

namespace PortageEngine.Ledger

open List Library Library.Rows
open Library.Decimal (trimSpace)

/-- The worker holds a lease or a phase claim that ends at `t`. -/
def HoldsUntil (l : Ledger) (w : Worker) (t : Time) : Prop :=
  (∃ x ∈ l.leases, x.owner = w ∧ x.expiresAt = t) ∨
    ∃ k ∈ l.items, k.state = .claimed ∧ k.claimOwner = w ∧ k.leaseExpiresAt.getD 0 = t

/-- The worker holds a live lease or phase claim. -/
def holdsWork (l : Ledger) (now : Time) (w : Worker) : Bool :=
  (l.leases.any fun x => x.owner = w && now < x.expiresAt) ||
    l.items.any fun k => k.claimOwner = w && k.state = .claimed && k.leaseLive now

variable {l l' : Ledger} {w : Worker} {t : Time}

theorem leaseLive_iff {k : PhaseItem} {now : Time} :
    k.leaseLive now = true ↔ now < k.leaseExpiresAt.getD 0 := by
  unfold PhaseItem.leaseLive
  cases k.leaseExpiresAt <;> simp

theorem holdsWork_eq_false {now : Time} :
    holdsWork l now w = false ↔ ∀ t, HoldsUntil l w t → t ≤ now := by
  unfold holdsWork
  rw [Bool.or_eq_false_iff, any_eq_false, any_eq_false]
  simp only [Bool.and_eq_true, decide_eq_true_eq, leaseLive_iff, not_and, Nat.not_lt]
  constructor
  · rintro ⟨hleases, hitems⟩ t (⟨x, hx, howner, rfl⟩ | ⟨k, hk, hstate, howner, rfl⟩)
    · exact hleases x hx howner
    · exact hitems k hk ⟨howner, hstate⟩
  · intro h
    refine ⟨fun x hx howner => h _ (.inl ⟨x, hx, howner, rfl⟩), ?_⟩
    rintro k hk ⟨howner, hstate⟩
    exact h _ (.inr ⟨k, hk, hstate, howner, rfl⟩)

/-! ## One transaction -/

/-- What a transaction does to the work of the workers: it is kept, prolonged while it is held, or
handed out to `taker`. -/
def HoldStep (renewsAt : Option Time) (taker : Option Worker) (l l' : Ledger) : Prop :=
  ∀ w t, HoldsUntil l' w t → HoldsUntil l w t ∨
    (∃ now t₀, renewsAt = some now ∧ HoldsUntil l w t₀ ∧ now < t₀) ∨ taker = some w

section HoldStep

variable {renewsAt : Option Time} {taker : Option Worker}

theorem holdStep_of_rest (hleases : l'.leases ⊆ l.leases) (hitems : Resting l.items l'.items) :
    HoldStep renewsAt taker l l' := by
  rintro w t (⟨x, hx, howner, hexpires⟩ | ⟨k, hk, hstate, howner, hexpires⟩)
  · exact .inl (.inl ⟨x, hleases hx, howner, hexpires⟩)
  · rcases hitems k hk hstate with ⟨m, hm, hmstate, hmowner, hmlease⟩
    exact .inl (.inr ⟨m, hm, hmstate, hmowner.trans howner, by rw [hmlease]; exact hexpires⟩)

theorem holdStep_of_renew {now : Time} {p : Lease → Bool} {f : Lease → Lease}
    {q : PhaseItem → Bool} {g : PhaseItem → PhaseItem}
    (hleases : l'.leases = update p f l.leases) (hitems : l'.items = update q g l.items)
    (hf : ∀ x, p x = true → (f x).owner = x.owner ∧ now < x.expiresAt)
    (hg : ∀ k, q k = true → (g k).claimOwner = k.claimOwner ∧ k.state = .claimed ∧
      k.leaseLive now = true) :
    HoldStep (some now) taker l l' := by
  rintro w t (⟨x, hx, howner, hexpires⟩ | ⟨k, hk, hstate, howner, hexpires⟩)
  · rw [hleases] at hx
    rcases mem_update_cases hx with ⟨y, hy, hp, rfl⟩ | ⟨hx, _⟩
    · exact .inr (.inl ⟨now, y.expiresAt, rfl,
        .inl ⟨y, hy, (hf y hp).1.symm.trans howner, rfl⟩, (hf y hp).2⟩)
    · exact .inl (.inl ⟨x, hx, howner, hexpires⟩)
  · rw [hitems] at hk
    rcases mem_update_cases hk with ⟨m, hm, hq, rfl⟩ | ⟨hk, _⟩
    · rcases hg m hq with ⟨hmowner, hmstate, hmlive⟩
      exact .inr (.inl ⟨now, _, rfl, .inr ⟨m, hm, hmstate, hmowner.symm.trans howner, rfl⟩,
        leaseLive_iff.mp hmlive⟩)
    · exact .inl (.inr ⟨k, hk, hstate, howner, hexpires⟩)

theorem holdStep_claimNextTx {call : ClaimCall} {claim : Option SchedulerClaim}
    (hok : claimNextTx l call = .ok (l', claim)) :
    HoldStep renewsAt (some call.worker) l l' := by
  rcases claimNextTx_ok hok with ⟨rfl, _⟩ | ⟨_, _, rfl, _⟩ | ⟨j, charge, attemptNo, fence, _, rfl, _⟩
  · exact holdStep_of_rest (fun _ => id) (resting_refl)
  · exact holdStep_of_rest (fun _ => id) (resting_refl)
  rintro w t (⟨x, hx, howner, hexpires⟩ | ⟨k, hk, hstate, howner, hexpires⟩)
  · rcases mem_cons.mp hx with rfl | hx
    · exact .inr (.inr (congrArg some howner))
    · exact .inl (.inl ⟨x, hx, howner, hexpires⟩)
  · rcases mem_append.mp hk with hk | hk
    · rcases mem_map.mp hk with ⟨phase, _, rfl⟩
      simp only [plannedItem] at hstate
      split at hstate <;> cases hstate
    · exact .inl (.inr ⟨k, hk, hstate, howner, hexpires⟩)

variable {call : PhaseCall} {claim : Option PhaseClaim} {tables : FairTables}

theorem claimOwner_of_claimPhaseWork {c : PhaseClaim}
    (hok : claimPhaseWork l call = .ok (l', some c)) : c.claimOwner = trimSpace call.owner := by
  replace hok := passed hok
  replace hok := passed hok
  dsimp only at hok
  split at hok
  · cases hok
  split at hok
  · cases hok
  · cases hok
  · cases hok
    rfl

theorem holdStep_claimPhaseWork
    (hok : claimPhaseWork l call = .ok (l', claim)) :
    HoldStep renewsAt (some (trimSpace call.owner)) l l' := by
  have hreclaimed := (quiet_reclaimExpired l call.now).resting
  rcases claimPhaseWork_ok hok with ⟨rfl, _⟩ | ⟨item, at_, _, rfl⟩ |
    ⟨call', c, l₁, _, hphase, rfl, hclaim⟩
  · exact holdStep_of_rest (fun _ => id) hreclaimed
  · refine holdStep_of_rest (fun _ => id) (hreclaimed.trans ?_)
    exact resting_update fun _ _ hstate => ⟨hstate, rfl, rfl⟩
  have howner : call'.owner = trimSpace call.owner := by
    rw [hclaim] at hok
    exact claimOwner_of_claimPhaseWork hok
  have hmoved := (quiet_updateResourceReservationPhase hphase).leases
  have hitems := (quiet_updateResourceReservationPhase hphase).resting
  rintro w t (⟨x, hx, hxowner, hexpires⟩ | ⟨k, hk, hstate, hkowner, hexpires⟩)
  · exact .inl (.inl ⟨x, hmoved hx, hxowner, hexpires⟩)
  · rcases mem_update_cases hk with ⟨m, hm, _, rfl⟩ | ⟨hk, _⟩
    · exact .inr (.inr (congrArg some (howner.symm.trans hkowner)))
    · rcases (hreclaimed.trans hitems) k hk hstate with ⟨n, hn, hnstate, hnowner, hnlease⟩
      exact .inl (.inr ⟨n, hn, hnstate, hnowner.trans hkowner, by rw [hnlease]; exact hexpires⟩)

theorem HoldStep.after {l₁ : Ledger} (h : HoldStep none none l l₁)
    (h' : HoldStep renewsAt taker l₁ l') : HoldStep renewsAt taker l l' := by
  have hback : ∀ w t, HoldsUntil l₁ w t → HoldsUntil l w t := by
    intro w t hold
    rcases h w t hold with hold | ⟨_, _, hnone, _⟩ | hnone
    · exact hold
    · cases hnone
    · cases hnone
  intro w t hold
  rcases h' w t hold with hold | ⟨now, t₀, hnow, hold, hlive⟩ | htaker
  · exact .inl (hback w t hold)
  · exact .inr (.inl ⟨now, t₀, hnow, hback w t₀ hold, hlive⟩)
  · exact .inr (.inr htaker)

theorem holdStep_of_quiet (h : Quiet l l') : HoldStep renewsAt taker l l' :=
  holdStep_of_rest h.leases h.resting

theorem Op.holdStep {op : Op} (hok : op.run l = .ok (l', claim)) :
    HoldStep op.renewsAt op.taker l l' := by
  by_cases hquiet : op.taker = none ∧ op.renewsAt = none
  · exact holdStep_of_quiet (Op.quiet hok hquiet.1 hquiet.2)
  cases op.commits hok with
  | claim call c hk =>
    exact (holdStep_of_quiet (quiet_recoverExpired l call.recoveredAt call.locked
      schedulerRecoveryBatch)).after (holdStep_claimNextTx (claimNext_ok hk))
  | renew status leaseDuration now hk =>
    rcases renewClaim_ok hk with ⟨attempt, u, _, _, rfl⟩
    refine holdStep_of_renew (q := fun _ => false) (g := id) rfl (update_eq_self fun _ _ => rfl).symm
      ?_ nofun
    intro x hx
    simp only [Bool.and_eq_true, decide_eq_true_eq] at hx
    exact ⟨rfl, hx.2⟩
  | claimPhase call hk => exact holdStep_claimPhaseWork hk
  | renewPhase c lease now hk =>
    rcases renewPhaseWork_ok hk with ⟨u, _, rfl⟩
    refine holdStep_of_renew rfl rfl ?_ ?_
    · intro x hx
      simp only [Bool.and_eq_true, decide_eq_true_eq] at hx
      exact ⟨rfl, hx.2⟩
    · intro i hi
      simp only [Bool.and_eq_true] at hi
      exact ⟨rfl, (claimsItem_claimed hi.1).2, hi.2⟩
  | budget hk => cases hk <;> exact absurd ⟨rfl, rfl⟩ hquiet
  | _ => exact absurd ⟨rfl, rfl⟩ hquiet

theorem holdStep_refl : HoldStep renewsAt taker l l :=
  holdStep_of_rest (fun _ => id) (resting_refl)

theorem holdStep_step (s : System) (op : Op) :
    HoldStep op.renewsAt op.taker s.ledger (step s op).ledger := by
  rcases step_cases s op with heq | ⟨l, claim, hok, _, heq⟩
  · rw [heq]
    exact holdStep_refl
  · rw [heq]
    exact Op.holdStep hok

theorem taker_of_not_claims {op : Op} (h : op.claims = false) : op.taker = none := by
  cases op <;> first | rfl | cases h

/-! ## Polls -/

theorem holdStep_poll {p : Poll} {r : PollResult SchedulerClaim}
    (hok : poll tables l p = .ok r) :
    HoldStep none (if p.executor.active then some p.claim.worker else none) l r.ledger := by
  have hrecovered : HoldStep none none l (p.recovered l) :=
    holdStep_of_quiet (quiet_recoverExpired l _ _ _)
  rcases poll_ok hok with ⟨rfl, _⟩ | ⟨selected, j, ⟨l₁, claim⟩, _, hj, hclaim, rfl⟩
  · exact holdStep_of_quiet (quiet_recoverExpired l _ _ _)
  have hfits := (mem_filter.mp (argmin_mem hj)).2
  have hactive : p.executor.active = true := by
    simp only [Bool.and_eq_true, Executor.fits] at hfits
    exact hfits.1.2.1.1.1
  have hclaimed : HoldStep none (some ({ p.claim with candidate := j.id } : ClaimCall).worker)
      (p.recovered l) l₁ := holdStep_claimNextTx hclaim
  rw [(ledger_finish).1, if_pos hactive]
  exact hrecovered.after hclaimed

theorem holdStep_pollPhase {p : PhasePoll} {r : PollResult PhaseClaim}
    (hok : pollPhase tables l p = .ok r) :
    HoldStep none (if p.executor.active then some (trimSpace p.call.owner) else none) l
      r.ledger := by
  rcases pollPhase_ok hok with rfl | ⟨selected, result, hselected, hclaim, rfl⟩
  · exact holdStep_of_quiet (quiet_reclaimExpired l p.call.now)
  have hactive : p.executor.active = true := by
    rcases mem_filterMap.mp (argmin_mem hselected) with ⟨row, _, hrow⟩
    simp only [selection?, Option.bind_eq_bind, Option.bind_eq_some_iff] at hrow
    rcases hrow with ⟨_, _, oldest, holdest, _⟩
    rcases mem_map.mp (min?_mem holdest) with ⟨i, hi, _⟩
    have heligible := (mem_filter.mp hi).2
    simp only [eligibleItem, Bool.and_eq_true, Option.any_eq_true, Executor.fits] at heligible
    rcases heligible.2.1.1.1.2 with ⟨j, _, _, hfits⟩
    exact hfits.1.1.1
  rw [(ledger_finish).1, if_pos hactive]
  exact holdStep_claimPhaseWork hclaim

end HoldStep

end PortageEngine.Ledger
