import PortageEngine.Ledger.Planned

/-!
# Every transaction keeps the books balanced

`Balanced` adds to planned ledgers what holds while attempts report as they should: one lease row an
attempt and the custody discipline.  There is one preservation lemma for each transaction; that its
result is planned is known already.
-/

namespace PortageEngine.Ledger

open Library
open Library.Rows

variable {busy : Job → Bool} {l l' : Ledger}

/-- The invariant of the ledger, under a notion of being worked on. -/
structure Balanced (busy : Job → Bool) (l : Ledger) : Prop where
  respected : Busy busy
  refs : l.refs.Sound
  leases : Keyed Lease.attempt l.leases
  custody : (custody busy l).Sound
  plan : PlanOrdered l.items

theorem balanced_empty (hb : Busy busy) {policies : List Policy} :
    Balanced busy (empty policies) := by
  refine ⟨hb, ?_, List.nodup_nil, ?_, ?_⟩
  · constructor <;> first | exact List.nodup_nil | (intro x hx; cases hx)
  · have hnone : ∀ k a, ¬ (Ledger.custody busy (empty policies)).holds k a := by
      intro k a h
      cases k <;> rcases h with ⟨_, hx, _⟩ <;> cases hx
    constructor
    · intro k _ a h
      exact absurd h (hnone k a)
    · intro s k a h
      cases s <;> rcases h with ⟨_, hx, _⟩ <;> cases hx
    · intro k a h
      exact absurd h (hnone k a)
    · intro k a _ _ h
      exact absurd h (hnone k a)
    · intro k a _ h
      exact absurd h (hnone k a)
  · nofun

/-! ## Consequences -/

theorem Balanced.planned (h : Balanced busy l) : Planned l :=
  ⟨h.refs, h.plan⟩

variable {k : PhaseItem} {a attempt : AttemptId} {j job : JobId} {fence position : Nat}
  {now at_ : Time} {outcome : PhaseOutcome} {detail : String} {previous : BuildStatus}

theorem Balanced.other_job (h : Balanced busy l) {b : AttemptId} {i : JobId} (ha : leased l a)
    (hai : attemptOf l a i) (hb : leased l b) (hbj : attemptOf l b j) (hne : a ≠ b) : i ≠ j := by
  intro hij
  subst hij
  exact hne (h.custody.single .lease a b i ha hb hai hbj)

theorem Balanced.workable (h : Balanced busy l) (ha : leased l a) (hj : attemptOf l a j) :
    workable busy l j :=
  h.custody.atWork .lease a j ha hj

theorem claimLive_holds {owner : Worker} (h : claimLive l a j fence owner now = true) :
    attemptOf l a j ∧ leased l a := by
  simp only [claimLive, Bool.and_eq_true, List.any_eq_true, decide_eq_true_eq] at h
  rcases h with ⟨⟨⟨x, hx, hid, hjob⟩, y, hy, ⟨⟨ha, _⟩, _⟩, _⟩, _⟩
  exact ⟨⟨x, hx, hid, hjob⟩, y, hy, ha⟩

/-! ## Transactions that change no holding -/

theorem Balanced.same (h : Balanced busy l) (hp : Planned l')
    (hattempts : l'.refs.attempts = l.refs.attempts)
    (hleases : l'.leases.map Lease.attempt = l.leases.map Lease.attempt)
    (hreserved : l'.reservations.map (fun r => (r.attempt, r.active)) =
      l.reservations.map fun r => (r.attempt, r.active))
    (hmetered : l'.usages.map (fun u => (u.attempt, u.active)) =
      l.usages.map fun u => (u.attempt, u.active))
    (hitems : ∀ a, hasOpenItem l' a → hasOpenItem l a)
    (hbudgets : l'.budgets.map (fun b => (b.attempt, b.active)) =
      l.budgets.map fun b => (b.attempt, b.active))
    (hjobs : ∀ a j, leased l a → attemptOf l a j → Ledger.workable busy l' j) :
    Balanced busy l' := by
  have hattemptOf : ∀ a j, attemptOf l' a j ↔ attemptOf l a j := by
    intro a j
    rw [attemptOf_iff, attemptOf_iff]
    exact iff_of_eq (congrArg ((a, j) ∈ ·) hattempts)
  have hcustody : (Ledger.custody busy l').Sound := by
    refine sound_of_kept h.custody ?_ ?_ ?_ hitems ?_ (fun a j => (hattemptOf a j).mpr)
      (fun a j h => .inl ((hattemptOf a j).mp h)) hjobs
    · intro a
      have h : ∀ k : Ledger, leased k a ↔ a ∈ k.leases.map Lease.attempt := by simp [leased]
      rw [h, h, hleases]
    · intro a
      have h : ∀ k : Ledger, reserved k a ↔
          (a, true) ∈ k.reservations.map fun r => (r.attempt, r.active) := by
        simp [reserved]
      rw [h, h, hreserved]
    · intro a
      have h : ∀ k : Ledger, metered k a ↔
          (a, true) ∈ k.usages.map fun u => (u.attempt, u.active) := by
        simp [metered]
      rw [h, h, hmetered]
    · intro a
      have h : ∀ k : Ledger, hasBudget k a ↔
          (a, true) ∈ k.budgets.map fun b => (b.attempt, b.active) := by
        simp [hasBudget]
      rw [h, h, hbudgets]
      exact .inl
  refine ⟨h.respected, hp.refs, ?_, hcustody, hp.plan⟩
  unfold Keyed
  rw [hleases]
  exact h.leases

variable {status : BuildStatus} {claim : PhaseClaim} {items : List PhaseItem}

theorem Balanced.renewClaim (h : Balanced busy l) (hp : Planned l')
    {leaseDuration : Time} (hok : renewClaim l status leaseDuration now = .ok l') :
    Balanced busy l' := by
  rcases renewClaim_ok hok with ⟨attempt, u, _, _, rfl⟩
  exact h.same hp rfl (map_update fun _ => rfl) rfl rfl (fun _ => id) rfl fun _ _ => h.workable

theorem Balanced.retryJob (h : Balanced busy l) (hp : Planned l') {counted : Nat}
    (hok : retryJob l job counted now = .ok (l', status)) : Balanced busy l' := by
  rcases retryJob_ok hok with ⟨j, hj, hid, hstate, _, rfl, _⟩
  refine h.same hp rfl rfl rfl rfl (fun _ => id) rfl ?_
  intro a i ha hi
  have hbusy := h.workable ha hi
  -- the retried job has ended, so no holder works for it
  have hne : i ≠ job := by
    intro heq
    rcases hbusy with ⟨x, hx, hxi, hx'⟩
    have hxj : x = j := h.refs.job_unique hx hj (by rw [hxi, heq, hid])
    subst hxj
    have hended : isLedgerTerminal x.state = true := by
      rcases hstate with hs | hs <;> rw [hs] <;> rfl
    rw [h.respected.ended x hended] at hx'
    cases hx'
  exact (workable_update_of_ne (f := retryJobRow now) rfl (fun _ => rfl) hne).mpr hbusy

theorem hasOpenItem_update {p : PhaseItem → Bool} {f : PhaseItem → PhaseItem}
    {rows : List PhaseItem} (hattempt : ∀ i, (f i).attempt = i.attempt)
    (hopen : ∀ i, p i = true → (f i).state.isOpen = true → i.state.isOpen = true)
    (h : ∃ i ∈ update p f rows, i.attempt = a ∧ i.state.isOpen = true) :
    ∃ i ∈ rows, i.attempt = a ∧ i.state.isOpen = true := by
  rcases exists_update.mp h with ⟨i, hi, ha, hi'⟩
  by_cases hp : p i = true
  · rw [if_pos hp] at ha hi'
    exact ⟨i, hi, (hattempt i) ▸ ha, hopen i hp hi'⟩
  · rw [if_neg hp] at ha hi'
    exact ⟨i, hi, ha, hi'⟩

theorem Balanced.activatePhasePlan (h : Balanced busy l) (hp : Planned l')
    (hok : activatePhasePlan l status now = .ok l') : Balanced busy l' := by
  rcases activatePhasePlan_ok hok with ⟨attempt, rfl⟩
  refine h.same hp rfl rfl rfl rfl ?_ rfl fun _ _ => h.workable
  exact fun a => hasOpenItem_update (fun _ => rfl) fun _ _ => id

theorem Balanced.claimPhaseWork (h : Balanced busy l) (hp : Planned l') {call : PhaseCall}
    {claim : Option PhaseClaim} (hok : claimPhaseWork l call = .ok (l', claim)) :
    Balanced busy l' := by
  have hreclaimed : ∀ a, hasOpenItem (reclaimExpired l call.now) a → hasOpenItem l a := by
    intro a
    refine hasOpenItem_update (fun _ => rfl) ?_
    intro i hi _
    have hclaimed : i.state = .claimed ∧ i.leaseExpiresAt.getD 0 ≤ call.now := by simpa using hi
    rw [hclaimed.1]
    rfl
  rcases claimPhaseWork_ok hok with ⟨rfl, _⟩ | ⟨item, at_, _, rfl⟩ |
    ⟨call', c, l₁, _, hphase, rfl, _⟩
  · exact h.same hp rfl rfl rfl rfl hreclaimed rfl fun _ _ => h.workable
  · refine h.same hp rfl rfl rfl rfl ?_ rfl fun _ _ => h.workable
    exact fun a ha => hreclaimed a (hasOpenItem_update (by intro _; rfl) (by intro _ _; exact id) ha)
  rcases updateResourceReservationPhase_frame hphase with ⟨p, phase, rfl⟩
  refine h.same hp rfl rfl (map_update fun _ => rfl) rfl ?_ rfl fun _ _ => h.workable
  intro a ha
  refine hreclaimed a (hasOpenItem_update (by intro _; rfl) ?_ ha)
  intro i hi _
  have hready : i.id = c.item.id ∧ i.state = .ready := by simpa using hi
  rw [hready.2]
  rfl

theorem Balanced.renewPhaseWork (h : Balanced busy l) (hp : Planned l')
    {lease : Time} (hok : renewPhaseWork l claim lease now = .ok l') : Balanced busy l' := by
  rcases renewPhaseWork_ok hok with ⟨u, _, rfl⟩
  refine h.same hp rfl (map_update fun _ => rfl) rfl rfl ?_ rfl fun _ _ => h.workable
  exact fun a => hasOpenItem_update (fun _ => rfl) fun _ _ => id

/-! ## Finishing a phase -/

theorem hasOpenItem_releaseNext
    (h : ∃ i ∈ releaseNext attempt position now items, i.attempt = a ∧ i.state.isOpen = true) :
    ∃ i ∈ items, i.attempt = a ∧ i.state.isOpen = true := by
  refine hasOpenItem_update (by intro _; rfl) ?_ h
  intro i hi _
  have hblocked : i.state = .blocked := by
    simp only [blockedAfter, Bool.and_eq_true, decide_eq_true_eq] at hi
    exact hi.1.2
  rw [hblocked]
  rfl

theorem hasOpenItem_cancelDependants
    (h : ∃ i ∈ cancelDependants attempt position items, i.attempt = a ∧ i.state.isOpen = true) :
    ∃ i ∈ items, i.attempt = a ∧ i.state.isOpen = true := by
  refine hasOpenItem_update (by intro _; rfl) ?_ h
  nofun

theorem hasOpenItem_finishItems {c : PhaseItem}
    (h : ∃ i ∈ finishItems c outcome now items, i.attempt = a ∧ i.state.isOpen = true) :
    ∃ i ∈ items, i.attempt = a ∧ i.state.isOpen = true := by
  have hwoken := hasOpenItem_update (by intro _; rfl) (by intro _ _ hopen; exact hopen) h
  have hnext : ∃ i ∈ update (fun k => k.id = c.id) (closeItem outcome.state outcome.detail) items,
      i.attempt = a ∧ i.state.isOpen = true := by
    cases outcome with
    | completed => exact hasOpenItem_releaseNext hwoken
    | failed detail => exact hasOpenItem_cancelDependants hwoken
  refine hasOpenItem_update (by intro _; rfl) ?_ hnext
  intro i _ hopen
  cases outcome <;> cases hopen

theorem Balanced.finishPhaseWork (h : Balanced busy l) (hp : Planned l')
    (hok : finishPhaseWork l claim outcome now = .ok l') : Balanced busy l' := by
  rcases finishPhaseWork_ok hok with ⟨i, _, _, rfl⟩
  exact h.same hp rfl rfl (map_update fun _ => rfl) rfl (fun a => hasOpenItem_finishItems) rfl
    fun _ _ => h.workable

/-! ## Ending an attempt -/

theorem Balanced.released (h : Balanced busy l) (hp : Planned l') (hlease : leased l attempt)
    (hjob : attemptOf l attempt job) (hr : Releases l l' (· = attempt))
    (hattempts : l'.refs.attempts = l.refs.attempts) (hleases : Keyed Lease.attempt l'.leases)
    (hjobs : ∀ j, j ≠ job → Ledger.workable busy l j → Ledger.workable busy l' j) :
    Balanced busy l' := by
  refine ⟨h.respected, hp.refs, hleases, sound_of_releases h.custody hr hattempts ?_, hp.plan⟩
  intro a j ha hne haj
  exact hjobs j (h.other_job ha haj hlease hjob hne) (h.workable ha haj)

theorem Balanced.leased_delete_fence (h : Balanced busy l)
    (hlease : ∃ x ∈ l.leases, x.attempt = attempt ∧ x.fence = fence) :
    (∃ x ∈ delete (fun x => decide (x.attempt = attempt) && decide (x.fence = fence)) l.leases,
        x.attempt = a) ↔ leased l a ∧ a ≠ attempt := by
  rcases hlease with ⟨y, hy, hya, hyf⟩
  constructor
  · rintro ⟨x, hx, rfl⟩
    rcases mem_delete.mp hx with ⟨hx, hkept⟩
    refine ⟨⟨x, hx, rfl⟩, ?_⟩
    intro heq
    have hxy : x = y := h.leases.eq hx hy (heq.trans hya.symm)
    subst hxy
    simp [hya, hyf] at hkept
  · rintro ⟨⟨x, hx, rfl⟩, hne⟩
    exact ⟨x, mem_delete.mpr ⟨hx, by simp [hne]⟩, rfl⟩

theorem Balanced.finishPhaseAttempt (h : Balanced busy l) (hp : Planned l') {status : StoredStatus}
    (hopen : ∀ a, (∃ i ∈ items, i.attempt = a ∧ i.state.isOpen = true) →
      hasOpenItem l a ∧ a ≠ claim.attempt)
    (hlease : ∃ x ∈ l.leases, x.attempt = claim.attempt ∧ x.fence = claim.attemptFence)
    (hok : finishPhaseAttempt { l with items := items } claim status detail at_ = .ok l') :
    Balanced busy l' := by
  rcases finishPhaseAttempt_ok hok with ⟨hattempt, rfl⟩
  rcases releasePhaseAttempt_eq
    with ⟨jobs, policies, heq, hcore, _⟩
  rw [heq] at hp ⊢
  have hleased : leased l claim.attempt := by
    rcases hlease with ⟨x, hx, hxa, _⟩
    exact ⟨x, hx, hxa⟩
  refine h.released hp hleased hattempt ?_ (map_update fun _ => rfl) h.leases.delete ?_
  swap
  · intro j hne hbusy
    have hbusy' : Ledger.workable busy { l with jobs := jobs } j := (workable_of_core h.respected hcore).mpr hbusy
    exact (workable_update_of_ne (f := finishJobRow status detail at_) rfl (fun _ => rfl) hne).mpr
      hbusy'
  constructor
  · intro a
    exact h.leased_delete_fence hlease
  · intro a
    exact exists_switchOff_key fun _ => rfl
  · intro a
    exact exists_switchOff_key fun _ => rfl
  · intro a
    exact hopen a
  · intro a
    exact (exists_switchOff_key fun _ => rfl).mp

theorem Refs.Sound.sequence_le_publish (h : l.refs.Sound) {i : PhaseItem} (hi : i ∈ l.items)
    (hpublish : i.phase = .publish) (hk : k ∈ l.items) : k.sequence ≤ i.sequence := by
  have hi' : i.sequence = phaseSequence i.phase :=
    h.items_position i.ref (List.mem_map.mpr ⟨i, hi, rfl⟩)
  have hk' : k.sequence = phaseSequence k.phase :=
    h.items_position k.ref (List.mem_map.mpr ⟨k, hk, rfl⟩)
  rw [hi', hk', hpublish]
  cases k.phase <;> decide

theorem Balanced.finalizePhaseWork (h : Balanced busy l) (hp : Planned l')
    {completed : BuildStatus} (hissued : claim.ref ∈ l.refs.items)
    (hok : finalizePhaseWork l claim previous completed now at_ = .ok l') :
    Balanced busy l' := by
  rcases finalizePhaseWork_ok hok with ⟨hpublish, _, hlock, hok⟩
  rcases lockTerminalPhaseClaim_ok hlock with ⟨⟨i, hi, hclaims, hattempt⟩, hlease⟩
  rcases claimsItem_claimed hclaims with ⟨hid, hclaimed⟩
  have href := h.refs.claimed_row hissued hi hid
  have hcut := h.plan.close h.refs.planKeys hi hclaimed .completed ""
  have hphase : i.phase = .publish := (congrArg ItemRef.phase href).trans hpublish
  have hlast : ∀ x ∈ update (fun k => k.id = i.id) (closeItem .completed "") l.items,
      x.attempt = i.attempt → x.sequence ≤ i.sequence := by
    intro x hx _
    rcases mem_update.mp hx with ⟨k, hk, rfl⟩
    have hle := h.refs.sequence_le_publish hi hphase hk
    by_cases hid : k.id = i.id
    · simpa [hid, closeItem] using hle
    · simpa [hid] using hle
  rw [← hid] at hok
  refine h.finishPhaseAttempt hp ?_ hlease hok
  intro a hopen
  refine ⟨hasOpenItem_update (by intro _; rfl) (by intro _ _ hopen; cases hopen) hopen, ?_⟩
  rintro rfl
  rcases hopen with ⟨x, hx, hxa, hxopen⟩
  have hclosed := hcut.closed_of_last hlast hx (hxa.trans hattempt.symm)
  rw [hclosed] at hxopen
  cases hxopen

theorem Balanced.failPhaseWorkAndJob (h : Balanced busy l) (hp : Planned l')
    (hissued : claim.ref ∈ l.refs.items)
    (hok : failPhaseWorkAndJob l claim previous detail now at_ = .ok l') :
    Balanced busy l' := by
  rcases failPhaseWorkAndJob_ok hok with ⟨hlock, failed, _, hok⟩
  rcases lockTerminalPhaseClaim_ok hlock with ⟨⟨i, hi, hclaims, hattempt⟩, hlease⟩
  rcases claimsItem_claimed hclaims with ⟨hid, hclaimed⟩
  have hsequence : i.sequence = claim.sequence :=
    congrArg ItemRef.sequence (h.refs.claimed_row hissued hi hid)
  have hcut := h.plan.close h.refs.planKeys hi hclaimed .failed (phaseFailureDetail detail)
  rw [← hid, ← hattempt, ← hsequence] at hok
  refine h.finishPhaseAttempt hp ?_ hlease hok
  intro a hopen
  refine ⟨hasOpenItem_update (by intro _; rfl) (by intro _ _ hopen; cases hopen)
    (hasOpenItem_cancelDependants hopen), ?_⟩
  rintro rfl
  rcases hopen with ⟨x, hx, hxa, hxopen⟩
  have hclosed := hcut.closed_of_failed hx (hxa.trans hattempt.symm)
  rw [hclosed] at hxopen
  cases hxopen

end PortageEngine.Ledger
