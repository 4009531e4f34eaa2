import PortageEngine.Ledger.References

/-!
# Transactions and holdings

What each transaction does to the two projections of the ledger.  Most leave `refs` as it is and let
at most one job's attempts go; `startAttempt` is the only one that gives an attempt its holdings.
-/

namespace PortageEngine.Ledger

open Library Library.Rows

variable {busy : Job → Bool} {l l' : Ledger}

/-! ## Jobs -/

variable {j : JobId} {jobs : List Job} {reason : String}

theorem workable_iff :
    workable busy l j ↔ (j, true) ∈ l.jobs.map fun x => (x.id, busy x) := by
  simp [workable]

theorem workable_of_core (hb : Busy busy) (h : l'.jobs.map Job.core = l.jobs.map Job.core) : workable busy l' j ↔ workable busy l j := by
  rw [workable_iff, workable_iff, map_eq_of_core h fun x => ?_]
  rw [hb.core]
  rfl

theorem workable_update_of_ne {job j : JobId} {f : Job → Job}
    (hjobs : l'.jobs = update (fun x => x.id = job) f jobs) (hf : ∀ x, (f x).id = x.id)
    (hne : j ≠ job) : workable busy l' j ↔ ∃ x ∈ jobs, x.id = j ∧ busy x = true := by
  unfold workable
  rw [hjobs]
  refine exists_update_same ?_
  intro x _ hx
  have hid : x.id = job := by simpa using hx
  constructor
  · rintro ⟨hj, _⟩
    exact absurd (hj.symm.trans ((hf x).trans hid)) hne
  · rintro ⟨hj, _⟩
    exact absurd (hj.symm.trans hid) hne

theorem workable_update_self {job : JobId} {f : Job → Job}
    (hjobs : l'.jobs = update (fun x => x.id = job) f jobs) (hf : ∀ x, (f x).id = x.id)
    (hbusy : ∀ x, busy x = true → busy (f x) = true)
    (h : ∃ x ∈ jobs, x.id = job ∧ busy x = true) : workable busy l' job := by
  rcases h with ⟨x, hx, hid, hx'⟩
  refine ⟨f x, ?_, (hf x).trans hid, hbusy x hx'⟩
  rw [hjobs]
  exact mem_update.mpr ⟨x, hx, by simp [hid]⟩

/-! ## Steps that let go of nobody -/

theorem sound_of_kept (hc : (custody busy l).Sound)
    (hleases : ∀ a, leased l' a ↔ leased l a) (hreserved : ∀ a, reserved l' a ↔ reserved l a)
    (hmetered : ∀ a, metered l' a ↔ metered l a)
    (hitems : ∀ a, hasOpenItem l' a → hasOpenItem l a)
    (hbudgets : ∀ a, hasBudget l' a → hasBudget l a ∨ leased l a)
    (hattempts : ∀ a j, attemptOf l a j → attemptOf l' a j)
    (hhired : ∀ a j, attemptOf l' a j → attemptOf l a j ∨ ∀ i, ¬ attemptOf l a i)
    (hjobs : ∀ a j, leased l a → attemptOf l a j → workable busy l' j) : (custody busy l').Sound := by
  have hmoves : Custody.Moves (custody busy l) (custody busy l') fun _ => False := by
    refine ⟨?_, ?_, hattempts, hhired, ?_⟩
    · intro k a
      cases k with
      | lease => simpa [custody] using hleases a
      | reservation => simpa [custody] using hreserved a
      | usage => simpa [custody] using hmetered a
    · intro s a hs
      refine ⟨?_, not_false⟩
      cases s with
      | phaseItem => exact .inl (hitems a hs)
      | artifactBudget =>
        rcases hbudgets a hs with hold | hlease
        · exact .inl hold
        · exact .inr ⟨.lease, hlease⟩
    · intro k a j ha _ hj
      exact hjobs a j (hc.together k .lease a ha) hj
  exact hc.moves hmoves

/-! ## Steps that let attempts go -/

/-- The attempts in `lost` have given everything back. -/
structure Releases (l l' : Ledger) (lost : AttemptId → Prop) : Prop where
  leased : ∀ a, leased l' a ↔ leased l a ∧ ¬ lost a
  reserved : ∀ a, reserved l' a ↔ reserved l a ∧ ¬ lost a
  metered : ∀ a, metered l' a ↔ metered l a ∧ ¬ lost a
  hasOpenItem : ∀ a, hasOpenItem l' a → hasOpenItem l a ∧ ¬ lost a
  hasBudget : ∀ a, hasBudget l' a → hasBudget l a ∧ ¬ lost a

theorem sound_of_releases {lost : AttemptId → Prop} (hc : (custody busy l).Sound)
    (hr : Releases l l' lost)
    (hattempts : l'.attempts.map (fun a => (a.id, a.job)) = l.attempts.map fun a => (a.id, a.job))
    (hjobs : ∀ a j, leased l a → ¬ lost a → attemptOf l a j → workable busy l' j) :
    (custody busy l').Sound := by
  have hattemptOf : ∀ a j, attemptOf l' a j ↔ attemptOf l a j := by
    intro a j
    rw [attemptOf_iff, attemptOf_iff]
    exact iff_of_eq (congrArg ((a, j) ∈ ·) hattempts)
  have hmoves : Custody.Moves (custody busy l) (custody busy l') lost := by
    refine ⟨?_, ?_, fun a j => (hattemptOf a j).mpr, fun a j h => .inl ((hattemptOf a j).mp h), ?_⟩
    · intro k a
      cases k with
      | lease => exact hr.leased a
      | reservation => exact hr.reserved a
      | usage => exact hr.metered a
    · intro s a hs
      cases s with
      | phaseItem => exact ⟨.inl (hr.hasOpenItem a hs).1, (hr.hasOpenItem a hs).2⟩
      | artifactBudget => exact ⟨.inl (hr.hasBudget a hs).1, (hr.hasBudget a hs).2⟩
    · intro k a j ha hkept hj
      exact hjobs a j (hc.together k .lease a ha) hkept hj
  exact hc.moves hmoves

theorem leased_delete {rows : List Lease} {a b : AttemptId} :
    (∃ x ∈ delete (fun x => decide (x.attempt = a)) rows, x.attempt = b) ↔
      (∃ x ∈ rows, x.attempt = b) ∧ b ≠ a := by
  constructor
  · rintro ⟨x, hx, rfl⟩
    rcases mem_delete.mp hx with ⟨hx, hne⟩
    exact ⟨⟨x, hx, rfl⟩, by simpa using hne⟩
  · rintro ⟨⟨x, hx, rfl⟩, hne⟩
    exact ⟨x, mem_delete.mpr ⟨hx, by simpa using hne⟩, rfl⟩

theorem openItem_cancel {rows : List PhaseItem} {a b : AttemptId} :
    (∃ i ∈ update (fun i => decide (i.attempt = a) && i.state.isOpen) (cancelItem reason) rows,
        i.attempt = b ∧ i.state.isOpen = true) ↔
      (∃ i ∈ rows, i.attempt = b ∧ i.state.isOpen = true) ∧ b ≠ a := by
  have hoff : ∀ i, (fun i : PhaseItem => i.state.isOpen) (cancelItem reason i) = false :=
    fun _ => rfl
  exact exists_switchOff_key hoff

theorem releases_closeAttempt (l : Ledger) (attempt : AttemptId) (terminalState : Status)
    (reason : String) (at_ : Time) :
    Releases l (closeAttempt l attempt terminalState reason at_) (· = attempt) := by
  rcases closeAttempt_eq with ⟨jobs, policies, heq, _, _⟩
  rw [heq]
  constructor
  · intro a
    exact leased_delete
  · intro a
    exact exists_switchOff_key fun _ => rfl
  · intro a
    exact exists_switchOff_key fun _ => rfl
  · intro a
    exact openItem_cancel.mp
  · intro a
    exact (exists_switchOff_key fun _ => rfl).mp

theorem keyed_closeAttempt (attempt : AttemptId) (terminalState : Status) (reason : String)
    (at_ : Time) (h : Keyed Lease.attempt l.leases) :
    Keyed Lease.attempt (closeAttempt l attempt terminalState reason at_).leases := by
  rcases closeAttempt_eq with ⟨jobs, policies, heq, _, _⟩
  rw [heq]
  exact h.delete

theorem core_closeAttempt (l : Ledger) (attempt : AttemptId) (terminalState : Status)
    (reason : String) (at_ : Time) :
    (closeAttempt l attempt terminalState reason at_).jobs.map Job.core = l.jobs.map Job.core := by
  rcases closeAttempt_eq with ⟨jobs, policies, heq, hcore, _⟩
  rw [heq]
  exact hcore

theorem items_closeAttempt {attempt : AttemptId} {terminalState : Status} {at_ : Time} :
    (closeAttempt l attempt terminalState reason at_).items =
      update (fun i => decide (i.attempt = attempt) && i.state.isOpen) (cancelItem reason)
        l.items := by
  rcases closeAttempt_eq with ⟨jobs, policies, heq, _, _⟩
  rw [heq]

theorem refs_closeAttempt (l : Ledger) (attempt : AttemptId) (terminalState : Status)
    (reason : String) (at_ : Time) :
    (closeAttempt l attempt terminalState reason at_).refs = l.refs := by
  rcases closeAttempt_eq with ⟨jobs, policies, heq, hj, _⟩
  rw [heq]
  unfold refs
  congr 1
  · exact map_eq_of_core hj fun _ => rfl
  · exact map_update fun _ => rfl
  · exact map_update fun _ => rfl
  · exact map_update fun _ => rfl
  · exact map_update fun _ => rfl

end PortageEngine.Ledger
