import PortageEngine.Ledger.BalanceAttempt

/-!
# The books of every run

From the empty ledger, any sequence of operations keeps leases, reservations and usage records
together, as long as no attempt reports that its job is queued.
-/

namespace PortageEngine.Ledger

open List Library Library.Runs

variable {l : Ledger} {op : Op}

theorem Balanced.idle_unheld (h : Balanced (fun j => !j.idle) l) {j : Job}
    (hj : j ∈ l.jobs) (hidle : j.idle = true) {k : Holding} {a : AttemptId}
    (ha : (Ledger.custody (fun j => !j.idle) l).holds k a) (haj : attemptOf l a j.id) : False := by
  rcases h.custody.atWork k a j.id ha haj with ⟨x, hx, hid, hbusy⟩
  have hxj := h.refs.job_unique hx hj hid
  simp [hxj, hidle] at hbusy

variable {busy : Job → Bool}

/-- The invariant of the system: balanced books, and claims that describe their items. -/
structure Inv (busy : Job → Bool) (s : System) : Prop where
  balanced : Balanced busy s.ledger
  issued : ∀ c ∈ s.issued, c.ref ∈ s.ledger.refs.items

/-- A report is fenced, and unless it ends the attempt the job stays busy. -/
def Op.Respects (busy : Job → Bool) : Op → Prop
  | .record _ current now _ => current.attemptId.isSome = true ∧
      (isLedgerTerminal current.status = false →
        ∀ j, busy j = true → busy (reportJobRow current now j) = true)
  | _ => True

theorem Balanced.run {l l' : Ledger} (h : Balanced busy l) (hp : Planned l')
    {claim : Option PhaseClaim} (hop : op.Respects busy)
    (hissued : ∀ c, op.presents = some c → c.ref ∈ l.refs.items)
    (hok : op.run l = .ok (l', claim)) : Balanced busy l' := by
  cases op.commits hok with
  | create call hk => exact h.createJob hp hk
  | claim call c hk => exact h.claimNext hp hk
  | renew status leaseDuration now hk => exact h.renewClaim hp hk
  | record previous current now fresh hk =>
    rcases Option.isSome_iff_exists.mp hop.1 with ⟨attempt, hattempt⟩
    exact h.recordTransition hp hattempt hop.2 hk
  | recover now locked limit => exact h.recoverExpired now locked limit
  | cancel job reason now status hk => exact h.cancelJob hp hk
  | retry job counted now status hk => exact h.retryJob hp hk
  | activate status now hk => exact h.activatePhasePlan hp hk
  | claimPhase call hk => exact h.claimPhaseWork hp hk
  | renewPhase c lease now hk => exact h.renewPhaseWork hp hk
  | finishPhase c outcome now hk => exact h.finishPhaseWork hp hk
  | finalize c previous completed now at_ hk => exact h.finalizePhaseWork hp (hissued c rfl) hk
  | failPhase c previous detail now at_ hk => exact h.failPhaseWorkAndJob hp (hissued c rfl) hk
  | budget hk => exact h.budgets hp hk.budgetStep

theorem inv_init (hb : Busy busy) (policies : List Policy) : Inv busy (System.init policies) :=
  ⟨balanced_empty hb, by simp [System.init]⟩

theorem Inv.step {s : System} (h : Inv busy s) (hop : op.Respects busy) :
    Inv busy (step s op) := by
  rcases step_cases s op with heq | ⟨l, claim, hok, hissued, heq⟩
  · rw [heq]
    exact h
  rw [heq]
  have hpresented := fun c hc => h.issued c (hissued c hc)
  rcases h.balanced.planned.run hpresented hok with ⟨hadvances, hhanded⟩
  refine ⟨h.balanced.run hadvances.planned hop hpresented hok, ?_⟩
  intro c hc
  rcases mem_append.mp hc with hc | hc
  · rcases (hhanded c (by simpa using hc)).after with ⟨i, hi, href, _⟩
    exact mem_map.mpr ⟨i, hi, href⟩
  · exact hadvances.issued (h.issued c hc)

def Op.Fenced (op : Op) : Prop :=
  ∀ current, op.reports = some current → current.attemptId.isSome = true

/-- The operation reports the status `queued`. -/
def Op.ReportsQueued (op : Op) : Prop :=
  ∃ current, op.reports = some current ∧ current.status = .queued

theorem Op.respects_not_idle (hfenced : op.Fenced) (hqueued : ¬ op.ReportsQueued) :
    op.Respects fun j => !j.idle := by
  cases op with
  | record previous current now fresh =>
    refine ⟨hfenced current rfl, ?_⟩
    intro hterminal j hj
    have hstatus : current.status ≠ .queued := fun h => hqueued ⟨current, rfl, h⟩
    simp only [Job.idle, reportJobRow, Bool.not_eq_true', Bool.or_eq_false_iff,
      decide_eq_false_iff_not] at hj ⊢
    exact ⟨⟨decide_eq_false hstatus, hterminal⟩, hj.2⟩
  | _ => trivial

end PortageEngine.Ledger
