import PortageEngine.Library.Custody
import PortageEngine.Ledger.PhaseWork

/-!
# References and holdings

Two projections of the tables carry the bookkeeping results.

* `refs` keeps the columns that no statement rewrites: keys, and the job, project, phase and
  position a row was inserted with.  An `UPDATE` leaves `refs` alone, so what is proved about it is
  proved once, for the inserts.
* `custody` is the abstract picture: which attempts hold a lease, an active reservation and an
  unsettled usage record, which still use phase items or an artifact budget, and which jobs may be
  worked on.
-/

namespace PortageEngine.Ledger

open Library Library.Rows

/-! ## Columns that never change -/

/-- The constant columns of a row that an attempt holds. -/
structure HeldRef where
  attempt : AttemptId
  job : JobId
  project : ProjectId

structure ItemRef where
  id : ItemId
  attempt : AttemptId
  job : JobId
  project : ProjectId
  phase : Phase
  sequence : Nat

def Reservation.ref (r : Reservation) : HeldRef := ⟨r.attempt, r.job, r.project⟩
def Usage.ref (u : Usage) : HeldRef := ⟨u.attempt, u.job, u.project⟩
def Budget.ref (b : Budget) : HeldRef := ⟨b.attempt, b.job, b.project⟩
def PhaseItem.ref (i : PhaseItem) : ItemRef :=
  ⟨i.id, i.attempt, i.job, i.project, i.phase, i.sequence⟩
def PhaseClaim.ref (c : PhaseClaim) : ItemRef :=
  ⟨c.id, c.attempt, c.job, c.project, c.phase, c.sequence⟩

/-- The columns of an attempt that are never rewritten. -/
structure AttemptNumber where
  id : AttemptId
  job : JobId
  attemptNo : Nat
  fence : Nat

def Attempt.number (a : Attempt) : AttemptNumber :=
  ⟨a.id, a.job, a.attemptNo, a.fence⟩

structure Refs where
  jobs : List (JobId × ProjectId)
  attempts : List (AttemptId × JobId)
  reservations : List HeldRef
  usages : List HeldRef
  budgets : List HeldRef
  items : List ItemRef

def refs (l : Ledger) : Refs where
  jobs := l.jobs.map fun j => (j.id, j.project)
  attempts := l.attempts.map fun a => (a.id, a.job)
  reservations := l.reservations.map Reservation.ref
  usages := l.usages.map Usage.ref
  budgets := l.budgets.map Budget.ref
  items := l.items.map PhaseItem.ref

/-- A row of an attempt names that attempt's job and project. -/
def Refs.Held (s : Refs) (h : HeldRef) : Prop :=
  (h.attempt, h.job) ∈ s.attempts ∧ (h.job, h.project) ∈ s.jobs

structure Refs.Sound (s : Refs) : Prop where
  jobs : Keyed Prod.fst s.jobs
  attempts : Keyed Prod.fst s.attempts
  attempts_job : ∀ a ∈ s.attempts, ∃ j ∈ s.jobs, j.1 = a.2
  reservations : Keyed HeldRef.attempt s.reservations
  reservations_held : ∀ r ∈ s.reservations, s.Held r
  usages : Keyed HeldRef.attempt s.usages
  usages_held : ∀ u ∈ s.usages, s.Held u
  budgets_held : ∀ b ∈ s.budgets, s.Held b
  items : Keyed ItemRef.id s.items
  items_held : ∀ i ∈ s.items, s.Held ⟨i.attempt, i.job, i.project⟩
  items_position : ∀ i ∈ s.items, i.sequence = phaseSequence i.phase
  items_phase : ∀ i ∈ s.items, ∀ k ∈ s.items, i.attempt = k.attempt → i.phase = k.phase → i = k

theorem map_eq_of_core {β : Type} {jobs jobs' : List Job} (h : jobs'.map Job.core = jobs.map Job.core)
    {f : Job → β} (hf : ∀ j, f j.core = f j) : jobs'.map f = jobs.map f := by
  have hcomp : f ∘ Job.core = f := funext hf
  calc jobs'.map f = (jobs'.map Job.core).map f := by rw [List.map_map, hcomp]
    _ = (jobs.map Job.core).map f := by rw [h]
    _ = jobs.map f := by rw [List.map_map, hcomp]

/-! ## Holdings -/

inductive Holding
  | lease
  | reservation
  | usage

inductive Use
  | phaseItem
  | artifactBudget

def leased (l : Ledger) (a : AttemptId) : Prop :=
  ∃ x ∈ l.leases, x.attempt = a

/-- The attempt has an active resource reservation. -/
def reserved (l : Ledger) (a : AttemptId) : Prop :=
  ∃ r ∈ l.reservations, r.attempt = a ∧ r.active = true

/-- The attempt has an unsettled usage record. -/
def metered (l : Ledger) (a : AttemptId) : Prop :=
  ∃ u ∈ l.usages, u.attempt = a ∧ u.active = true

/-- The attempt has a phase item left blocked, ready or claimed. -/
def hasOpenItem (l : Ledger) (a : AttemptId) : Prop :=
  ∃ i ∈ l.items, i.attempt = a ∧ i.state.isOpen = true

/-- The attempt has an active artifact-budget reservation. -/
def hasBudget (l : Ledger) (a : AttemptId) : Prop :=
  ∃ b ∈ l.budgets, b.attempt = a ∧ b.active = true

def attemptOf (l : Ledger) (a : AttemptId) (j : JobId) : Prop :=
  ∃ x ∈ l.attempts, x.id = a ∧ x.job = j

/-- A job nobody may be working on: queued, ended or canceled. -/
def Job.idle (j : Job) : Bool :=
  j.state = .queued || isLedgerTerminal j.state || j.cancelRequestedAt.isSome

/-- A notion of being worked on that the transactions respect: a claim makes it true, the states
`queued` and ended make it false, and it does not look at wake-up times. -/
structure Busy (busy : Job → Bool) : Prop where
  core : ∀ j : Job, busy j.core = busy j
  claimed : ∀ (j : Job) (snapshot : StoredStatus), j.cancelRequestedAt = none → j.visible = true →
    busy (claimJobRow snapshot j) = true
  queued : ∀ j : Job, j.state = .queued → busy j = false
  ended : ∀ j : Job, isLedgerTerminal j.state = true → busy j = false

theorem busy_not_idle : Busy fun j => !j.idle := by
  refine ⟨fun j => rfl, ?_, ?_, ?_⟩
  · intro j snapshot hcancel _
    simp [Job.idle, claimJobRow, isLedgerTerminal, hcancel]
  · intro j hqueued
    simp [Job.idle, hqueued]
  · intro j hended
    simp [Job.idle, hended]

def workable (busy : Job → Bool) (l : Ledger) (j : JobId) : Prop :=
  ∃ x ∈ l.jobs, x.id = j ∧ busy x = true

def custody (busy : Job → Bool) (l : Ledger) : Custody AttemptId JobId Holding Use where
  holds
    | .lease => leased l
    | .reservation => reserved l
    | .usage => metered l
  uses
    | .phaseItem => hasOpenItem l
    | .artifactBudget => hasBudget l
  worksFor := attemptOf l
  isOpen := workable busy l

variable {l : Ledger} {attempt : AttemptId}

theorem attemptOf_iff {a : AttemptId} {j : JobId} :
    attemptOf l a j ↔ (a, j) ∈ l.refs.attempts := by
  simp [attemptOf, refs]

theorem Refs.Sound.attemptOf_unique (h : l.refs.Sound) {a : AttemptId}
    {i j : JobId} (hi : attemptOf l a i) (hj : attemptOf l a j) : i = j := by
  have heq := h.attempts.eq (attemptOf_iff.mp hi) (attemptOf_iff.mp hj) rfl
  exact (Prod.ext_iff.mp heq).2

theorem Refs.Sound.job_unique (h : l.refs.Sound) {x y : Job} (hx : x ∈ l.jobs)
    (hy : y ∈ l.jobs) (hid : x.id = y.id) : x = y := by
  have hkeyed : Keyed Job.id l.jobs := by
    have := h.jobs
    simpa [Keyed, refs, Function.comp_def] using this
  exact hkeyed.eq hx hy hid

theorem Refs.Sound.reservations_keyed (h : l.refs.Sound) :
    Keyed Reservation.attempt l.reservations := by
  have hkeyed := h.reservations
  simpa [Keyed, refs, Function.comp_def, Reservation.ref] using hkeyed

theorem Refs.Sound.usages_keyed (h : l.refs.Sound) :
    Keyed Usage.attempt l.usages := by
  have hkeyed := h.usages
  simpa [Keyed, refs, Function.comp_def, Usage.ref] using hkeyed

/-! ## The artifact budgets -/

theorem validateMetadataFence_holds {status : BuildStatus}
    {now : Time} (h : validateMetadataFence l status false now = .ok attempt) :
    leased l attempt ∧ attemptOf l attempt status.jobId :=
  ⟨(validateMetadataFence_ok h).2.2 rfl, (validateMetadataFence_ok h).2.1⟩

/-- What a call on the artifact budgets may do: it writes the two budget tables only, and a row is
one of before, not switched on again, or that of an attempt with a lease. -/
structure BudgetStep (l l' : Ledger) : Prop where
  frame : ∃ budgets generations, l' = { l with budgets := budgets, generations := generations }
  rows : ∀ x ∈ l'.budgets, (∃ b ∈ l.budgets, x.ref = b.ref ∧ (x.active = true → b.active = true)) ∨
    (l.refs.Held x.ref ∧ leased l x.attempt)

variable {l l₁ : Ledger}

theorem budgetStep_refl : BudgetStep l l :=
  ⟨⟨_, _, rfl⟩, fun x hx => .inl ⟨x, hx, rfl, id⟩⟩

theorem BudgetStep.update (h : BudgetStep l l₁) {generations : List Generation}
    {p : Budget → Bool} {f : Budget → Budget} (href : ∀ b, (f b).ref = b.ref)
    (hactive : ∀ b, (f b).active = true → b.active = true) :
    BudgetStep l { l₁ with generations := generations, budgets := update p f l₁.budgets } := by
  constructor
  · rcases h.frame with ⟨budgets, generations₁, rfl⟩
    exact ⟨_, _, rfl⟩
  · refine forall_update h.rows ?_
    intro b hb _
    rcases h.rows b hb with ⟨y, hy, hyref, hon⟩ | hheld
    · exact .inl ⟨y, hy, (href b).trans hyref, fun hb => hon (hactive b hb)⟩
    · have hattempt : (f b).attempt = b.attempt := congrArg HeldRef.attempt (href b)
      exact .inr ⟨href b ▸ hheld.1, hattempt ▸ hheld.2⟩

theorem budgetStep_ensureArtifactBudget {job : JobId} {b : Budget}
    (hlease : leased l attempt) (hjob : attemptOf l attempt job)
    (hok : ensureArtifactBudget l job attempt = .ok (l₁, b)) : BudgetStep l l₁ := by
  unfold ensureArtifactBudget at hok
  cases hbudget : l.budget? attempt with
  | some b' =>
    simp only [hbudget] at hok
    replace hok := passed hok
    cases hok
    exact budgetStep_refl
  | none =>
    simp only [hbudget] at hok
    rcases bind_eq_ok.mp hok with ⟨j, hj, hok⟩
    rcases bind_eq_ok.mp hok with ⟨p, _, hok⟩
    cases hok
    have hfind := found_eq_ok.mp hj
    have hid : j.id = job := by simpa using List.find?_some hfind
    refine ⟨⟨_, _, rfl⟩, List.forall_mem_cons.mpr ⟨.inr ⟨⟨?_, ?_⟩, hlease⟩, ?_⟩⟩
    · exact hid ▸ attemptOf_iff.mp hjob
    · exact List.mem_map.mpr ⟨j, List.mem_of_find?_eq_some hfind, rfl⟩
    · exact (budgetStep_refl).rows

end PortageEngine.Ledger
