import PortageEngine.Ledger.System

/-!
# Fair selection

`ClaimNext` and `ClaimPhaseWork` serve the project that comes first in a fixed order: projects with a
phase to replay, then starved ones by the age of their oldest work, then the others by virtual
runtime.  A dispatch advances the virtual runtime of its project by a step that is the smaller the
larger the project's weight.

`System` covers every choice of a job or an item; here the choice is the one the queries make.  The
rows that other transactions have locked are arguments, as `SKIP LOCKED` passes over them.
-/

namespace PortageEngine.Ledger

open List Library Library.Rows
open Library.Decimal (trimSpace)

/-! ## Tables -/

/-- The columns of `project_policies` that the fair order reads. -/
structure Share where
  project : ProjectId
  priorityWeight : Nat
  starvationThresholdSeconds : Nat
  positive : 0 < priorityWeight

/-- The two queues that projects are served from. -/
inductive DispatchKind
  | admission
  | phase
  deriving DecidableEq

/-- `project_scheduler_fairness`. -/
structure Fairness where
  project : ProjectId
  admissionVruntime : Nat
  phaseVruntime : Nat
  admissionDispatches : Nat
  phaseDispatches : Nat
  deriving DecidableEq

def Fairness.vruntime (f : Fairness) : DispatchKind → Nat
  | .admission => f.admissionVruntime
  | .phase => f.phaseVruntime

def Fairness.dispatches (f : Fairness) : DispatchKind → Nat
  | .admission => f.admissionDispatches
  | .phase => f.phaseDispatches

/-- What a job asks of its executor, and its place in the project's own queue. -/
structure JobTraits where
  minimumExecutorProtocol : Nat
  requiredCapabilities : List String
  priority : Int

/-- The row of the polling executor in `workers`. -/
structure Executor where
  active : Bool
  lastSeenAt : Time
  protocol : Nat
  labels : List String
  deriving DecidableEq

/-- The tables of the fair scheduler beside the ledger, with one fairness row per project. -/
structure FairTables where
  shares : List Share
  fairness : List Fairness
  keyed : Keyed Fairness.project fairness
  traits : JobId → JobTraits
  itemCapabilities : ItemId → List String

def FairTables.share? (t : FairTables) (project : ProjectId) : Option Share :=
  t.shares.find? (·.project = project)

def fairnessVRuntimeScale : Nat := 1000

def Share.dispatchStep (s : Share) : Nat :=
  max 1 ((fairnessVRuntimeScale + s.priorityWeight - 1) / s.priorityWeight)

def ensureFairnessRow (admission phase : Nat) (rows : List Fairness) (p : Policy) :
    List Fairness :=
  if rows.any (·.project = p.project) then rows else rows ++ [{
    project := p.project
    admissionVruntime := admission
    phaseVruntime := phase
    admissionDispatches := 0
    phaseDispatches := 0 }]

variable {rows : List Fairness}

theorem keyed_ensureFairnessRow (h : Keyed Fairness.project rows)
    {admission phase : Nat} {p : Policy} :
    Keyed Fairness.project (ensureFairnessRow admission phase rows p) := by
  unfold ensureFairnessRow
  by_cases hany : rows.any (·.project = p.project) = true
  · rw [if_pos hany]
    exact h
  rw [if_neg hany]
  unfold Keyed
  rw [map_append]
  refine List.Nodup.append h (nodup_singleton _) ?_
  intro project hrow hnew
  rcases mem_map.mp hrow with ⟨f, hf, rfl⟩
  have hproject : f.project = p.project := by simpa using hnew
  exact hany (any_eq_true.mpr ⟨f, hf, by simp [hproject]⟩)

theorem keyed_ensureFairnessRows {admission phase : Nat} {policies : List Policy} (h : Keyed Fairness.project rows) :
    Keyed Fairness.project (policies.foldl (ensureFairnessRow admission phase) rows) := by
  induction policies generalizing rows with
  | nil => exact h
  | cons p policies ih => exact ih (keyed_ensureFairnessRow h)

/-- `ensureProjectFairnessRows`: a project without a row starts at the highest virtual runtimes. -/
def ensureProjectFairnessRows (t : FairTables) (policies : List Policy) : FairTables :=
  let admission := (t.fairness.map (·.admissionVruntime)).foldl max 0
  let phase := (t.fairness.map (·.phaseVruntime)).foldl max 0
  { t with
    fairness := policies.foldl (ensureFairnessRow admission phase) t.fairness
    keyed := keyed_ensureFairnessRows t.keyed }

/-! ## The fair order -/

/-- `fairProjectSelection`, with the replay flag of the phase query. -/
structure Selection where
  project : ProjectId
  vruntimeBefore : Nat
  oldestAt : Time
  starved : Bool
  hasReplay : Bool

/-- The `ORDER BY` of both selections; no admission has a replay. -/
def Selection.rank (x : Selection) : Nat ×ₗ Nat ×ₗ Nat ×ₗ Nat ×ₗ Nat ×ₗ Nat :=
  toLex (if x.hasReplay then 0 else 1, toLex (if x.starved then 0 else 1,
    toLex (if x.starved then x.oldestAt else 0, toLex (x.vruntimeBefore,
      toLex (x.oldestAt, x.project)))))

/-- A project as one of the two queries sees it. -/
def selection? (kind : DispatchKind) (t : FairTables) (oldest : ProjectId → Option Time)
    (hasReplay : ProjectId → Bool) (now : Time) (f : Fairness) : Option Selection := do
  let share ← t.share? f.project
  let oldestAt ← oldest f.project
  return {
    project := f.project
    vruntimeBefore := f.vruntime kind
    oldestAt := oldestAt
    starved := oldestAt + share.starvationThresholdSeconds * microsPerSecond ≤ now
    hasReplay := hasReplay f.project }

/-- The projects with eligible work whose fairness row is not locked. -/
def fairCandidates (kind : DispatchKind) (t : FairTables) (oldest : ProjectId → Option Time)
    (hasReplay : ProjectId → Bool) (locked : ProjectId → Bool) (now : Time) : List Selection :=
  (t.fairness.filter fun f => !locked f.project).filterMap (selection? kind t oldest hasReplay now)

/-- The row of a project that has been served. -/
def Fairness.serve (kind : DispatchKind) (step : Nat) (f : Fairness) : Fairness :=
  match kind with
  | .admission => { f with
      admissionVruntime := f.admissionVruntime + step
      admissionDispatches := f.admissionDispatches + 1 }
  | .phase => { f with
      phaseVruntime := f.phaseVruntime + step
      phaseDispatches := f.phaseDispatches + 1 }

@[simp] theorem Fairness.serve_project (kind : DispatchKind) (step : Nat) (f : Fairness) :
    (f.serve kind step).project = f.project := by
  cases kind <;> rfl

def recordFairDispatch (t : FairTables) (kind : DispatchKind) (project : ProjectId) : FairTables :=
  match t.share? project with
  | none => t
  | some share => { t with
      fairness := update (fun f => f.project = project) (Fairness.serve kind share.dispatchStep)
        t.fairness
      keyed := t.keyed.update fun _ => Fairness.serve_project _ _ _ }

/-! ## Admission -/

/-- What a poll of `ClaimNext` finds outside the tables; the candidate of `claim` is not used. -/
structure Poll where
  claim : ClaimCall
  executor : Executor
  rankedAt : Time
  lockedProjects : ProjectId → Bool
  lockedJobs : JobId → Bool

/-- A job that waits for an executor and is due, in a project that may have it. -/
def dueJob (l : Ledger) (now : Time) (j : Job) : Bool :=
  j.state = .queued && j.cancelRequestedAt = none && j.visible && j.nextAttemptAt ≤ now &&
    (match l.policy? j.project with
      | none => false
      | some p => !p.suspended && p.abuseSuspendedUntil.getD 0 ≤ now &&
          activeJobs l j.project none < p.maxActiveJobs)

/-- The executor is in service and fit for work with these requirements. -/
def Executor.fits (e : Executor) (now : Time) (minimumProtocol : Nat) (required : List String) :
    Bool :=
  e.active && now < e.lastSeenAt + 45 * microsPerSecond && minimumProtocol ≤ e.protocol &&
    required.all fun label => e.labels.contains label

/-- A job of the `eligible` query. -/
def eligibleJob (t : FairTables) (l : Ledger) (e : Executor) (now : Time) (j : Job) : Bool :=
  dueJob l now j &&
    e.fits now (t.traits j.id).minimumExecutorProtocol (t.traits j.id).requiredCapabilities

/-- The age of a project's oldest eligible job. -/
def oldestQueued (t : FairTables) (l : Ledger) (e : Executor) (now : Time) (project : ProjectId) :
    Option Time :=
  ((l.jobs.filter fun j => j.project = project && eligibleJob t l e now j).map (·.createdAt)).min?

/-- The projects `selectFairAdmissionProject` chooses from. -/
def admissionCandidates (t : FairTables) (l : Ledger) (p : Poll) : List Selection :=
  fairCandidates .admission t (oldestQueued t l p.executor p.rankedAt) (fun _ => false)
    p.lockedProjects p.rankedAt

def selectFairAdmissionProject (t : FairTables) (l : Ledger) (p : Poll) : Option Selection :=
  (admissionCandidates t l p).argmin Selection.rank

/-- The `ORDER BY` of `selectClaimCandidate`.  The priority is a 32-bit integer column and comes in
descending order. -/
def jobRank (t : FairTables) (j : Job) : Nat ×ₗ Nat ×ₗ Nat ×ₗ Nat :=
  toLex ((2147483647 - (t.traits j.id).priority).toNat,
    toLex (j.nextAttemptAt, toLex (j.createdAt, j.id)))

/-- The polling executor has been seen just now. -/
def Executor.fresh (e : Executor) (now : Time) : Bool :=
  now < e.lastSeenAt + 5 * microsPerSecond

/-- The jobs of the selected project that the executor may take. -/
def claimCandidates (t : FairTables) (l : Ledger) (p : Poll) (project : ProjectId) : List Job :=
  l.jobs.filter fun j => j.project = project && !p.lockedJobs j.id && claimable l p.claim j &&
    p.executor.fits p.claim.selectedAt (t.traits j.id).minimumExecutorProtocol
      (t.traits j.id).requiredCapabilities && p.executor.fresh p.claim.selectedAt

/-- `selectClaimCandidate`, once the project is chosen. -/
def selectClaimCandidate (t : FairTables) (l : Ledger) (p : Poll) (project : ProjectId) :
    Option Job :=
  (claimCandidates t l p project).argmin (jobRank t)

/-- The project has a job that the executor may take and that all its quotas admit. -/
def admissible (t : FairTables) (l : Ledger) (p : Poll) (project : ProjectId) : Bool :=
  (claimCandidates t l p project).any fun j =>
    match chargeOf j.request with
    | .error _ => false
    | .ok charge =>
      match lockAndCheckClaimAdmission l j.project j.id charge p.claim.admittedAt with
      | .ok .admitted => true
      | _ => false

/-- What a poll leaves behind: the tables, the project it dispatched and the claim. -/
structure PollResult (γ : Type) where
  tables : FairTables
  ledger : Ledger
  dispatched : Option ProjectId
  claim : Option γ

def PollResult.nothing {γ : Type} (t : FairTables) (l : Ledger) : PollResult γ :=
  ⟨t, l, none, none⟩

/-- The end of a poll: a claim that was made is recorded as a dispatch. -/
def PollResult.finish {γ : Type} (kind : DispatchKind) (t : FairTables) (project : ProjectId)
    (r : Ledger × Option γ) : PollResult γ :=
  match r.2 with
  | none => .nothing t r.1
  | some claim => ⟨recordFairDispatch t kind project, r.1, some project, some claim⟩

def Poll.recovered (p : Poll) (l : Ledger) : Ledger :=
  recoverExpired l p.claim.recoveredAt p.claim.locked schedulerRecoveryBatch

/-- `ClaimNext` with its own choice of the job. -/
def poll (t : FairTables) (l : Ledger) (p : Poll) :
    Except LedgerError (PollResult SchedulerClaim) := do
  require (p.claim.worker ≠ "") (.refused "stable worker name is required")
  require (0 < p.claim.leaseDuration) (.refused "lease duration must be positive")
  let l := p.recovered l
  let t := ensureProjectFairnessRows t l.policies
  match selectFairAdmissionProject t l p with
  | none => return .nothing t l
  | some selected =>
    match selectClaimCandidate t l p selected.project with
    | none => return .nothing t l
    | some j => .finish .admission t selected.project <$>
        claimNextTx l { p.claim with candidate := j.id }

/-! ## Phases -/

/-- What a poll of `ClaimPhaseWork` finds outside the tables.  `readySince` is the column of that
name; of the selected project's items the query takes `call.item`. -/
structure PhasePoll where
  call : PhaseCall
  executor : Executor
  phases : List Phase
  readySince : ItemId → Option Time
  lockedProjects : ProjectId → Bool

/-- An item of the `eligible` query: its phase has room, or its attempt is there already. -/
def eligibleItem (t : FairTables) (l : Ledger) (p : PhasePoll) (i : PhaseItem) : Bool :=
  let now := p.call.now
  i.state = .ready && i.mode = .active && i.availableAt ≤ now &&
    (p.phases = [] || p.phases.contains i.phase) &&
    ((l.job? i.job).any fun j => !isLedgerTerminal j.state &&
      p.executor.fits now (t.traits j.id).minimumExecutorProtocol (t.itemCapabilities i.id)) &&
    ((l.attempt? i.attempt).any fun a => !isLedgerTerminal a.state &&
      l.leases.any fun x => x.attempt = i.attempt && x.fence = a.fence && now < x.expiresAt) &&
    (l.usages.any fun u => u.attempt = i.attempt && u.active && now < u.deadline) &&
    ((l.policy? i.project).any fun policy => l.reservations.any fun r => r.attempt = i.attempt &&
      r.active && (r.phase = i.phase.reservation ||
        phaseUsed l i.project i.phase.reservation i.attempt <
          (policy.phaseLimit i.phase.reservation).getD 0))

def eligibleItems (t : FairTables) (l : Ledger) (p : PhasePoll) (project : ProjectId) :
    List PhaseItem :=
  l.items.filter fun i => i.project = project && eligibleItem t l p i

/-- The age of a project's oldest eligible item. -/
def oldestReady (t : FairTables) (l : Ledger) (p : PhasePoll) (project : ProjectId) : Option Time :=
  ((eligibleItems t l p project).map fun i => (p.readySince i.id).getD i.availableAt).min?

/-- An eligible item whose attempt holds the phase already. -/
def hasReplay (t : FairTables) (l : Ledger) (p : PhasePoll) (project : ProjectId) : Bool :=
  (eligibleItems t l p project).any fun i =>
    l.reservations.any fun r => r.attempt = i.attempt && r.active && r.phase = i.phase.reservation

/-- The projects `selectFairPhaseProject` chooses from. -/
def phaseCandidates (t : FairTables) (l : Ledger) (p : PhasePoll) : List Selection :=
  fairCandidates .phase t (oldestReady t l p) (hasReplay t l p) p.lockedProjects p.call.now

def selectFairPhaseProject (t : FairTables) (l : Ledger) (p : PhasePoll) : Option Selection :=
  (phaseCandidates t l p).argmin Selection.rank

/-- The item the second query may take: of the selected project, of a wanted phase, and within the
executor's means. -/
def phaseItemFits (t : FairTables) (l : Ledger) (p : PhasePoll) (project : ProjectId) : Bool :=
  (l.item? p.call.item).any fun i => i.project = project &&
    (p.phases = [] || p.phases.contains i.phase) && p.executor.fresh p.call.now &&
    p.executor.fits p.call.now (t.traits i.job).minimumExecutorProtocol (t.itemCapabilities i.id)

/-- `ClaimPhaseWork` with its own choice of the project. -/
def pollPhase (t : FairTables) (l : Ledger) (p : PhasePoll) :
    Except LedgerError (PollResult PhaseClaim) := do
  require (trimSpace p.call.owner ≠ "" && (trimSpace p.call.owner).utf8ByteSize ≤ 256)
    (.refused "phase work owner is required")
  require (0 < p.call.lease) (.refused "phase work lease must be positive")
  let reclaimed := reclaimExpired l p.call.now
  let t := ensureProjectFairnessRows t l.policies
  match selectFairPhaseProject t reclaimed p with
  | none => return .nothing t reclaimed
  | some selected =>
    if phaseItemFits t reclaimed p selected.project then
      .finish .phase t selected.project <$> claimPhaseWork l p.call
    else return .nothing t reclaimed

variable {t : FairTables}

/-- A poll of `ClaimNext` recovers leases and adds fairness rows; then it finds nothing, or hands
the first job of the first project to the admission check. -/
theorem poll_ok {l : Ledger} {p : Poll} {r : PollResult SchedulerClaim} (h : poll t l p = .ok r) :
    let l₁ := p.recovered l
    let t₁ := ensureProjectFairnessRows t l₁.policies
    (r = .nothing t₁ l₁ ∧ ∀ selected, selectFairAdmissionProject t₁ l₁ p = some selected →
        selectClaimCandidate t₁ l₁ p selected.project = none) ∨
    ∃ selected j result, selectFairAdmissionProject t₁ l₁ p = some selected ∧
      selectClaimCandidate t₁ l₁ p selected.project = some j ∧
      claimNextTx l₁ { p.claim with candidate := j.id } = .ok result ∧
      r = .finish .admission t₁ selected.project result := by
  intro l₁ t₁
  replace h := passed h
  replace h := passed h
  cases hselected : selectFairAdmissionProject t₁ l₁ p with
  | none =>
    simp only [l₁, t₁] at hselected
    simp only [hselected] at h
    exact .inl ⟨(Except.ok.inj h).symm, nofun⟩
  | some selected =>
    cases hj : selectClaimCandidate t₁ l₁ p selected.project with
    | none =>
      simp only [l₁, t₁] at hselected hj
      simp only [hselected, hj] at h
      refine .inl ⟨(Except.ok.inj h).symm, ?_⟩
      intro other hother
      cases hother
      exact hj
    | some j =>
      have hj' := hj
      simp only [l₁, t₁] at hselected hj
      simp only [hselected, hj] at h
      rcases map_eq_ok.mp h with ⟨result, hresult, hr⟩
      exact .inr ⟨selected, j, result, rfl, hj', hresult, hr.symm⟩

theorem pollPhase_ok {l : Ledger} {p : PhasePoll} {r : PollResult PhaseClaim}
    (h : pollPhase t l p = .ok r) :
    let l₁ := reclaimExpired l p.call.now
    let t₁ := ensureProjectFairnessRows t l.policies
    r = .nothing t₁ l₁ ∨
    ∃ selected result, selectFairPhaseProject t₁ l₁ p = some selected ∧
      claimPhaseWork l p.call = .ok result ∧ r = .finish .phase t₁ selected.project result := by
  intro l₁ t₁
  replace h := passed h
  replace h := passed h
  cases hselected : selectFairPhaseProject t₁ l₁ p with
  | none =>
    simp only [l₁, t₁] at hselected
    simp only [hselected] at h
    exact .inl (Except.ok.inj h).symm
  | some selected =>
    simp only [l₁, t₁] at hselected
    simp only [hselected] at h
    by_cases hfits : phaseItemFits t₁ l₁ p selected.project = true
    · rw [if_pos hfits] at h
      rcases map_eq_ok.mp h with ⟨result, hresult, hr⟩
      exact .inr ⟨selected, result, rfl, hresult, hr.symm⟩
    · rw [if_neg hfits] at h
      exact .inl (Except.ok.inj h).symm

/-! ## The system with fair selection -/

/-- The ledger, the phase claims handed out, and the tables of the fair scheduler. -/
structure FairSystem where
  system : System
  tables : FairTables

/-- A poll, or a ledger transaction that is not a claim. -/
inductive FairOp
  | ledger (op : Op)
  | poll (p : Poll)
  | pollPhase (p : PhasePoll)

/-- The operation takes a job or an item off a queue. -/
def Op.claims : Op → Bool
  | .claim _ | .claimPhase _ => true
  | _ => false

def stepFair (s : FairSystem) : FairOp → FairSystem
  | .ledger op => if op.claims then s else { s with system := step s.system op }
  | .poll p =>
    match poll s.tables s.system.ledger p with
    | .ok r => { system := { s.system with ledger := r.ledger }, tables := r.tables }
    | .error _ => s
  | .pollPhase p =>
    match pollPhase s.tables s.system.ledger p with
    | .ok r => {
        system := { ledger := r.ledger, issued := r.claim.toList ++ s.system.issued }
        tables := r.tables }
    | .error _ => s

/-! ## Polls are claims -/

theorem ledger_finish {γ : Type} {kind : DispatchKind} {project : ProjectId}
    {r : Ledger × Option γ} : (PollResult.finish kind t project r).ledger = r.1 ∧
      (PollResult.finish kind t project r).claim = r.2 := by
  rcases r with ⟨l, none | claim⟩
  · exact ⟨rfl, rfl⟩
  · exact ⟨rfl, rfl⟩

theorem poll_refines {s : System} {p : Poll} {r : PollResult SchedulerClaim}
    (h : poll t s.ledger p = .ok r) :
    ∃ op, step s op = { s with ledger := r.ledger } := by
  have hworker := (require_bind_eq_ok.mp h).1
  have hlease := (require_bind_eq_ok.mp (require_bind_eq_ok.mp h).2).1
  rcases poll_ok h with ⟨rfl, _⟩ | ⟨selected, j, ⟨l, claim⟩, _, _, hclaim, rfl⟩
  · exact ⟨.recover p.claim.recoveredAt p.claim.locked schedulerRecoveryBatch, rfl⟩
  refine ⟨.claim { p.claim with candidate := j.id }, ?_⟩
  have hrun : claimNext s.ledger { p.claim with candidate := j.id } = .ok (l, claim) :=
    require_bind_eq_ok.mpr ⟨hworker, require_bind_eq_ok.mpr ⟨hlease, hclaim⟩⟩
  rw [(ledger_finish).1]
  simp [step, Op.presents, Op.run, hrun]

theorem exists_unused_item (l : Ledger) : ∃ id, l.item? id = none := by
  rcases Infinite.exists_notMem_finset (l.items.map PhaseItem.id).toFinset with ⟨id, hid⟩
  refine ⟨id, find?_eq_none.mpr ?_⟩
  intro i hi heq
  exact hid (mem_toFinset.mpr (mem_map.mpr ⟨i, hi, by simpa using heq⟩))

theorem pollPhase_refines {s : System} {p : PhasePoll} {r : PollResult PhaseClaim}
    (h : pollPhase t s.ledger p = .ok r) :
    ∃ op, step s op = { ledger := r.ledger, issued := r.claim.toList ++ s.issued } := by
  have howner := (require_bind_eq_ok.mp h).1
  have hlease := (require_bind_eq_ok.mp (require_bind_eq_ok.mp h).2).1
  rcases pollPhase_ok h with rfl | ⟨selected, ⟨l, claim⟩, _, hclaim, rfl⟩
  · rcases exists_unused_item (reclaimExpired s.ledger p.call.now) with ⟨id, hid⟩
    refine ⟨.claimPhase { p.call with item := id }, ?_⟩
    have hnone : phaseCandidate? (reclaimExpired s.ledger p.call.now)
        { p.call with item := id, owner := trimSpace p.call.owner } = none := by
      simp [phaseCandidate?, hid]
    have hrun : claimPhaseWork s.ledger { p.call with item := id } =
        .ok (reclaimExpired s.ledger p.call.now, none) := by
      refine require_bind_eq_ok.mpr ⟨howner, require_bind_eq_ok.mpr ⟨hlease, ?_⟩⟩
      simp only [hnone]
      rfl
    simp [step, Op.presents, Op.run, hrun, PollResult.nothing]
  · refine ⟨.claimPhase p.call, ?_⟩
    rw [(ledger_finish).1, (ledger_finish).2]
    simp [step, Op.presents, Op.run, hclaim]

theorem stepFair_refines {s : FairSystem} {op : FairOp} :
    (stepFair s op).system = s.system ∨ ∃ op', (stepFair s op).system = step s.system op' := by
  cases op with
  | ledger op =>
    simp only [stepFair]
    split
    · exact .inl rfl
    · exact .inr ⟨op, rfl⟩
  | poll p =>
    cases hpoll : poll s.tables s.system.ledger p with
    | error e =>
      simp only [stepFair, hpoll]
      exact .inl trivial
    | ok r =>
      rcases poll_refines hpoll with ⟨op', hop'⟩
      simp only [stepFair, hpoll]
      exact .inr ⟨op', hop'.symm⟩
  | pollPhase p =>
    cases hpoll : pollPhase s.tables s.system.ledger p with
    | error e =>
      simp only [stepFair, hpoll]
      exact .inl trivial
    | ok r =>
      rcases pollPhase_refines hpoll with ⟨op', hop'⟩
      simp only [stepFair, hpoll]
      exact .inr ⟨op', hop'.symm⟩

end PortageEngine.Ledger
