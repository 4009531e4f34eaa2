import PortageEngine.Ledger.FairBound

/-!
# Admission behind a blocked project

A poll that selects a project whose job its quotas refuse admits nothing and puts the job off by a
quarter of a second; the project keeps its virtual runtime.  Polls that come later than that select
it again, so one blocked project can keep an executor from all others for as long as it is blocked.
Polls that fall within the deferral cannot: each project is refused at most once.
-/

namespace PortageEngine.Ledger

open List Library Library.Rows Library.Runs

/-! ## The polls of one executor -/

structure Polled where
  state : FairSystem
  poll : Poll

def pollsOf (worker : Worker) (s : FairSystem) : List FairOp → List Polled
  | [] => []
  | op :: ops =>
    match op with
    | .poll p =>
      if p.claim.worker = worker then ⟨s, p⟩ :: pollsOf worker (stepFair s (.poll p)) ops
      else pollsOf worker (stepFair s (.poll p)) ops
    | op => pollsOf worker (stepFair s op) ops

namespace Polled

def ledger (x : Polled) : Ledger :=
  x.poll.recovered x.state.system.ledger

/-- The fairness table that the poll chooses from. -/
def tables (x : Polled) : FairTables :=
  ensureProjectFairnessRows x.state.tables x.ledger.policies

/-- The poll ends without an error and without a claim. -/
def EmptyHanded (x : Polled) : Prop :=
  ∃ r, Ledger.poll x.state.tables x.state.system.ledger x.poll = .ok r ∧ r.claim = none

/-- The project has a job that the executor may take and that all its quotas admit. -/
structure HasWork (x : Polled) (project : ProjectId) : Prop where
  candidate : project ∈ (admissionCandidates x.tables x.ledger x.poll).map Selection.project
  admissible : admissible x.tables x.ledger x.poll project = true

/-- Each project has at most one job that waits for an executor, and nobody else has a waiting job
locked. -/
structure Calm (jobOf : ProjectId → JobId) (x : Polled) : Prop where
  keyed : Keyed Job.id x.ledger.jobs
  one : ∀ j ∈ x.ledger.jobs, j.state = .queued → j.id = jobOf j.project
  unlocked : ∀ j ∈ x.ledger.jobs, j.state = .queued → x.poll.lockedJobs j.id = false
  clock : x.poll.rankedAt ≤ x.poll.claim.selectedAt

/-- The second poll ranks the projects while what the first one put off is still put off. -/
structure Deferring (x y : Polled) : Prop where
  soon : y.poll.rankedAt < x.poll.claim.admittedAt + 250000
  kept : ∀ j ∈ (stepFair x.state (.poll x.poll)).system.ledger.jobs, ∀ k ∈ y.ledger.jobs,
    k.id = j.id → j.nextAttemptAt ≤ k.nextAttemptAt

end Polled

/-! ## What an empty-handed poll has done -/

variable {now : Time} {l : Ledger} {j : Job}

variable {e : Executor} {later : Time} {p : Poll} {project : ProjectId} {call : ClaimCall}
  {t : FairTables}

theorem fits_of_fits {protocol protocol' : Nat} {required required' : List String}
    (h : e.fits now protocol required = true) (hlater : e.fits later protocol' required' = true) :
    e.fits later protocol required = true := by
  simp only [Executor.fits, Bool.and_eq_true] at h hlater ⊢
  exact ⟨⟨⟨hlater.1.1.1, hlater.1.1.2⟩, h.1.2⟩, h.2⟩

theorem dueJob_later (h : dueJob l now j = true) (hlater : now ≤ later) :
    dueJob l later j = true := by
  unfold dueJob at h ⊢
  cases hpolicy : l.policy? j.project with
  | none => simp [hpolicy] at h
  | some p =>
    simp only [hpolicy, Bool.and_eq_true, decide_eq_true_eq] at h ⊢
    exact ⟨⟨h.1.1, h.1.2.trans hlater⟩, ⟨h.2.1.1, h.2.1.2.trans hlater⟩, h.2.2⟩

theorem exists_eligibleJob (h : project ∈ (admissionCandidates t l p).map Selection.project) :
    ∃ j ∈ l.jobs, j.project = project ∧ eligibleJob t l p.executor p.rankedAt j = true := by
  rcases mem_map.mp h with ⟨x, hx, rfl⟩
  rcases mem_filterMap.mp hx with ⟨f, _, hselection⟩
  rw [(selection?_some hselection).1]
  simp only [selection?, Option.bind_eq_bind, Option.bind_eq_some_iff, Option.pure_def] at hselection
  rcases hselection with ⟨_, _, oldestAt, holdest, _⟩
  have hmem := min?_mem holdest
  rcases mem_map.mp hmem with ⟨j, hj, _⟩
  rcases mem_filter.mp hj with ⟨hj, hproject⟩
  simp only [Bool.and_eq_true, decide_eq_true_eq] at hproject
  exact ⟨j, hj, hproject.1, hproject.2⟩

theorem eligibleJob_due (h : eligibleJob t l e now j = true) :
    dueJob l now j = true :=
  (Bool.and_eq_true_iff.mp h).1

theorem dueJob_spec (h : dueJob l now j = true) :
    j.state = .queued ∧ j.nextAttemptAt ≤ now ∧ ∃ p ∈ l.policies, p.project = j.project := by
  unfold dueJob at h
  cases hpolicy : l.policy? j.project with
  | none => simp [hpolicy] at h
  | some p =>
    simp only [hpolicy, Bool.and_eq_true, decide_eq_true_eq] at h
    exact ⟨h.1.1.1.1, h.1.2, p, mem_of_find?_eq_some hpolicy,
      by simpa using find?_some hpolicy⟩

theorem claimable_iff :
    claimable l call j = true ↔ dueJob l call.selectedAt j = true ∧
      (call.kind = .admission ∨ (l.leases.any fun x =>
        x.owner = call.worker && call.selectedAt < x.expiresAt) = false) := by
  have hclaimable : claimable l call j = (dueJob l call.selectedAt j &&
      (call.kind = .admission || !(l.leases.any fun x =>
        x.owner = call.worker && call.selectedAt < x.expiresAt))) := rfl
  rw [hclaimable]
  simp

theorem mem_claimCandidates :
    j ∈ claimCandidates t l p project ↔ j ∈ l.jobs ∧ j.project = project ∧
      p.lockedJobs j.id = false ∧ dueJob l p.claim.selectedAt j = true ∧
      (p.claim.kind = .admission ∨ (l.leases.any fun x =>
        x.owner = p.claim.worker && p.claim.selectedAt < x.expiresAt) = false) ∧
      p.executor.fits p.claim.selectedAt (t.traits j.id).minimumExecutorProtocol
        (t.traits j.id).requiredCapabilities = true ∧
      p.executor.fresh p.claim.selectedAt = true := by
  simp only [claimCandidates, mem_filter, Bool.and_eq_true, claimable_iff,
    Bool.not_eq_true', decide_eq_true_eq, and_assoc]

namespace Polled

def selected (x : Polled) : Option ProjectId :=
  (selectFairAdmissionProject x.tables x.ledger x.poll).map Selection.project

/-- The poll has refused a job of the project and put it off. -/
structure Refuses (x : Polled) (project : ProjectId) (j : Job) : Prop where
  selected : x.selected = some project
  candidate : project ∈ (admissionCandidates x.tables x.ledger x.poll).map Selection.project
  job : j ∈ claimCandidates x.tables x.ledger x.poll project
  refused : ∃ charge retryAt, chargeOf j.request = .ok charge ∧
    lockAndCheckClaimAdmission x.ledger j.project j.id charge x.poll.claim.admittedAt =
      .ok (.refused retryAt)
  later : ∃ k ∈ (stepFair x.state (.poll x.poll)).system.ledger.jobs, k.id = j.id ∧
    x.poll.claim.admittedAt + 250000 ≤ k.nextAttemptAt

end Polled

/-- A claim of a job that the tables show as claimable ends in a refusal, an error or a claim. -/
theorem claimNextTx_none {l' : Ledger} (hkeyed : Keyed Job.id l.jobs) (hj : j ∈ l.jobs)
    (hid : call.candidate = j.id) (hclaimable : claimable l call j = true)
    (h : claimNextTx l call = .ok (l', none)) :
    ∃ charge retryAt, chargeOf j.request = .ok charge ∧
      lockAndCheckClaimAdmission l j.project j.id charge call.admittedAt = .ok (.refused retryAt) ∧
      l' = deferJob l j.id retryAt call.admittedAt := by
  have hfind : (l.jobs.find? fun i => decide (i.id = call.candidate) && claimable l call i) =
      some j := by
    cases hfind : l.jobs.find? fun i => decide (i.id = call.candidate) && claimable l call i with
    | none =>
      have hnone := find?_eq_none.mp hfind j hj
      simp [hid, hclaimable] at hnone
    | some i =>
      have hi : i.id = call.candidate ∧ claimable l call i = true := by
        simpa using find?_some hfind
      rw [hkeyed.eq (mem_of_find?_eq_some hfind) hj (hi.1.trans hid)]
  unfold claimNextTx at h
  rw [hfind] at h
  rcases bind_eq_ok.mp h with ⟨charge, hcharge, h⟩
  rcases bind_eq_ok.mp h with ⟨admission, hadmission, h⟩
  cases admission with
  | refused retryAt =>
    cases h
    exact ⟨charge, retryAt, hcharge, hadmission, rfl⟩
  | admitted =>
    rcases bind_eq_ok.mp h with ⟨_, _, h⟩
    replace h := passed h
    cases h

theorem mem_deferJob (hj : j ∈ l.jobs) (hqueued : j.state = .queued) {retryAt : Option Time}
    {at_ : Time} :
    ∃ k ∈ (deferJob l j.id retryAt at_).jobs, k.id = j.id ∧ at_ + 250000 ≤ k.nextAttemptAt := by
  refine ⟨_, mem_update.mpr ⟨j, hj, rfl⟩, ?_⟩
  simp [hqueued]

namespace Polled

variable {x : Polled} {b project : ProjectId} {jobOf : ProjectId → JobId}

theorem EmptyHanded.refuses (hempty : x.EmptyHanded) (hwork : x.HasWork b) (hcalm : x.Calm jobOf) :
    ∃ project j, x.Refuses project j := by
  -- the executor may take the job of `b`, so it is in service, seen and free
  have hb := hwork.admissible
  rcases any_eq_true.mp hb with ⟨i, hi, _⟩
  rcases mem_claimCandidates.mp hi with ⟨_, _, _, _, hfree, hfits, hfresh⟩
  rcases hempty with ⟨r, hpoll, hnone⟩
  have hcandidates : admissionCandidates x.tables x.ledger x.poll ≠ [] := by
    intro hnil
    have hmem := hwork.candidate
    rw [hnil] at hmem
    cases hmem
  have hsome : selectFairAdmissionProject x.tables x.ledger x.poll ≠ none :=
    fun hselected => hcandidates (argmin_eq_none.mp hselected)
  rcases Option.ne_none_iff_exists'.mp hsome with ⟨first, hfirst⟩
  have hmem : first.project ∈ (admissionCandidates x.tables x.ledger x.poll).map
      Selection.project := mem_map_of_mem (argmin_mem hfirst)
  -- the eligible job of the selected project is a candidate of the second query
  rcases exists_eligibleJob hmem with ⟨e, he, heproject, heligible⟩
  have hdue := eligibleJob_due heligible
  have hcandidate : e ∈ claimCandidates x.tables x.ledger x.poll first.project := by
    refine mem_claimCandidates.mpr ⟨he, heproject, hcalm.unlocked e he (dueJob_spec hdue).1,
      dueJob_later hdue hcalm.clock, hfree, ?_, hfresh⟩
    exact fits_of_fits (Bool.and_eq_true_iff.mp heligible).2 hfits
  rcases poll_ok hpoll with ⟨_, hempty⟩ | ⟨selected, j, ⟨l', claim⟩, hselected, hj, hclaim, hr⟩
  · have hno := hempty first hfirst
    have hnil := argmin_eq_none.mp hno
    rw [show claimCandidates (ensureProjectFairnessRows x.state.tables
      (x.poll.recovered x.state.system.ledger).policies) (x.poll.recovered x.state.system.ledger)
      x.poll first.project = claimCandidates x.tables x.ledger x.poll first.project from rfl] at hnil
    rw [hnil] at hcandidate
    cases hcandidate
  · have hsame : selected = first := Option.some.inj (hselected.symm.trans hfirst)
    subst hsame
    have hjmem : j ∈ claimCandidates x.tables x.ledger x.poll selected.project :=
      argmin_mem hj
    rcases mem_claimCandidates.mp hjmem with ⟨hjl, _, _, hjdue, hjfree, _, _⟩
    have hclaim' : claim = none := by
      rw [hr, (ledger_finish).2] at hnone
      exact hnone
    subst hclaim'
    have hclaimable : claimable x.ledger { x.poll.claim with candidate := j.id } j = true :=
      claimable_iff.mpr ⟨hjdue, hjfree⟩
    rcases claimNextTx_none hcalm.keyed hjl rfl hclaimable hclaim with
      ⟨charge, retryAt, hcharge, hrefused, hl'⟩
    refine ⟨selected.project, j, ?_, hmem, hjmem, ⟨charge, retryAt, hcharge, hrefused⟩, ?_⟩
    · unfold Polled.selected
      rw [hfirst]
      rfl
    · have hledger : (stepFair x.state (.poll x.poll)).system.ledger = l' := by
        simp only [stepFair, hpoll, hr, (ledger_finish).1]
      rw [hledger, hl']
      exact mem_deferJob hjl (dueJob_spec hjdue).1

theorem Refuses.ne (h : x.Refuses project j) (hwork : x.HasWork b) (hcalm : x.Calm jobOf) :
    project ≠ b := by
  rintro rfl
  have hb := hwork.admissible
  rcases any_eq_true.mp hb with ⟨i, hi, hadmitted⟩
  rcases mem_claimCandidates.mp hi with ⟨hil, hiproject, _, hidue, _⟩
  rcases mem_claimCandidates.mp h.job with ⟨hjl, hjproject, _, hjdue, _⟩
  have hid : i.id = j.id := by
    rw [hcalm.one i hil (dueJob_spec hidue).1, hcalm.one j hjl (dueJob_spec hjdue).1, hiproject,
      hjproject]
  rcases h.refused with ⟨charge, retryAt, hcharge, hrefused⟩
  rw [hcalm.keyed.eq hil hjl hid, hcharge] at hadmitted
  simp only [hrefused] at hadmitted
  cases hadmitted

theorem Refuses.ne_later {y : Polled} {project' : ProjectId} {j' : Job} (h : x.Refuses project j)
    (h' : y.Refuses project' j') (hx : x.Calm jobOf) (hy : y.Calm jobOf) (hxy : x.Deferring y) :
    project ≠ project' := by
  rintro rfl
  rcases exists_eligibleJob h'.candidate with ⟨e, he, heproject, heligible⟩
  rcases dueJob_spec (eligibleJob_due heligible) with ⟨hequeued, hedue, _⟩
  rcases mem_claimCandidates.mp h.job with ⟨hjl, hjproject, _, hjdue, _⟩
  rcases h.later with ⟨k, hk, hkid, hknext⟩
  have hid : e.id = k.id := by
    rw [hkid, hy.one e he hequeued, hx.one j hjl (dueJob_spec hjdue).1, heproject, hjproject]
  have hkept := hxy.kept k hk e he hid
  exact absurd (hxy.soon.trans_le (hknext.trans (hkept.trans hedue))) (Nat.lt_irrefl _)

end Polled

/-- A streak of empty-handed polls within the deferrals they make: while some project has a job that
its quotas admit, there are fewer polls than projects. -/
theorem empty_polls_lt_projects (worker : Worker) (s : FairSystem) (ops : List FairOp)
    (b : ProjectId) (projects : Finset ProjectId) (jobOf : ProjectId → JobId) (hb : b ∈ projects)
    (hprojects : ∀ x ∈ pollsOf worker s ops, ∀ p ∈ x.ledger.policies, p.project ∈ projects)
    (hempty : ∀ x ∈ pollsOf worker s ops, x.EmptyHanded)
    (hwork : ∀ x ∈ pollsOf worker s ops, x.HasWork b)
    (hcalm : ∀ x ∈ pollsOf worker s ops, x.Calm jobOf)
    (hdeferring : (pollsOf worker s ops).Pairwise Polled.Deferring) :
    (pollsOf worker s ops).length < projects.card := by
  have hrefuses : ∀ x ∈ pollsOf worker s ops, ∃ project j, x.Refuses project j := fun x hx =>
    (hempty x hx).refuses (hwork x hx) (hcalm x hx)
  let refused : Polled → ProjectId := fun x => x.selected.getD 0
  have hselected : ∀ {x : Polled} {project : ProjectId} {j : Job}, x.Refuses project j →
      refused x = project := by
    intro x project j h
    simp [refused, h.selected]
  have hnodup : ((pollsOf worker s ops).map refused).Nodup := by
    refine pairwise_map.mpr (hdeferring.imp_of_mem ?_)
    intro x y hx hy hxy
    rcases hrefuses x hx with ⟨project, j, h⟩
    rcases hrefuses y hy with ⟨project', j', h'⟩
    rw [hselected h, hselected h']
    exact h.ne_later h' (hcalm x hx) (hcalm y hy) hxy
  have hsub : ((pollsOf worker s ops).map refused).toFinset ⊆ projects.erase b := by
    intro project hproject
    rcases mem_map.mp (mem_toFinset.mp hproject) with ⟨x, hx, rfl⟩
    rcases hrefuses x hx with ⟨project, j, h⟩
    rw [hselected h]
    refine Finset.mem_erase.mpr ⟨h.ne (hwork x hx) (hcalm x hx), ?_⟩
    rcases mem_claimCandidates.mp h.job with ⟨_, hjproject, _, hjdue, _⟩
    rcases (dueJob_spec hjdue).2.2 with ⟨p, hp, hpj⟩
    rw [← hjproject, ← hpj]
    exact hprojects x hx p hp
  calc (pollsOf worker s ops).length
      = ((pollsOf worker s ops).map refused).toFinset.card := by
        rw [toFinset_card_of_nodup hnodup, length_map]
    _ ≤ (projects.erase b).card := Finset.card_le_card hsub
    _ < projects.card := Finset.card_erase_lt_of_mem hb

/-! ## A blocked project

Project 1 has a job that asks for more memory than the project may use at all; the job of project 2
is younger and fits. -/

/-- A project whose memory quota is below what its job asks for. -/
def blockedPolicy : Policy :=
  { fairPolicy 1 with maxMemoryMiB := 1 }

/-- The job of the blocked project, put off until `next`. -/
def blockedJob (next : Time) : Job :=
  { newJob { exampleCreateCall 1 0 with project := 1 } with nextAttemptAt := next }

def waitingJob : Job :=
  newJob { exampleCreateCall 2 1 with project := 2 }

def blockedLedger (next : Time) : Ledger :=
  { empty [blockedPolicy, fairPolicy 2] with jobs := [blockedJob next, waitingJob] }

def blockedSystem (next : Time) : FairSystem where
  system := { ledger := blockedLedger next, issued := [] }
  tables := fairTables

/-- The blocked project as the first query sees it. -/
def blockedSelection (now : Time) : Selection where
  project := 1
  vruntimeBefore := 0
  oldestAt := 0
  starved := decide (0 + 300 * microsPerSecond ≤ now)
  hasReplay := false

def waitingSelection (now : Time) : Selection where
  project := 2
  vruntimeBefore := 0
  oldestAt := 1
  starved := decide (1 + 300 * microsPerSecond ≤ now)
  hasReplay := false

section Blocked

variable {next t : Time} {i : Job}

theorem dueJob_blocked (h : next ≤ t) (h1 : 1 ≤ t) (hi : i ∈ (blockedLedger next).jobs) :
    dueJob (blockedLedger next) t i = true := by
  have hactive : activeJobs (blockedLedger next) 1 none = 0 ∧
      activeJobs (blockedLedger next) 2 none = 0 := ⟨rfl, rfl⟩
  have hpolicy : (blockedLedger next).policy? 1 = some blockedPolicy ∧
      (blockedLedger next).policy? 2 = some (fairPolicy 2) := ⟨rfl, rfl⟩
  rcases mem_pair.mp hi with rfl | rfl <;>
    simp [dueJob, blockedJob, waitingJob, newJob, exampleCreateCall, hpolicy, hactive, h, h1,
      blockedPolicy, fairPolicy, examplePolicy]

theorem fits_pollAt : (pollAt 9 t).executor.fits t
    (fairTables.traits j.id).minimumExecutorProtocol
    (fairTables.traits j.id).requiredCapabilities = true := by
  simp [Executor.fits, pollAt, fairTables, microsPerSecond]

theorem mem_candidates_blocked (h : next ≤ t) (h1 : 1 ≤ t) (hi : i ∈ (blockedLedger next).jobs) :
    i ∈ claimCandidates fairTables (blockedLedger next) (pollAt 9 t) i.project := by
  refine mem_claimCandidates.mpr ⟨hi, rfl, rfl, dueJob_blocked h h1 hi, .inl rfl, fits_pollAt, ?_⟩
  simp [Executor.fresh, pollAt, exampleClaimCall, microsPerSecond]

theorem candidates_blocked (h : next ≤ t) (h1 : 1 ≤ t) :
    admissionCandidates fairTables (blockedLedger next) (pollAt 9 t) =
      [blockedSelection t, waitingSelection t] := by
  have holdest : oldestQueued fairTables (blockedLedger next) (pollAt 9 t).executor
      (pollAt 9 t).rankedAt = fun project =>
        (((blockedLedger next).jobs.filter fun j => j.project = project).map (·.createdAt)).min? := by
    funext project
    unfold oldestQueued
    rw [filter_congr]
    intro i hi
    rw [eligibleJob, show (pollAt 9 t).rankedAt = t from rfl, dueJob_blocked h h1 hi, fits_pollAt]
    exact Bool.and_true _
  unfold admissionCandidates
  rw [holdest]
  rfl

/-- The blocked project comes first: it is starved whenever the other one is, and its job is older. -/
theorem blocked_first : (blockedSelection t).rank < (waitingSelection t).rank := by
  have hstarved : (waitingSelection t).starved = true → (blockedSelection t).starved = true := by
    simp only [waitingSelection, blockedSelection, decide_eq_true_eq]
    omega
  unfold Selection.rank
  cases hwaiting : (waitingSelection t).starved with
  | true =>
    rw [hstarved hwaiting]
    simp [Prod.Lex.toLex_lt_toLex, blockedSelection, waitingSelection]
  | false =>
    cases hblocked : (blockedSelection t).starved with
    | true | false => simp [Prod.Lex.toLex_lt_toLex, blockedSelection, waitingSelection]

theorem select_blocked (h : next ≤ t) (h1 : 1 ≤ t) :
    selectFairAdmissionProject fairTables (blockedLedger next) (pollAt 9 t) =
      some (blockedSelection t) := by
  unfold selectFairAdmissionProject
  rw [candidates_blocked h h1]
  simp [List.argmin, List.argAux, not_lt_of_gt (blocked_first)]

theorem selectClaimCandidate_blocked (h : next ≤ t) (h1 : 1 ≤ t) :
    selectClaimCandidate fairTables (blockedLedger next) (pollAt 9 t) 1 =
      some (blockedJob next) := by
  have hcandidates : claimCandidates fairTables (blockedLedger next) (pollAt 9 t) 1 =
      (blockedLedger next).jobs.filter fun j => j.project = 1 := by
    refine filter_congr fun i hi => ?_
    have hmem := (mem_filter.mp (mem_candidates_blocked h h1 hi)).2
    rcases mem_pair.mp hi with rfl | rfl
    · exact hmem
    · rfl
  unfold selectClaimCandidate
  rw [hcandidates]
  rfl

theorem charge_example : ∃ charge, chargeOf waitingJob.request = .ok charge ∧
    1 < charge.memoryMiB ∧ charge.vcpus ≤ 64 ∧ charge.memoryMiB ≤ 262144 ∧ charge.diskGiB ≤ 1000 ∧
    charge.seconds ≤ 86400 ∧ charge.cost ≤ 100000000 := by
  have hcheck : ((chargeOf waitingJob.request).toOption.any fun c => 1 < c.memoryMiB &&
      c.vcpus ≤ 64 && c.memoryMiB ≤ 262144 && c.diskGiB ≤ 1000 && c.seconds ≤ 86400 &&
      c.cost ≤ 100000000) = true := by
    decide +kernel
  cases hcharge : chargeOf waitingJob.request with
  | error e => simp [hcharge, Except.toOption] at hcheck
  | ok charge =>
    simpa [hcharge, Except.toOption, and_assoc] using hcheck

theorem claimNextTx_blocked (h : next ≤ t) (h1 : 1 ≤ t) :
    claimNextTx (blockedLedger next) { (pollAt 9 t).claim with candidate := 1 } =
      .ok (blockedLedger (t + 250000), none) := by
  have hclaimable : claimable (blockedLedger next) { (pollAt 9 t).claim with candidate := 1 }
      (blockedJob next) = true :=
    claimable_iff.mpr ⟨dueJob_blocked h h1 mem_cons_self, .inl rfl⟩
  have hfind : ((blockedLedger next).jobs.find? fun j => decide (j.id = 1) &&
      claimable (blockedLedger next) { (pollAt 9 t).claim with candidate := 1 } j) =
        some (blockedJob next) := by
    rw [show (blockedLedger next).jobs = [blockedJob next, waitingJob] from rfl,
      find?_cons_of_pos]
    rw [hclaimable]
    rfl
  rcases charge_example with ⟨charge, hcharge, hmemory, _⟩
  have hrefused : lockAndCheckClaimAdmission (blockedLedger next) 1 1 charge t =
      .ok (.refused none) := by
    have hactive : activeJobs (blockedLedger next) 1 (some 1) = 0 := rfl
    have hclaimed : phaseReservations (blockedLedger next) 1 .claimed = 0 := rfl
    have hreserved : reservedMemory (blockedLedger next) 1 = 0 := rfl
    refine bind_eq_ok.mpr ⟨blockedPolicy, found_eq_ok.mpr rfl, ?_⟩
    simp [hreserved, blockedPolicy, fairPolicy, examplePolicy, hmemory]
  have hdefer : deferJob (blockedLedger next) 1 none t = blockedLedger (t + 250000) := by
    have hat : max ((none : Option Time).getD 0) (t + 250000) = t + 250000 := Nat.zero_max _
    unfold deferJob
    rw [hat]
    rfl
  unfold claimNextTx
  simp only [hfind]
  exact congrArg (fun l => Except.ok (l, none)) hdefer

theorem poll_blocked (h : next ≤ t) (h1 : 1 ≤ t) :
    poll fairTables (blockedLedger next) (pollAt 9 t) =
      .ok (.nothing fairTables (blockedLedger (t + 250000))) := by
  have hrecovered : (pollAt 9 t).recovered (blockedLedger next) = blockedLedger next := rfl
  have hrows : ensureProjectFairnessRows fairTables (blockedLedger next).policies = fairTables :=
    rfl
  refine require_bind_eq_ok.mpr ⟨rfl, require_bind_eq_ok.mpr ⟨rfl, ?_⟩⟩
  simp only [hrecovered, hrows, select_blocked h h1]
  rw [show (blockedSelection t).project = 1 from rfl, selectClaimCandidate_blocked h h1]
  simp only [show (blockedJob next).id = 1 from rfl, claimNextTx_blocked h h1]
  rfl

theorem stepFair_blocked (h : next ≤ t) (h1 : 1 ≤ t) :
    stepFair (blockedSystem next) (.poll (pollAt 9 t)) = blockedSystem (t + 250000) := by
  have hpoll : poll (blockedSystem next).tables (blockedSystem next).system.ledger (pollAt 9 t) =
      .ok (.nothing fairTables (blockedLedger (t + 250000))) := poll_blocked h h1
  simp only [stepFair, hpoll]
  rfl

theorem hasWork_waiting (h : next ≤ t) (h1 : 1 ≤ t) :
    (⟨blockedSystem next, pollAt 9 t⟩ : Polled).HasWork 2 := by
  rcases charge_example with ⟨charge, hcharge, _, hvcpus, hmemory, hdisk, hseconds, hcost⟩
  have hadmitted : lockAndCheckClaimAdmission (blockedLedger next) 2 2 charge t = .ok .admitted := by
    have hactive : activeJobs (blockedLedger next) 2 (some 2) = 0 := rfl
    have hclaimed : phaseReservations (blockedLedger next) 2 .claimed = 0 := rfl
    have hzero : reservedVCPUs (blockedLedger next) 2 = 0 ∧ reservedMemory (blockedLedger next) 2 = 0 ∧
        reservedDisk (blockedLedger next) 2 = 0 ∧
        dailySeconds (blockedLedger next) 2 (budgetDay t) = 0 ∧
        dailyCost (blockedLedger next) 2 (budgetDay t) = 0 := ⟨rfl, rfl, rfl, rfl, rfl⟩
    refine bind_eq_ok.mpr ⟨fairPolicy 2, found_eq_ok.mpr rfl, ?_⟩
    simp [hactive, hclaimed, hzero, fairPolicy, examplePolicy, Nat.not_lt.mpr hvcpus,
      Nat.not_lt.mpr hmemory, Nat.not_lt.mpr hdisk, Nat.not_lt.mpr hseconds, Nat.not_lt.mpr hcost]
  constructor
  · have hcandidates : admissionCandidates (⟨blockedSystem next, pollAt 9 t⟩ : Polled).tables
        (⟨blockedSystem next, pollAt 9 t⟩ : Polled).ledger (pollAt 9 t) =
          [blockedSelection t, waitingSelection t] := candidates_blocked h h1
    rw [hcandidates]
    exact mem_cons_of_mem _ mem_cons_self
  · refine any_eq_true.mpr ⟨waitingJob,
      mem_candidates_blocked h h1 (mem_cons_of_mem _ mem_cons_self), ?_⟩
    rw [hcharge]
    have hsame : lockAndCheckClaimAdmission (⟨blockedSystem next, pollAt 9 t⟩ : Polled).ledger
        waitingJob.project waitingJob.id charge (pollAt 9 t).claim.admittedAt = .ok .admitted :=
      hadmitted
    simp only [hsame]

end Blocked

def tickingPolls : Nat → Time → List FairOp
  | 0, _ => []
  | n + 1, t => .poll (pollAt 9 t) :: tickingPolls n (t + 1000000)

theorem pollsOf_tickingPolls (n : Nat) {next t : Time} (h : next ≤ t) (h1 : 1 ≤ t) :
    (pollsOf "replica-a" (blockedSystem next) (tickingPolls n t)).length = n ∧
      ∀ x ∈ pollsOf "replica-a" (blockedSystem next) (tickingPolls n t),
        x.EmptyHanded ∧ x.HasWork 2 := by
  induction n generalizing next t with
  | zero => exact ⟨rfl, nofun⟩
  | succ n ih =>
    have hcons : pollsOf "replica-a" (blockedSystem next) (tickingPolls (n + 1) t) =
        ⟨blockedSystem next, pollAt 9 t⟩ ::
          pollsOf "replica-a" (blockedSystem (t + 250000)) (tickingPolls n (t + 1000000)) := by
      rw [← stepFair_blocked h h1]
      rfl
    have hlater : t + 250000 ≤ t + 1000000 := Nat.add_le_add_left (by decide) t
    rcases ih hlater (Nat.le_add_right_of_le h1) with ⟨hlength, hall⟩
    rw [hcons]
    refine ⟨by rw [length_cons, hlength], ?_⟩
    intro x hx
    rcases mem_cons.mp hx with rfl | hx
    · exact ⟨⟨_, poll_blocked h h1, rfl⟩, hasWork_waiting h h1⟩
    · exact hall x hx

/-- With two projects any number of polls in a row can be wasted on the blocked one, while the other
has a job that all its quotas admit: no function of the number of projects bounds them. -/
theorem blocked_project_starves_others :
    (blockedSystem 0).system.ledger.policies.length = 2 ∧
      ∀ n, (pollsOf "replica-a" (blockedSystem 0) (tickingPolls n 1)).length = n ∧
        ∀ x ∈ pollsOf "replica-a" (blockedSystem 0) (tickingPolls n 1),
          x.EmptyHanded ∧ x.HasWork 2 :=
  ⟨rfl, fun n => pollsOf_tickingPolls n (Nat.zero_le 1) (Nat.le_refl 1)⟩

/-- One poll is wasted on the blocked project. -/
theorem empty_polls_blocked :
    (pollsOf "replica-a" (blockedSystem 0) (tickingPolls 1 1)).length <
      ({1, 2} : Finset ProjectId).card := by
  have hpolls := pollsOf_tickingPolls 1 (Nat.zero_le 1) (Nat.le_refl 1)
  have hcalm : (⟨blockedSystem 0, pollAt 9 1⟩ : Polled).Calm id := by
    refine ⟨(by decide : [1, 2].Nodup), ?_, ?_, Nat.le_refl _⟩
    · intro j hj _
      rcases mem_cons.mp hj with rfl | hj
      · rfl
      · rw [mem_singleton.mp hj]
        rfl
    · exact fun _ _ _ => rfl
  have hone : ∀ x ∈ pollsOf "replica-a" (blockedSystem 0) (tickingPolls 1 1),
      x = ⟨blockedSystem 0, pollAt 9 1⟩ := fun x hx => mem_singleton.mp hx
  refine empty_polls_lt_projects "replica-a" (blockedSystem 0) (tickingPolls 1 1) 2 {1, 2} id
    (by decide) ?_ (fun x hx => (hpolls.2 x hx).1) (fun x hx => (hpolls.2 x hx).2) ?_ ?_
  · intro x hx p hp
    rw [hone x hx] at hp
    rcases mem_cons.mp hp with rfl | hp
    · decide
    · rw [mem_singleton.mp hp]
      decide
  · intro x hx
    rw [hone x hx]
    exact hcalm
  · exact pairwise_singleton _ _

end PortageEngine.Ledger
