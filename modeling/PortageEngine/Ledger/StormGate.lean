import PortageEngine.Ledger.StormLocks
import PortageEngine.Ledger.System

/-!
# What the failure-storm gate guarantees

The gate is heeded: whenever the committed failures of an hour reach the limit, the project is
suspended for the cooldown after the latest of them.  This needs `timely`: a transaction that gets
the policy row must not find failures later than the time it works with, since it counts up to that
time only, and every failure must settle an active usage record, since the gate runs after a
settlement only.

The argument is that `Heeded` holds of what every holder of the policy row sees, not only of the
committed rows: no other failure of the project commits while the row is held.
-/

namespace PortageEngine.Ledger

open List Library Library.Rows Library.ReadCommitted
open Library.Runs (run Along run_invariant run_induction)

/-! ## Heeded failures -/

/-- Failures in the hour before `t` among the given attempts. -/
def failuresIn (jobs : List Job) (attempts : List Attempt) (project : ProjectId) (t : Time) : Nat :=
  recentFailures { Ledger.empty [] with jobs := jobs, attempts := attempts } project t

/-- Wherever the failures up to one of them reach the limit, the project is suspended for the
cooldown after that one, unless an operator has cleared it since. -/
def Heeded (jobs : List Job) (policies : List Policy) (attempts cleared : List Attempt)
    (project : ProjectId) : Prop :=
  ∀ p ∈ policies, p.project = project →
    ∀ f ∈ attempts, f ∉ cleared → f.state.isFailure = true → f.ofProject jobs project = true →
      ∀ t, f.finishedAt = some t →
        p.maxFailuresPerHour ≤ failuresIn jobs attempts project t →
          t + p.abuseCooldownSeconds * microsPerSecond ≤ p.abuseSuspendedUntil.getD 0

variable {project : ProjectId} {txn' : Txn}

variable {jobs : List Job} {t : Time} {a f : Attempt} {attempts attempts' : List Attempt}
  {project' : ProjectId}

/-- A failure counts towards the hour before `t` only if it is a failure of the project by then. -/
theorem counted_of_mem (h : ((a.state = .failed || a.state = .expired) &&
      (jobs.any fun j => j.id = a.job && j.project = project) &&
      (match a.finishedAt with
        | none => false
        | some finished => t ≤ finished + 3600 * microsPerSecond && finished ≤ t)) = true) :
    a.state.isFailure = true ∧ a.ofProject jobs project = true ∧
      ∃ finished, a.finishedAt = some finished ∧ finished ≤ t := by
  simp only [Bool.and_eq_true] at h
  refine ⟨h.1.1, h.1.2, ?_⟩
  cases hfinished : a.finishedAt with
  | none => simp [hfinished] at h
  | some finished =>
    have hwindow := h.2
    simp only [hfinished, Bool.and_eq_true, decide_eq_true_eq] at hwindow
    exact ⟨finished, rfl, hwindow.2⟩

theorem failuresIn_le (hkeyed : Keyed (·.id) attempts')
    (h : ∀ f ∈ attempts', f.state.isFailure = true → f.ofProject jobs project = true →
      ∀ finished, f.finishedAt = some finished → finished ≤ t → f ∈ attempts) :
    failuresIn jobs attempts' project t ≤ failuresIn jobs attempts project t := by
  refine hkeyed.count_le ?_
  intro f hf hcounted
  rcases counted_of_mem hcounted with ⟨hstate, hproject, finished, hfinished, hle⟩
  exact ⟨h f hf hstate hproject finished hfinished hle, hcounted⟩

theorem Heeded.anti {policies policies' : List Policy} {cleared : List Attempt}
    (h : Heeded jobs policies attempts cleared project) (hkeyed : Keyed (·.id) attempts')
    (hpolicies : ∀ p ∈ policies', p.project = project → p ∈ policies)
    (hattempts : ∀ f ∈ attempts', f.hasFailed = true → f.ofProject jobs project = true →
      f ∈ attempts) :
    Heeded jobs policies' attempts' cleared project := by
  intro p hp hproject f hf hcleared hstate hof t ht hlimit
  have hsub : ∀ g ∈ attempts', g.state.isFailure = true → g.ofProject jobs project = true →
      ∀ finished, g.finishedAt = some finished → g ∈ attempts := by
    intro g hg hgstate hgof finished hfinished
    exact hattempts g hg (by simp [Attempt.hasFailed, hgstate, hfinished]) hgof
  refine h p (hpolicies p hp hproject) hproject f (hsub f hf hstate hof t ht) hcleared hstate hof t
    ht (hlimit.trans ?_)
  exact failuresIn_le hkeyed fun g hg hgstate hgof finished hfinished _ =>
    hsub g hg hgstate hgof finished hfinished

/-! ## Timely failures -/

/-- The condition on a statement, in the state it is taken in. -/
def Statement.timely (jobs : List Job) (s : Storm) (x : Nat) (txn : Txn) : Statement → Bool
  | .gate =>
    match txn.stage with
    | .storm _ project => (s.seenAttempts x).all fun f =>
      !(f.hasFailed && f.ofProject jobs project) || f.finishedAt.getD 0 ≤ txn.now
    | _ => true
  | .settle =>
    match txn.stage with
    | .finished attempt state =>
      !state.isFailure || (s.seenUsages x).any fun u => u.attempt = attempt && u.active
    | _ => true
  | .report attempt state finishedAt =>
    match (s.seenAttempts x).find? (·.id = attempt) with
    | some a => !(a.reported state finishedAt).hasFailed
    | none => true
  | .insertSnapshot a => !a.hasFailed
  | _ => true

/-- A transaction that gets the policy row finds no failure later than its own time, and every
failure settles an active usage record. -/
def StormOp.timely (jobs : List Job) (s : Storm) : StormOp → Bool
  | .statement x st =>
    match s.txns x with
    | some txn => st.timely jobs s x txn
    | none => true
  | _ => true

/-- The transaction has drafted, and thereby locked, the policy row of the project. -/
def Storm.Holds (s : Storm) (x : Nat) (project : ProjectId) : Prop :=
  ∃ p ∈ s.policies.own x, p.project = project

/-- What a transaction sees, without the attempt whose settlement is outstanding. -/
def Storm.settledAttempts (s : Storm) (x : Nat) (txn : Txn) : List Attempt :=
  (s.seenAttempts x).filter fun f => txn.stage.pending ≠ some f.id

structure Storm.Heeding (jobs : List Job) (s : Storm) : Prop where
  committed : ∀ project,
    Heeded jobs s.policies.committed s.attempts.committed (s.cleared project) project
  /-- A failure is drafted under the policy lock, once its gate has run. -/
  guarded : ∀ x txn, s.txns x = some txn → ∀ f ∈ s.attempts.own x, f.hasFailed = true →
    txn.stage.pending ≠ some f.id → ∀ project, f.ofProject jobs project = true → s.Holds x project
  heeded : ∀ x txn, s.txns x = some txn → ∀ project, s.Holds x project →
    txn.stage ≠ .replaced project true →
      Heeded jobs (s.policies.own x) (s.settledAttempts x txn) (s.cleared project) project

namespace Storm.Heeding

variable {jobs : List Job} {s s' : Storm} {x : Nat} {txn : Txn} {st : Statement}

variable {f : Attempt} {y : Nat} {attempt : AttemptId}

theorem mem_settledAttempts :
    f ∈ s.settledAttempts x txn ↔ f ∈ s.seenAttempts x ∧ txn.stage.pending ≠ some f.id := by
  simp [Storm.settledAttempts]

/-- Without the lock on the policy row a transaction sees, besides the failure it is working on, no
failures of the project but the committed ones. -/
theorem committed_of_not_holds (h : s.Heeding jobs) (hinv : s.Inv jobs) (hx : s.txns x = some txn)
    (hholds : ¬ s.Holds x project) (hf : f ∈ s.settledAttempts x txn) (hfailed : f.hasFailed = true)
    (hof : f.ofProject jobs project = true) : f ∈ s.attempts.committed := by
  rcases mem_settledAttempts.mp hf with ⟨hf, hpending⟩
  rcases hinv.attempts.mem_view.mp hf with hf | ⟨hf, -⟩
  · exact absurd (h.guarded x txn hx f hf hfailed hpending project hof) hholds
  · exact hf

theorem seen (h : s.Heeding jobs) (hinv : s.Inv jobs) (hx : s.txns x = some txn)
    (hstage : txn.stage ≠ .replaced project true) :
    Heeded jobs (s.seenPolicies x) (s.settledAttempts x txn) (s.cleared project) project := by
  have hkeyed : Keyed (·.id) (s.settledAttempts x txn) :=
    (hinv.keyed_seenAttempts x).sublist (filter_sublist.map _)
  by_cases hholds : s.Holds x project
  · refine (h.heeded x txn hx project hholds hstage).anti hkeyed ?_ fun f hf _ _ => hf
    intro p hp hproject
    rcases hholds with ⟨q, hq, hqproject⟩
    rcases hinv.policies.mem_view.mp hp with hp | ⟨-, hother⟩
    · exact hp
    · exact absurd (hqproject.trans hproject.symm) (hother q hq)
  · refine (h.committed project).anti hkeyed ?_ ?_
    · intro p hp hproject
      rcases hinv.policies.mem_view.mp hp with hp | ⟨hp, -⟩
      · exact absurd ⟨p, hp, hproject⟩ hholds
      · exact hp
    · intro f hf hfailed hof
      exact h.committed_of_not_holds hinv hx hholds hf hfailed hof

theorem committed_commit (h : s.Heeding jobs) (hinv : s.Inv jobs) (hx : s.txns x = some txn)
    (hpending : txn.stage.pending = none) (project : ProjectId) :
    Heeded jobs (s.seenPolicies x) (s.seenAttempts x)
      (if txn.stage = .replaced project true then s.seenAttempts x else s.cleared project)
      project := by
  by_cases hstage : txn.stage = .replaced project true
  · rw [if_pos hstage]
    intro p _ _ f hf hcleared
    exact absurd hf hcleared
  · rw [if_neg hstage]
    refine (h.seen hinv hx hstage).anti (hinv.keyed_seenAttempts x) (fun p hp _ => hp) ?_
    intro f hf _ _
    exact mem_settledAttempts.mpr ⟨hf, by simp [hpending]⟩

/-- Another transaction's statement other than a commit does not change what a transaction sees. -/
theorem seenAttempts_of_ne (heff : StatementEffect jobs s x txn st s') (hne : y ≠ x)
    (hst : st ≠ .commit) : s'.seenAttempts y = s.seenAttempts y := by
  cases heff with
  | finish | report | insertSnapshot | insertClaim => exact Table.view_write_of_ne hne
  | commit => exact absurd rfl hst
  | abort => exact Table.view_abort_of_ne hne
  | _ => rfl

theorem cleared_of_ne_commit (heff : StatementEffect jobs s x txn st s') (hst : st ≠ .commit) :
    s'.cleared = s.cleared := by
  cases heff with
  | commit => exact absurd rfl hst
  | _ => rfl

/-- While a transaction holds the policy row, the commit of another one brings no failure of that
project into its sight. -/
theorem heeded_commit_of_ne (h : s.Heeding jobs) (hinv : s.Inv jobs) (hx : s.txns x = some txn)
    (hpending : txn.stage.pending = none)
    (heff : StatementEffect jobs s x txn .commit s') (hne : y ≠ x)
    (hy : s.txns y = some txn') (hholds : s.Holds y project)
    (hstage : txn'.stage ≠ .replaced project true) :
    Heeded jobs (s.policies.own y) (s'.settledAttempts y txn') (s'.cleared project) project := by
  have hnot : ¬ s.Holds x project := by
    rintro ⟨q, hq, hqproject⟩
    rcases hholds with ⟨p, hp, hproject⟩
    exact hne (hinv.policies.own_eq hp hq (hproject.trans hqproject.symm)).1
  cases heff with
  | commit =>
    have hcleared : txn.stage ≠ .replaced project true := by
      intro hreplaced
      have hground := hinv.grounded x txn hx
      simp only [Txn.Grounded, hreplaced] at hground
      exact hnot hground
    simp only [Storm.commit, hcleared, if_false]
    have hkeyed : Keyed (·.id) ((s.attempts.commit (·.id) x).view (·.id) y) :=
      (hinv.attempts.commit x).keyed_view y
    refine (h.heeded y txn' hy project hholds hstage).anti
      (hkeyed.sublist (filter_sublist.map _)) (fun p hp _ => hp) ?_
    intro f hf hfailed hof
    rcases mem_settledAttempts.mp hf with ⟨hf, hfpending⟩
    refine mem_settledAttempts.mpr ⟨?_, hfpending⟩
    rcases (hinv.attempts.mem_view_commit_of_ne hne).mp hf with hown | ⟨hseen, hother⟩
    · exact hinv.attempts.mem_view.mpr (.inl hown)
    have hsettled : f ∈ s.settledAttempts x txn :=
      mem_settledAttempts.mpr ⟨hseen, by simp [hpending]⟩
    exact hinv.attempts.mem_view.mpr
      (.inr ⟨h.committed_of_not_holds hinv hx hnot hsettled hfailed hof, hother⟩)

section Writes

variable {txn' : Txn}

/-- A statement that leaves the policy rows alone and brings no failure into sight except a pending
one. -/
theorem heeded_of_sub (h : s.Heeding jobs) (hx : s.txns x = some txn) (hinv' : s'.Inv jobs)
    (hpolicies : s'.policies.own x = s.policies.own x) (hcleared : s'.cleared = s.cleared)
    (hstage : txn.stage ≠ .replaced project true)
    (hsub : ∀ f ∈ s'.settledAttempts x txn', f.hasFailed = true → f ∈ s.settledAttempts x txn)
    (hholds : s'.Holds x project) :
    Heeded jobs (s'.policies.own x) (s'.settledAttempts x txn') (s'.cleared project) project := by
  have hheld : s.Holds x project := by
    rw [Storm.Holds, hpolicies] at hholds
    exact hholds
  rw [hpolicies, hcleared]
  exact (h.heeded x txn hx project hheld hstage).anti
    ((hinv'.keyed_seenAttempts x).sublist (filter_sublist.map _)) (fun p hp _ => hp)
    fun f hf hfailed _ => hsub f hf hfailed

/-- A statement that drafts policy rows as the transaction sees them, up to those of one project. -/
theorem heeded_of_seen (h : s.Heeding jobs) (hinv : s.Inv jobs) (hx : s.txns x = some txn)
    (hinv' : s'.Inv jobs) (hattempts : s'.attempts = s.attempts) (hcleared : s'.cleared = s.cleared)
    (hstage : txn.stage ≠ .replaced project true)
    (hpending : ∀ f ∈ s.seenAttempts x, f.hasFailed = true → f.ofProject jobs project = true →
      txn.stage.pending ≠ some f.id)
    (hpolicies : ∀ p ∈ s'.policies.own x, p.project = project → p ∈ s.seenPolicies x) :
    Heeded jobs (s'.policies.own x) (s'.settledAttempts x txn') (s'.cleared project) project := by
  rw [hcleared]
  refine (h.seen hinv hx hstage).anti
    ((hinv'.keyed_seenAttempts x).sublist (filter_sublist.map _)) hpolicies ?_
  intro f hf hfailed hof
  have hseen : f ∈ s.seenAttempts x := by
    have := (mem_settledAttempts.mp hf).1
    rwa [Storm.seenAttempts, hattempts] at this
  exact mem_settledAttempts.mpr ⟨hseen, hpending f hseen hfailed hof⟩

end Writes

/-- The gate: the failure it runs for is the last of the project in sight, so the failures up to an
earlier one were heeded before, and those up to the same time are the ones just counted. -/
theorem heeded_gate (h : s.Heeding jobs) (hinv : s.Inv jobs) (hx : s.txns x = some txn) {p : Policy}
    (hstage : txn.stage = .storm attempt p.project) (hp : p ∈ s.seenPolicies x)
    (htimely : Statement.timely jobs s x txn .gate = true) :
    Heeded jobs [p.gated (recentFailures (s.seen jobs x) p.project txn.now) txn.now]
      (s.seenAttempts x) (s.cleared p.project) p.project := by
  intro p' hp' _ g hg hcleared hstate hof t ht hlimit
  rw [mem_singleton] at hp'
  have hlast : t ≤ txn.now := by
    simp only [Statement.timely, hstage, all_eq_true, Bool.or_eq_true, Bool.not_eq_true',
      decide_eq_true_eq] at htimely
    have hg := htimely g hg
    simpa [Attempt.hasFailed, hstate, ht, hof] using hg
  have hlimits : p'.maxFailuresPerHour = p.maxFailuresPerHour ∧
      p'.abuseCooldownSeconds = p.abuseCooldownSeconds := by
    rw [hp', Policy.gated]
    split <;> exact ⟨rfl, rfl⟩
  rw [hlimits.1] at hlimit
  rw [hlimits.2]
  rcases Nat.eq_or_lt_of_le hlast with rfl | hlt
  · -- the count of the gate itself
    have hgated : p' = { p with
        abuseSuspendedUntil := some (max (p.abuseSuspendedUntil.getD 0)
          (txn.now + p.abuseCooldownSeconds * microsPerSecond))
        abuseGeneration := p.abuseGeneration + 1 } := by
      rw [hp']
      exact if_pos hlimit
    rw [hgated]
    exact le_max_right _ _
  · -- the pending failure is later, so it neither is this one nor counts towards it
    have hground := hinv.grounded x txn hx
    simp only [Txn.Grounded, hstage] at hground
    rcases hground with ⟨f, hf, hid, hfinished, -⟩
    have hlater : ∀ a ∈ s.seenAttempts x, ∀ finished, a.finishedAt = some finished →
        finished ≤ t → txn.stage.pending ≠ some a.id := by
      intro a ha finished hafinished hle hpending
      rw [hstage] at hpending
      have haf : a = f := (hinv.keyed_seenAttempts x).eq ha
        (hinv.attempts.mem_view.mpr (.inl hf)) ((Option.some.inj hpending).symm.trans hid.symm)
      rw [haf, hfinished] at hafinished
      rw [← Option.some.inj hafinished] at hle
      exact absurd hle (Nat.not_le.mpr hlt)
    have hnot : txn.stage ≠ .replaced p.project true := by
      rw [hstage]
      simp
    have hbefore := h.seen hinv hx hnot
    have hsettled : g ∈ s.settledAttempts x txn :=
      mem_settledAttempts.mpr ⟨hg, hlater g hg t ht (Nat.le_refl t)⟩
    refine (hbefore p hp rfl g hsettled hcleared hstate hof t ht (hlimit.trans ?_)).trans ?_
    · refine failuresIn_le (hinv.keyed_seenAttempts x) ?_
      intro a ha _ _ finished hafinished hle
      exact mem_settledAttempts.mpr ⟨ha, hlater a ha finished hafinished hle⟩
    · rw [hp']
      exact le_gated

theorem eq_of_finished (hinv : s.Inv jobs) (hx : s.txns x = some txn) {state : Status}
    (hstage : txn.stage = .finished attempt state) (hf : f ∈ s.seenAttempts x)
    (hid : f.id = attempt) : f.state = state := by
  have hground := hinv.grounded x txn hx
  simp only [Txn.Grounded, hstage] at hground
  rcases hground with ⟨g, hg, hgid, hgstate, -⟩
  have hfg : f = g := (hinv.keyed_seenAttempts x).eq hf (hinv.attempts.mem_view.mpr (.inl hg))
    (hid.trans hgid.symm)
  rw [hfg, hgstate]

/-- A statement that drafts no failure, or only the one whose settlement comes next, and does not
end an outstanding settlement of a failure. -/
theorem sub_of_timely (hinv : s.Inv jobs) (hx : s.txns x = some txn)
    (heff : StatementEffect jobs s x txn st s') (htimely : st.timely jobs s x txn = true)
    (hst : st ≠ .commit ∧ st ≠ .gate) (hx' : s'.txns x = some txn') (hfailed : f.hasFailed = true)
    (hpending : txn'.stage.pending ≠ some f.id) :
    (f ∈ s'.seenAttempts x → f ∈ s.seenAttempts x ∧ txn.stage.pending ≠ some f.id) ∧
      (f ∈ s'.attempts.own x → f ∈ s.attempts.own x) := by
  have hnone : ∀ {attempt state}, txn.stage = .finished attempt state → state.isFailure = false →
      f ∈ s.seenAttempts x → txn.stage.pending ≠ some f.id := by
    intro attempt state hstage hstate hf heq
    rw [hstage] at heq
    have hfstate := eq_of_finished hinv hx hstage hf (Option.some.inj heq).symm
    simp [Attempt.hasFailed, hfstate, hstate] at hfailed
  -- a drafted row that is no failure is not `f`
  have hwrite : ∀ {a : Attempt}, a.hasFailed = false → s.attempts.free (·.id) x a.id = true →
      txn.stage.pending = none →
      (f ∈ (s.attempts.write (·.id) x a).view (·.id) x →
        f ∈ s.seenAttempts x ∧ txn.stage.pending ≠ some f.id) ∧
        (f ∈ (s.attempts.write (·.id) x a).own x → f ∈ s.attempts.own x) := by
    intro a ha hfree hstage
    constructor
    · intro hf
      rcases (hinv.attempts.mem_view_write hfree).mp hf with rfl | ⟨hf, -⟩
      · simp [ha] at hfailed
      · exact ⟨hf, by simp [hstage]⟩
    · intro hf
      rcases Table.mem_own_write.mp hf with rfl | ⟨hf, -⟩
      · simp [ha] at hfailed
      · exact hf
  cases heff with
  | readClock hstage | letIn hstage | replacePolicy hstage =>
    exact ⟨fun hf => ⟨hf, by simp [hstage, Stage.pending]⟩, fun hf => hf⟩
  | finish hstage ha hfree =>
    rename_i state a
    rw [Storm.setTxn_self] at hx'
    cases hx'
    have hfree : s.attempts.free (·.id) x (a.finish state txn.now).id = true := hfree
    constructor
    · intro hf
      rcases (hinv.attempts.mem_view_write hfree).mp hf with rfl | ⟨hf, -⟩
      · exact absurd rfl hpending
      · exact ⟨hf, by simp [hstage, Stage.pending]⟩
    · intro hf
      rcases Table.mem_own_write.mp hf with rfl | ⟨hf, -⟩
      · exact absurd rfl hpending
      · exact hf
  | unsettled hstage hinactive =>
    refine ⟨fun hf => ⟨hf, hnone hstage ?_ hf⟩, fun hf => hf⟩
    simp only [Statement.timely, hstage, Bool.or_eq_true, Bool.not_eq_true', any_eq_true,
      Bool.and_eq_true, decide_eq_true_eq] at htimely
    rcases htimely with hstate | ⟨u, hu, hattempt, hactive⟩
    · exact hstate
    · rw [hinactive u hu hattempt] at hactive
      cases hactive
  | settle hstage hu hattempt hfree =>
    rename_i attempt state u
    rw [Storm.setTxn_self] at hx'
    cases hx'
    refine ⟨fun hf => ⟨hf, ?_⟩, fun hf => hf⟩
    cases hstate : state.isFailure with
    | true =>
      rw [hstage]
      simpa [hstate, Stage.pending] using hpending
    | false => exact hnone hstage hstate hf
  | report hstage ha hfree =>
    have hfind := (hinv.keyed_seenAttempts x).find ha
    simp only [Statement.timely, hfind, Bool.not_eq_true'] at htimely
    exact hwrite htimely hfree (by rw [hstage]; rfl)
  | insertSnapshot hstage hfresh hfree =>
    simp only [Statement.timely, Bool.not_eq_true'] at htimely
    exact hwrite htimely hfree (by rw [hstage]; rfl)
  | insertClaim hstage _ hstate _ _ hfree =>
    exact hwrite (by simp [Attempt.hasFailed, hstate, Status.isFailure]) hfree (by rw [hstage]; rfl)
  | gate => exact absurd rfl hst.2
  | commit => exact absurd rfl hst.1
  | abort => simp at hx'

theorem ofProject_unique (hjobs : Keyed (·.id) jobs) (h : a.ofProject jobs project = true)
    (h' : a.ofProject jobs project' = true) :
    project = project' := by
  simp only [Attempt.ofProject, any_eq_true, Bool.and_eq_true, decide_eq_true_eq] at h h'
  rcases h with ⟨j, hj, hid, rfl⟩
  rcases h' with ⟨j', hj', hid', rfl⟩
  rw [hjobs.eq hj hj' (hid.trans hid'.symm)]

theorem holds_mono (heff : StatementEffect jobs s x txn st s') (hx' : s'.txns x = some txn')
    (h : s.Holds x project) :
    s'.Holds x project := by
  have hwrite : ∀ p : Policy, ∃ q ∈ (s.policies.write (·.project) x p).own x,
      q.project = project := by
    intro p
    rcases h with ⟨q, hq, hproject⟩
    by_cases hsame : q.project = p.project
    · exact ⟨p, Table.mem_own_write.mpr (.inl rfl), hsame.symm.trans hproject⟩
    · exact ⟨q, Table.mem_own_write.mpr (.inr ⟨hq, hsame⟩), hproject⟩
  cases heff with
  | gate | letIn | replacePolicy => exact hwrite _
  | commit | abort => simp at hx'
  | _ => exact h

theorem project_of_pending (hinv : s.Inv jobs) (hjobs : Keyed (·.id) jobs)
    (hx : s.txns x = some txn) (hstage : txn.stage = .storm attempt project)
    (hf : f ∈ s.seenAttempts x) (hpending : txn.stage.pending = some f.id)
    (hof : f.ofProject jobs project' = true) :
    project' = project := by
  have hground := hinv.grounded x txn hx
  simp only [Txn.Grounded, hstage] at hground
  rcases hground with ⟨g, hg, hgid, -, hgof⟩
  rw [hstage] at hpending
  have hfg : f = g := (hinv.keyed_seenAttempts x).eq hf (hinv.attempts.mem_view.mpr (.inl hg))
    ((Option.some.inj hpending).symm.trans hgid.symm)
  exact ofProject_unique hjobs hof (hfg ▸ hgof)

theorem guarded_self (h : s.Heeding jobs) (hinv : s.Inv jobs) (hjobs : Keyed (·.id) jobs)
    (hx : s.txns x = some txn) (heff : StatementEffect jobs s x txn st s') (hinv' : s'.Inv jobs)
    (htimely : st.timely jobs s x txn = true) (hx' : s'.txns x = some txn')
    (hf : f ∈ s'.attempts.own x) (hfailed : f.hasFailed = true)
    (hpending : txn'.stage.pending ≠ some f.id) (hof : f.ofProject jobs project = true) :
    s'.Holds x project := by
  by_cases hgate : st = .gate
  · subst hgate
    by_cases hwas : txn.stage.pending = some f.id
    · cases heff with
      | gate hstage hp hfree =>
        have hseen : f ∈ s.seenAttempts x := hinv.attempts.mem_view.mpr (.inl hf)
        rw [project_of_pending hinv hjobs hx hstage hseen hwas hof]
        exact ⟨_, Table.mem_own_write.mpr (.inl rfl), Policy.gated_project⟩
    · have hown : f ∈ s.attempts.own x := by
        cases heff
        exact hf
      exact holds_mono heff hx' (h.guarded x txn hx f hown hfailed hwas project hof)
  · by_cases hcommit : st = .commit
    · subst hcommit
      cases heff
      simp at hx'
    · have hsub := sub_of_timely hinv hx heff htimely ⟨hcommit, hgate⟩ hx' hfailed hpending
      have hseen : f ∈ s'.seenAttempts x := hinv'.attempts.mem_view.mpr (.inl hf)
      exact holds_mono heff hx'
        (h.guarded x txn hx f (hsub.2 hf) hfailed (hsub.1 hseen).2 project hof)

theorem heeded_self (h : s.Heeding jobs) (hinv : s.Inv jobs) (hjobs : Keyed (·.id) jobs)
    (hx : s.txns x = some txn) (heff : StatementEffect jobs s x txn st s') (hinv' : s'.Inv jobs)
    (htimely : st.timely jobs s x txn = true) (hx' : s'.txns x = some txn')
    (hholds : s'.Holds x project) (hstage' : txn'.stage ≠ .replaced project true) :
    Heeded jobs (s'.policies.own x) (s'.settledAttempts x txn') (s'.cleared project) project := by
  have hown : ∀ p ∈ s.policies.own x, p ∈ s.seenPolicies x :=
    fun p hp => hinv.policies.mem_view.mpr (.inl hp)
  have hsub : st ≠ .commit ∧ st ≠ .gate → ∀ f ∈ s'.settledAttempts x txn', f.hasFailed = true →
      f ∈ s.settledAttempts x txn := by
    intro hst f hf hfailed
    rcases mem_settledAttempts.mp hf with ⟨hf, hpending⟩
    exact mem_settledAttempts.mpr
      ((sub_of_timely hinv hx heff htimely hst hx' hfailed hpending).1 hf)
  have hsame : s'.policies.own x = s.policies.own x → s'.cleared = s.cleared →
      st ≠ .commit ∧ st ≠ .gate → txn.stage ≠ .replaced project true →
        Heeded jobs (s'.policies.own x) (s'.settledAttempts x txn') (s'.cleared project) project :=
    fun hpolicies hcleared hst hstage =>
      h.heeded_of_sub hx hinv' hpolicies hcleared hstage (hsub hst) hholds
  cases heff with
  | readClock hstage | finish hstage | unsettled hstage | settle hstage | report hstage
  | insertSnapshot hstage | insertClaim hstage => exact hsame rfl rfl (by simp) (by simp [hstage])
  | gate hstage hp hfree =>
    rename_i attempt p
    rw [Storm.setTxn_self] at hx'
    by_cases hproject : project = p.project
    · subst hproject
      refine (h.heeded_gate hinv hx hstage hp htimely).anti
        ((hinv.keyed_seenAttempts x).sublist (filter_sublist.map _)) ?_ ?_
      · intro r hr hrproject
        rcases Table.mem_own_write.mp hr with rfl | ⟨-, hne⟩
        · simp
        · exact absurd (hrproject.trans (Policy.gated_project).symm) hne
      · intro f hf _ _
        exact (mem_settledAttempts.mp hf).1
    · refine h.heeded_of_seen hinv hx hinv' rfl rfl (by simp [hstage]) ?_ ?_
      · intro f hf _ hof hpending
        exact hproject (project_of_pending hinv hjobs hx hstage hf hpending hof)
      intro r hr hrproject
      rcases Table.mem_own_write.mp hr with rfl | ⟨hr, -⟩
      · exact absurd (hrproject.symm.trans (Policy.gated_project)) hproject
      · exact hown r hr
  | letIn hstage _ hp =>
    refine h.heeded_of_seen hinv hx hinv' rfl rfl (by simp [hstage]) ?_ ?_
    · simp [hstage, Stage.pending]
    intro r hr _
    rcases Table.mem_own_write.mp hr with rfl | ⟨hr, -⟩
    · exact hp
    · exact hown r hr
  | replacePolicy hstage hp hfree =>
    rename_i clear p
    rw [Storm.setTxn_self] at hx'
    cases hx'
    refine h.heeded_of_seen hinv hx hinv' rfl rfl (by simp [hstage]) ?_ ?_
    · simp [hstage, Stage.pending]
    intro r hr hrproject
    rcases Table.mem_own_write.mp hr with rfl | ⟨hr, -⟩
    · cases clear with
      | false => exact hp
      | true => exact absurd (by rw [← hrproject]) hstage'
    · exact hown r hr
  | commit | abort => simp at hx'

theorem statement (h : s.Heeding jobs) (hinv : s.Inv jobs) (hjobs : Keyed (·.id) jobs)
    (hx : s.txns x = some txn) (heff : StatementEffect jobs s x txn st s')
    (htimely : st.timely jobs s x txn = true) : s'.Heeding jobs where
  committed := by
    intro project
    cases heff with
    | commit hpending => exact h.committed_commit hinv hx hpending project
    | _ => exact h.committed project
  guarded := by
    intro y txn' hy f hf hfailed hpending project hof
    by_cases hne : y = x
    · subst hne
      exact h.guarded_self hinv hjobs hx heff (hinv.statement hx heff) htimely hy hf hfailed hpending
        hof
    · rcases heff.others hne with ⟨htxn, hattempts, hpolicies⟩
      rw [Storm.Holds, hpolicies]
      exact h.guarded y txn' (htxn ▸ hy) f (hattempts ▸ hf) hfailed hpending project hof
  heeded := by
    intro y txn' hy project hholds hstage
    by_cases hne : y = x
    · subst hne
      exact h.heeded_self hinv hjobs hx heff (hinv.statement hx heff) htimely hy hholds hstage
    rcases heff.others hne with ⟨htxn, -, hpolicies⟩
    rw [Storm.Holds, hpolicies] at hholds
    rw [htxn] at hy
    rw [hpolicies]
    by_cases hst : st = .commit
    · subst hst
      have hpending : txn.stage.pending = none := by
        cases heff with
        | commit hpending => exact hpending
      exact h.heeded_commit_of_ne hinv hx hpending heff hne hy hholds hstage
    · rw [Storm.settledAttempts, seenAttempts_of_ne heff hne hst, cleared_of_ne_commit heff hst]
      exact h.heeded y txn' hy project hholds hstage

theorem init (policies : List Policy) : (Storm.init policies).Heeding jobs where
  committed := nofun
  guarded := nofun
  heeded := nofun

theorem step (h : s.Heeding jobs) (hinv : s.Inv jobs) (hjobs : Keyed (·.id) jobs) {op : StormOp}
    (htimely : op.timely jobs s = true) : (stepStorm jobs s op).Heeding jobs := by
  rcases stepStorm_cases jobs s op with
    heq | ⟨micros, -, heq⟩ | ⟨x, -, hx, heq⟩ | ⟨x, st, txn, rfl, hx, heff⟩
  · rw [heq]
    exact h
  · rw [heq]
    exact ⟨h.committed, h.guarded, h.heeded⟩
  · rw [heq]
    have hidle := hinv.idle x hx
    refine ⟨h.committed, ?_, ?_⟩
    · intro y txn' hy f hf
      by_cases hne : y = x
      · subst hne
        have hnone : f ∈ s.attempts.own y := hf
        rw [hidle.1] at hnone
        cases hnone
      · exact h.guarded y txn' (Storm.setTxn_of_ne hne ▸ hy) f hf
    · intro y txn' hy project hholds
      by_cases hne : y = x
      · subst hne
        rcases hholds with ⟨p, hp, -⟩
        have hnone : p ∈ s.policies.own y := hp
        rw [hidle.2] at hnone
        cases hnone
      · exact h.heeded y txn' (Storm.setTxn_of_ne hne ▸ hy) project hholds
  · refine h.statement hinv hjobs hx heff ?_
    simpa [StormOp.timely, hx] using htimely

end Storm.Heeding

/-! ## Every run -/

/-- The jobs and the policy rows of the projects, with their primary keys. -/
structure StormTables where
  jobs : List Job
  policies : List Policy
  jobs_keyed : Keyed (·.id) jobs
  policies_keyed : Keyed (·.project) policies

/-- The state after a list of steps from the state in which nothing has been claimed. -/
def StormTables.after (tables : StormTables) (ops : List StormOp) : Storm :=
  run (stepStorm tables.jobs) (.init tables.policies) ops

theorem StormTables.inv_after (tables : StormTables) (ops : List StormOp) :
    (tables.after ops).Inv tables.jobs :=
  run_induction (fun _ op h => h.step op) (Storm.Inv.init tables.policies tables.policies_keyed)

theorem StormTables.heeding_after (tables : StormTables) {ops : List StormOp}
    (h : Along (stepStorm tables.jobs) (fun s op => op.timely tables.jobs s = true)
      (.init tables.policies) ops) :
    (tables.after ops).Heeding tables.jobs := by
  have hboth : (tables.after ops).Inv tables.jobs ∧ (tables.after ops).Heeding tables.jobs :=
    run_invariant (I := fun s => s.Inv tables.jobs ∧ s.Heeding tables.jobs)
      (fun _ op hs htimely => ⟨hs.1.step op, hs.2.step hs.1 tables.jobs_keyed htimely⟩)
      ⟨.init tables.policies tables.policies_keyed, .init tables.policies⟩ h
  exact hboth.2

/-- The failure-storm gate.  If every failure is timely, the committed failures of an hour that
reach the limit have the project suspended for the cooldown after the latest of them; in any case no
job is let in while the project is suspended, and the suspension ends earlier only by a clear. -/
theorem failure_storm_gate (tables : StormTables) (ops : List StormOp) :
    (Along (stepStorm tables.jobs) (fun s op => op.timely tables.jobs s = true)
        (.init tables.policies) ops →
      ∀ project, Heeded tables.jobs (tables.after ops).policies.committed
        (tables.after ops).attempts.committed ((tables.after ops).cleared project) project) ∧
    (∀ x now kind project,
      (tables.after ops).txns x = some ⟨now, .admitted kind project⟩ →
        suspendedUntil (tables.after ops).policies.committed project ≤ (tables.after ops).clock ∧
        suspendedUntil ((tables.after ops).seenPolicies x) project ≤ (tables.after ops).clock) ∧
    (∀ op project, ¬ op.clears (tables.after ops) project →
      suspendedUntil (tables.after ops).policies.committed project ≤
        suspendedUntil (stepStorm tables.jobs (tables.after ops) op).policies.committed
          project) := by
  refine ⟨?_, ?_, ?_⟩
  · intro htimely
    exact (tables.heeding_after htimely).committed
  · intro x now kind project hx
    exact (tables.inv_after ops).not_suspended hx
  · intro op project hclears
    exact (tables.inv_after ops).suspendedUntil_le_step hclears

/-! ## Two failures within a second -/

/-- A project that two failures within an hour suspend. -/
def stormTables : StormTables where
  jobs := [newJob (exampleCreateCall 7 0), newJob (exampleCreateCall 8 0)]
  policies := [{ examplePolicy with maxFailuresPerHour := 2 }]
  jobs_keyed := by simp [Keyed, newJob, exampleCreateCall]
  policies_keyed := nodup_singleton _

def stormAttempt (job : JobId) (attempt : AttemptId) : Attempt where
  id := attempt
  job := job
  attemptNo := 1
  state := .claimed
  fence := 1
  worker := some "replica-a"
  failureDetail := ""
  finishedAt := none

def stormUsage (job : JobId) (attempt : AttemptId) : Usage where
  attempt := attempt
  project := 1
  job := job
  budgetDay := 0
  maxRuntimeSeconds := 3600
  costPerMinute := 0
  reservedSeconds := 3600
  reservedCost := 0
  chargedSeconds := 3600
  chargedCost := 0
  meteringStartedAt := 0
  cloudStartedAt := none
  active := true

/-- Transaction `x` claims the job. -/
def stormClaim (x : Nat) (job : JobId) (attempt : AttemptId) : List StormOp :=
  [.begin x, .statement x (.letIn .claim 1 0 true),
    .statement x (.insertClaim (stormAttempt job attempt) (stormUsage job attempt)),
    .statement x .commit]

/-- Transaction `x`, begun before, fails the attempt. -/
def stormFail (x : Nat) (attempt : AttemptId) : List StormOp :=
  [.statement x (.finish attempt .failed), .statement x .settle, .statement x .gate,
    .statement x .commit]

/-- Two attempts run; two transactions that will fail them have read their clocks, a second
apart. -/
def twoFailures : List StormOp :=
  stormClaim 1 7 1 ++ stormClaim 2 8 2 ++
    [.begin 1, .tick microsPerSecond, .begin 2]

/-- The transaction with the later clock reading gets the policy row first and counts one failure;
the other one then counts up to its own, earlier time, and again finds one. -/
theorem failure_storm_unnoticed :
    ¬ Heeded stormTables.jobs
      (stormTables.after (twoFailures ++ stormFail 2 2 ++ stormFail 1 1)).policies.committed
      (stormTables.after (twoFailures ++ stormFail 2 2 ++ stormFail 1 1)).attempts.committed
      ((stormTables.after (twoFailures ++ stormFail 2 2 ++ stormFail 1 1)).cleared 1) 1 := by
  intro h
  have hlate := h { examplePolicy with maxFailuresPerHour := 2 } (by decide +kernel) rfl
    ((stormAttempt 8 2).finish .failed microsPerSecond) (by decide +kernel) (by decide +kernel) rfl
    (by decide +kernel) microsPerSecond rfl (by decide +kernel)
  exact absurd hlate (by decide)

/-- In the order of their clock readings the two failures suspend the project. -/
theorem failure_storm_noticed :
    Along (stepStorm stormTables.jobs) (fun s op => op.timely stormTables.jobs s = true)
        (.init stormTables.policies) (twoFailures ++ stormFail 1 1 ++ stormFail 2 2) ∧
      ∀ project, Heeded stormTables.jobs
        (stormTables.after (twoFailures ++ stormFail 1 1 ++ stormFail 2 2)).policies.committed
        (stormTables.after (twoFailures ++ stormFail 1 1 ++ stormFail 2 2)).attempts.committed
        ((stormTables.after (twoFailures ++ stormFail 1 1 ++ stormFail 2 2)).cleared project)
        project := by
  have htimely : Along (stepStorm stormTables.jobs)
      (fun s op => op.timely stormTables.jobs s = true) (.init stormTables.policies)
      (twoFailures ++ stormFail 1 1 ++ stormFail 2 2) := by decide +kernel
  exact ⟨htimely, (failure_storm_gate stormTables _).1 htimely⟩

end PortageEngine.Ledger
