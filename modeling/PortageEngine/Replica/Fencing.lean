import PortageEngine.Ledger.Leases
import PortageEngine.Replica.Cluster

/-!
# Fencing of stale executors

An executor's renewals and status transitions change the ledger only while its attempt holds the live
lease, in every run in which its calls find their own attempt in the map.  The refresh of the map and
the operator's commands can put another identity, or none, there first; then the fence is gone.
-/

namespace PortageEngine.Replica

open Ledger Library Library.Runs

/-- The executor whose goroutine takes the action. -/
def Act.caller : Act → Option Executor
  | .renewTick e | .requireActiveClaim e _ | .updateStatus e _ _ _ _ => some e
  | _ => none

/-- The executor's replica has no entry for its job, or one that names its attempt. -/
def ownsEntry (c : Cluster) (e : Executor) : Bool :=
  (c.jobs e.replica e.job).all fun status => status.attemptId = some e.attempt

/-- A call starts while the entry names the caller's own attempt. -/
def OwnsEntry (c : Cluster) (act : Act) : Prop :=
  act.caller.all (ownsEntry c) = true

instance (c : Cluster) (act : Act) : Decidable (OwnsEntry c act) :=
  inferInstanceAs (Decidable (act.caller.all (ownsEntry c) = true))

/-- The executor call that reaches the database, and when. -/
def Act.delivers (c : Cluster) : Act → Option (Call × Time)
  | .deliver i now _ _ => (c.calls[i]?).map (·, now)
  | _ => none

/-- An executor's call changes the ledger only while its attempt holds the live lease. -/
def Fenced (c : Cluster) (act : Act) : Prop :=
  ∀ call now, act.delivers c = some (call, now) → (stepCluster c act).ledger ≠ c.ledger →
    holdsLease c.ledger call.executor.attempt now

/-- A call of an executor of attempt `k` changes nothing. -/
def Silent (k : AttemptId) (c : Cluster) (act : Act) : Prop :=
  ∀ call now, act.delivers c = some (call, now) → call.executor.attempt = k →
    (stepCluster c act).ledger = c.ledger

/-! ## Calls under way -/

/-- The calls under way present their executor's attempt. -/
def CallsOwned (c : Cluster) : Prop :=
  ∀ call ∈ c.calls, call.request.status.attemptId = some call.executor.attempt

theorem callsOwned_init (policies : List Policy) : CallsOwned (Cluster.init policies) := by
  intro call hcall
  cases hcall

variable {c : Cluster} {e : Executor} {request : Request} {act : Act} {k : AttemptId} {t : Time}

theorem CallsOwned.send (h : CallsOwned c) (howned : request.status.attemptId = some e.attempt) :
    CallsOwned (send c e request) := by
  intro call hcall
  rcases List.mem_cons.mp hcall with rfl | hcall
  · exact howned
  · exact h call hcall

theorem calls_installReply {r : ReplicaId} {reply : Reply} :
    (installReply c r reply).calls = c.calls := by
  cases reply <;> rfl

theorem ownsEntry_some (h : ownsEntry c e = true) {status : BuildStatus}
    (hentry : c.jobs e.replica e.job = some status) : status.attemptId = some e.attempt := by
  simpa [ownsEntry, hentry] using h

theorem CallsOwned.step (h : CallsOwned c) (hown : OwnsEntry c act) :
    CallsOwned (stepCluster c act) := by
  cases act with
  | install i =>
    simp only [stepCluster]
    cases hreply : c.replies[i]? with
    | none => exact h
    | some pair =>
      unfold CallsOwned
      rw [calls_installReply]
      exact h
  | renewTick e =>
    have howns : ownsEntry c e = true := hown
    simp only [stepCluster, tick]
    split
    · cases hentry : c.jobs e.replica e.job with
      | none => exact h
      | some status =>
        by_cases hterminal : terminalStatus status.status = true
        · simp only [hterminal, if_true]
          exact h
        · simp only [hterminal, Bool.false_eq_true, if_false]
          exact h.send (ownsEntry_some howns hentry)
    · exact h
  | requireActiveClaim e leaseDuration =>
    have howns : ownsEntry c e = true := hown
    simp only [stepCluster, requireClaim]
    split
    · cases hentry : c.jobs e.replica e.job with
      | none => exact h
      | some status => exact h.send (ownsEntry_some howns hentry)
    · exact h
  | updateStatus e status instanceId errorMsg at_ =>
    have howns : ownsEntry c e = true := hown
    simp only [stepCluster, Replica.updateStatus]
    split
    · cases hentry : c.jobs e.replica e.job with
      | none => exact h
      | some previous =>
        have hattempt := ownsEntry_some howns hentry
        refine CallsOwned.send ?_ hattempt
        simp only [hattempt, Option.isSome_some, if_true]
        exact h
    · exact h
  | deliver i now fresh again =>
    simp only [stepCluster, Replica.deliver]
    cases hcall : c.calls[i]? with
    | none => exact h
    | some call =>
      intro call' hcall'
      refine h call' ?_
      cases again with
      | true => exact hcall'
      | false => exact List.mem_of_mem_eraseIdx hcall'
  | _ => exact h

/-! ## The fence -/

/-- A request in the name of an attempt commits a change only under that attempt's live lease. -/
theorem holdsLease_of_request {l l' : Ledger} {now : Time} {fresh : AttemptId}
    {claim : Option PhaseClaim} (hk : request.status.attemptId = some k)
    (hok : (request.op now fresh).run l = .ok (l', claim)) (hchanged : l' ≠ l) :
    holdsLease l k now := by
  cases request with
  | renew status leaseDuration =>
    rcases map_eq_ok.mp hok with ⟨m, hm, heq⟩
    rcases renewClaim_ok hm with ⟨attempt, u, hattempt, ⟨hlive, _⟩, _⟩
    have hsame : attempt = k := Option.some.inj (hattempt.symm.trans hk)
    exact hsame ▸ holdsLease_of_claimLive hlive
  | report previous current =>
    rcases map_eq_ok.mp hok with ⟨m, hm, heq⟩
    cases heq
    rcases recordTransition_fenced_ok hk hm with rfl | ⟨hlive, _⟩
    · exact absurd rfl hchanged
    · exact holdsLease_of_claimLive hlive

theorem fenced_of_callsOwned (h : CallsOwned c) (act : Act) : Fenced c act := by
  intro call now hdelivers hchanged
  cases act with
  | deliver i now' fresh again =>
    rcases Option.map_eq_some_iff.mp hdelivers with ⟨_, hcall, heq⟩
    cases heq
    have howned := h call (List.mem_of_getElem? hcall)
    have hsystem := system_stepCluster c (.deliver i now fresh again)
    simp only [Act.op, hcall, Option.map_some] at hsystem
    rcases step_cases c.system (call.request.op now fresh) with hsame | ⟨l, claim, hok, _, heq⟩
    · refine absurd ?_ hchanged
      rw [Cluster.ledger, hsystem, hsame]
      rfl
    refine holdsLease_of_request howned hok ?_
    intro hsame
    refine hchanged ?_
    rw [Cluster.ledger, hsystem, heq]
    exact hsame
  | _ => cases hdelivers

/-! ## After the loss -/

/-- Clocks of the transactions that could renew a lease are at or after `t`. -/
def Act.NotBefore (t : Time) : Act → Prop
  | .other op => ∀ now, op.renewsAt = some now → t ≤ now
  | .deliver _ now _ _ => t ≤ now
  | _ => True

theorem lapsed_stepCluster (h : Lapsed c.ledger k t) (htime : act.NotBefore t) :
    Lapsed (stepCluster c act).ledger k t := by
  have hsystem := system_stepCluster c act
  have hrenews : ∀ op, act.op c = some op → ∀ now, op.renewsAt = some now → t ≤ now := by
    intro op hop now hnow
    cases act with
    | other op' =>
      cases hop
      exact htime now hnow
    | deliver i now' fresh again =>
      rcases Option.map_eq_some_iff.mp hop with ⟨call, _, rfl⟩
      cases hrequest : call.request with
      | renew status leaseDuration =>
        rw [hrequest] at hnow
        cases hnow
        exact htime
      | report previous current =>
        rw [hrequest] at hnow
        cases hnow
    | submit r call | claim r call | cancel r job reason now' | retry r job counted now' =>
      cases hop; cases hnow
    | _ => cases hop
  rw [Cluster.ledger, hsystem]
  cases hop : act.op c with
  | none => exact h
  | some op => exact Lapsed.step h (hrenews op hop)

theorem silent_of_lapsed (h : CallsOwned c) (hlapsed : Lapsed c.ledger k t)
    (htime : act.NotBefore t) : Silent k c act := by
  intro call now hdelivers hk
  by_contra hchanged
  have hlive := fenced_of_callsOwned h act call now hdelivers hchanged
  have hnow : t ≤ now := by
    cases act with
    | deliver i now' fresh again =>
      rcases Option.map_eq_some_iff.mp hdelivers with ⟨_, _, heq⟩
      cases heq
      exact htime
    | _ => cases hdelivers
  exact hlapsed.not_holdsLease hnow (hk ▸ hlive)

/-- In every run in which executor calls start in their own attempt's name, such a call changes the
ledger only under the live lease of its attempt, and once an attempt has lost its lease no later call
of its executors changes anything. -/
theorem executors_fenced (policies : List Policy) (earlier later : List Act)
    (hown : Along stepCluster OwnsEntry (Cluster.init policies) (earlier ++ later)) :
    Along stepCluster Fenced (Cluster.init policies) (earlier ++ later) ∧
      ∀ k t, Lapsed (run stepCluster (Cluster.init policies) earlier).ledger k t →
        (∀ act ∈ later, act.NotBefore t) →
        Along stepCluster (Silent k) (run stepCluster (Cluster.init policies) earlier) later := by
  have hstep : ∀ c act, CallsOwned c → OwnsEntry c act → CallsOwned (stepCluster c act) :=
    fun c act hc hact => hc.step hact
  have hinit := callsOwned_init policies
  constructor
  · refine (along_invariant hstep hinit hown).imp ?_
    intro c act h
    exact fenced_of_callsOwned h.1 act
  · intro k t hlapsed htime
    rcases along_append.mp hown with ⟨hearlier, hlater⟩
    have howned := run_invariant hstep hinit hearlier
    -- from the loss on, both invariants travel together
    have hboth : ∀ c act, CallsOwned c ∧ Lapsed c.ledger k t → OwnsEntry c act ∧ act.NotBefore t →
        CallsOwned (stepCluster c act) ∧ Lapsed (stepCluster c act).ledger k t :=
      fun c act hc hact => ⟨hc.1.step hact.1, lapsed_stepCluster hc.2 hact.2⟩
    refine (along_invariant hboth ⟨howned, hlapsed⟩ (hlater.and (along_of_forall htime))).imp ?_
    intro c act h
    exact silent_of_lapsed h.1.1 h.1.2 h.2.2

/-- The executor of the first attempt of job 1, on replica 0. -/
def exampleExecutor : Executor := ⟨0, 1, 1⟩

/-- A job is submitted and claimed on replica 0. -/
def claimedRun : List Act :=
  [.submit 0 (exampleCreateCall 1 0), .install 0, .claim 0 (exampleClaimCall 1 1 0), .install 0]

/-- The executor renews and reports; then an operator cancels the job through replica 1. -/
def canceledElsewhere : List Act :=
  claimedRun ++ [.renewTick exampleExecutor, .deliver 0 1 0 false,
    .updateStatus exampleExecutor .building "" "" 2, .deliver 0 2 0 false, .install 0,
    .cancel 1 1 "operator" 3]

def lateReport : List Act :=
  [.updateStatus exampleExecutor .collecting "" "" 4, .deliver 0 4 0 false]

theorem executors_fenced_example :
    (run stepCluster (Cluster.init [examplePolicy]) (canceledElsewhere.take 8)).ledger.jobs.map
        Job.state = [.building] ∧
      Along stepCluster Fenced (Cluster.init [examplePolicy]) (canceledElsewhere ++ lateReport) ∧
      Along stepCluster (Silent 1)
        (run stepCluster (Cluster.init [examplePolicy]) canceledElsewhere) lateReport := by
  have h := executors_fenced [examplePolicy] canceledElsewhere lateReport (by decide)
  refine ⟨by decide, h.1, h.2 1 3 ⟨by decide, by decide⟩ ?_⟩
  intro act hact
  simp only [lateReport, List.mem_cons, List.not_mem_nil, or_false] at hact
  rcases hact with rfl | rfl
  · trivial
  · show 3 ≤ 4
    decide

/-- The operator cancels the job through the executor's own replica, which clears the identity in the
map; the executor's next report is unfenced. -/
def canceledHere : List Act :=
  claimedRun ++ [.cancel 0 1 "operator" 1, .install 0,
    .updateStatus exampleExecutor .building "" "" 2]

/-- The report of the canceled attempt sets its job to `building` again. -/
theorem canceled_attempt_reports :
    ¬ Along stepCluster Fenced (Cluster.init [examplePolicy])
      (canceledHere ++ [.deliver 0 3 0 false]) := by
  intro h
  have hfenced := (along_append.mp h).2.1
  have hlease := hfenced _ _ rfl (by
    intro hsame
    have hstates := congrArg (fun l : Ledger => l.jobs.map Job.state) hsame
    exact absurd hstates (by decide))
  rcases hlease with ⟨x, hx, _⟩
  have hnone : (run stepCluster (Cluster.init [examplePolicy]) canceledHere).ledger.leases = [] := by
    decide
  cases hx

end PortageEngine.Replica
