import PortageEngine.Library.ReadCommitted
import PortageEngine.Library.Runs
import PortageEngine.Ledger.Accounting

/-!
# The failure-storm gate, statement by statement

The other modules of the ledger take a transaction as one step.  The failure-storm gate depends on
more: a failing transaction reads its clock first, ends its attempt, waits for the project's policy
row and only then counts.  Here the transactions are taken apart into the statements that touch
`build_attempts`, `project_attempt_usage` and `project_policies`.  Between two statements of one
transaction any other transaction may run, and a statement sees what is committed by then.

A job's row keeps its project for good, so the jobs are a fixed list, those still to be submitted
included.  The statements of a settlement that wake or requeue jobs are left out: neither the gate
nor the admission checks below read what they write.
-/

namespace PortageEngine.Ledger

open List Library Library.Rows Library.ReadCommitted

/-- The three ways a job is let in, each under the lock on the policy row. -/
inductive Intake
  | submit
  | retry
  | claim
  deriving DecidableEq

inductive Stage
  | running
  /-- The attempt has its final state; `settleAttemptUsage` comes next. -/
  | finished (attempt : AttemptId) (state : Status)
  /-- The usage record is settled; `applyFailureStormSuspension` comes next. -/
  | storm (attempt : AttemptId) (project : ProjectId)
  | admitted (kind : Intake) (project : ProjectId)
  /-- `UpdateProjectPolicy` has written the row, clearing the suspension or not. -/
  | replaced (project : ProjectId) (clear : Bool)
  deriving DecidableEq

/-- The attempt whose settlement is outstanding. -/
def Stage.pending : Stage → Option AttemptId
  | .finished attempt _ | .storm attempt _ => some attempt
  | _ => none

/-- An open transaction and the time it works with: the database clock, or the clock of its
replica, read before it takes a lock. -/
structure Txn where
  now : Time
  stage : Stage

structure Storm where
  clock : Time
  attempts : Table Attempt
  usages : Table Usage
  policies : Table Policy
  txns : Nat → Option Txn
  /-- For each project the attempt rows at the last time an operator cleared its suspension. -/
  cleared : ProjectId → List Attempt

namespace Storm

/-- No transaction is open, and nothing has been claimed. -/
def init (policies : List Policy) : Storm where
  clock := 0
  attempts := .quiet []
  usages := .quiet []
  policies := .quiet policies
  txns := fun _ => none
  cleared := fun _ => []

def setTxn (s : Storm) (x : Nat) (txn : Option Txn) : Storm :=
  { s with txns := fun y => if y = x then txn else s.txns y }

def seenAttempts (s : Storm) (x : Nat) : List Attempt :=
  s.attempts.view (·.id) x

def seenUsages (s : Storm) (x : Nat) : List Usage :=
  s.usages.view (·.attempt) x

def seenPolicies (s : Storm) (x : Nat) : List Policy :=
  s.policies.view (·.project) x

/-- The tables as a statement of transaction `x` sees them. -/
def seen (jobs : List Job) (s : Storm) (x : Nat) : Ledger :=
  { Ledger.empty (s.seenPolicies x) with
    jobs := jobs
    attempts := s.seenAttempts x
    usages := s.seenUsages x }

/-- Draft an attempt row, if its lock is to be had. -/
def writeAttempt (s : Storm) (x : Nat) (a : Attempt) : Option Storm :=
  if s.attempts.free (·.id) x a.id then
    some { s with attempts := s.attempts.write (·.id) x a }
  else none

def writeUsage (s : Storm) (x : Nat) (u : Usage) : Option Storm :=
  if s.usages.free (·.attempt) x u.attempt then
    some { s with usages := s.usages.write (·.attempt) x u }
  else none

def writePolicy (s : Storm) (x : Nat) (p : Policy) : Option Storm :=
  if s.policies.free (·.project) x p.project then
    some { s with policies := s.policies.write (·.project) x p }
  else none

def commit (s : Storm) (x : Nat) (txn : Txn) : Storm where
  clock := s.clock
  attempts := s.attempts.commit (·.id) x
  usages := s.usages.commit (·.attempt) x
  policies := s.policies.commit (·.project) x
  txns := (s.setTxn x none).txns
  cleared := fun p => if txn.stage = .replaced p true then s.seenAttempts x else s.cleared p

def abort (s : Storm) (x : Nat) : Storm where
  clock := s.clock
  attempts := s.attempts.abort x
  usages := s.usages.abort x
  policies := s.policies.abort x
  txns := (s.setTxn x none).txns
  cleared := s.cleared

/-- No version of an attempt or usage row has this identifier. -/
def fresh (s : Storm) (attempt : AttemptId) : Bool :=
  s.attempts.versions.all (fun a => a.id ≠ attempt) &&
    s.usages.versions.all (fun u => u.attempt ≠ attempt)

end Storm

/-! ## Rows -/

/-- The attempt belongs to a job of the project. -/
def Attempt.ofProject (jobs : List Job) (project : ProjectId) (a : Attempt) : Bool :=
  jobs.any fun j => j.id = a.job && j.project = project

def Status.isFailure (state : Status) : Bool :=
  state = .failed || state = .expired

/-- The attempt ended as one that the gate counts. -/
def Attempt.hasFailed (a : Attempt) : Bool :=
  a.state.isFailure && a.finishedAt.isSome

def Attempt.finish (a : Attempt) (state : Status) (now : Time) : Attempt :=
  { a with state := state, finishedAt := some now }

/-- The row after a report: a finish time is kept unless a new one is given. -/
def Attempt.reported (a : Attempt) (state : Status) (finishedAt : Option Time) : Attempt :=
  { a with state := state, finishedAt := finishedAt <|> a.finishedAt }

/-! ## Statements -/

inductive Statement
  /-- Lease recovery reads the clock anew for every lease of its batch. -/
  | readClock
  /-- `UPDATE build_attempts SET state, finished_at`: a terminal transition or a recovered lease. -/
  | finish (attempt : AttemptId) (state : Status)
  /-- The first statement of `settleAttemptUsage`. -/
  | settle
  /-- `applyFailureStormSuspension`, from the lock on the policy row on. -/
  | gate
  /-- A report that is not terminal or carries no attempt identity writes the attempt row only. -/
  | report (attempt : AttemptId) (state : Status) (finishedAt : Option Time)
  /-- `upsertAttemptSnapshot` inserts an attempt that was never claimed. -/
  | insertSnapshot (attempt : Attempt)
  /-- The admission check under the policy lock: the clock it compares with, and the outcome of its
  other checks. -/
  | letIn (kind : Intake) (project : ProjectId) (readAt : Time) (others : Bool)
  /-- The rows of a claimed attempt. -/
  | insertClaim (attempt : Attempt) (usage : Usage)
  /-- `UpdateProjectPolicy` with the limits as they are. -/
  | replacePolicy (project : ProjectId) (clear : Bool)
  | commit
  | abort

namespace Statement

open Storm

/-- A statement of transaction `x`; `none` if it waits for a lock, fails, or does not come up in
this stage of the transaction. -/
def run (jobs : List Job) (s : Storm) (x : Nat) (txn : Txn) : Statement → Option Storm
  | .readClock => do
    guard (txn.stage = .running)
    return s.setTxn x (some ⟨s.clock, .running⟩)
  | .finish attempt state => do
    guard (txn.stage = .running ∧ (isLedgerTerminal state = true ∨ state = .expired))
    let a ← (s.seenAttempts x).find? (·.id = attempt)
    let s ← s.writeAttempt x (a.finish state txn.now)
    return s.setTxn x (some ⟨txn.now, .finished attempt state⟩)
  | .settle =>
    match txn.stage with
    | .finished attempt state =>
      match (s.seenUsages x).find? fun u => u.attempt = attempt && u.active with
      | none => some (s.setTxn x (some ⟨txn.now, .running⟩))
      | some u => do
        let s ← s.writeUsage x (Ledger.settle txn.now u)
        return s.setTxn x (some ⟨txn.now,
          if state.isFailure then .storm attempt u.project else .running⟩)
    | _ => none
  | .gate =>
    match txn.stage with
    | .storm _ project => do
      let gated := applyFailureStormSuspension (s.seen jobs x) project txn.now
      let p ← gated.policies.find? (·.project = project)
      let s ← s.writePolicy x p
      return s.setTxn x (some ⟨txn.now, .running⟩)
    | _ => none
  | .report attempt state finishedAt => do
    guard (txn.stage = .running)
    let a ← (s.seenAttempts x).find? (·.id = attempt)
    s.writeAttempt x (a.reported state finishedAt)
  | .insertSnapshot a => do
    guard (txn.stage = .running ∧ s.fresh a.id = true)
    s.writeAttempt x a
  | .letIn kind project readAt others => do
    guard (txn.stage = .running ∧ readAt ≤ s.clock)
    let p ← (s.seenPolicies x).find? (·.project = project)
    guard (p.suspended = false ∧ p.abuseSuspendedUntil.getD 0 ≤ readAt ∧ others = true)
    let s ← s.writePolicy x p
    return s.setTxn x (some ⟨txn.now, .admitted kind project⟩)
  | .insertClaim a u =>
    match txn.stage with
    | .admitted .claim project => do
      guard (s.fresh a.id = true ∧ a.state = .claimed ∧ a.finishedAt = none ∧
        u.attempt = a.id ∧ u.project = project ∧ a.ofProject jobs project = true)
      let s ← s.writeAttempt x a
      s.writeUsage x u
    | _ => none
  | .replacePolicy project clear => do
    guard (txn.stage = .running)
    let p ← (s.seenPolicies x).find? (·.project = project)
    let s ← s.writePolicy x
      { p with abuseSuspendedUntil := if clear then none else p.abuseSuspendedUntil }
    return s.setTxn x (some ⟨txn.now, .replaced project clear⟩)
  | .commit => do
    guard (txn.stage.pending = none)
    return s.commit x txn
  | .abort => some (s.abort x)

end Statement

inductive StormOp
  | tick (micros : Nat)
  | begin (x : Nat)
  | statement (x : Nat) (st : Statement)

/-- One step of the whole system; a statement that cannot run leaves everything as it is. -/
def stepStorm (jobs : List Job) (s : Storm) : StormOp → Storm
  | .tick micros => { s with clock := s.clock + micros }
  | .begin x =>
    match s.txns x with
    | none => s.setTxn x (some ⟨s.clock, .running⟩)
    | some _ => s
  | .statement x st =>
    match s.txns x with
    | none => s
    | some txn => (st.run jobs s x txn).getD s

/-! ## What a statement does -/

/-- The policy row after the gate: the suspension is extended if the failures reach the limit. -/
def Policy.gated (p : Policy) (failures : Nat) (now : Time) : Policy :=
  if p.maxFailuresPerHour ≤ failures then
    { p with
      abuseSuspendedUntil := some (max (p.abuseSuspendedUntil.getD 0)
        (now + p.abuseCooldownSeconds * microsPerSecond))
      abuseGeneration := p.abuseGeneration + 1 }
  else p

/-- The effects of the statements on tables and transaction, with what they have checked. -/
inductive StatementEffect (jobs : List Job) (s : Storm) (x : Nat) (txn : Txn) :
    Statement → Storm → Prop
  | readClock (hstage : txn.stage = .running) :
      StatementEffect jobs s x txn .readClock (s.setTxn x (some ⟨s.clock, .running⟩))
  | finish {state : Status} {a : Attempt} (hstage : txn.stage = .running)
      (ha : a ∈ s.seenAttempts x) (hfree : s.attempts.free (·.id) x a.id = true) :
      StatementEffect jobs s x txn (.finish a.id state)
        ({ s with attempts := s.attempts.write (·.id) x (a.finish state txn.now) }.setTxn x
          (some ⟨txn.now, .finished a.id state⟩))
  | unsettled {attempt : AttemptId} {state : Status} (hstage : txn.stage = .finished attempt state)
      (hnone : ∀ u ∈ s.seenUsages x, u.attempt = attempt → u.active = false) :
      StatementEffect jobs s x txn .settle (s.setTxn x (some ⟨txn.now, .running⟩))
  | settle {attempt : AttemptId} {state : Status} {u : Usage}
      (hstage : txn.stage = .finished attempt state) (hu : u ∈ s.seenUsages x)
      (hattempt : u.attempt = attempt)
      (hfree : s.usages.free (·.attempt) x u.attempt = true) :
      StatementEffect jobs s x txn .settle
        ({ s with usages := s.usages.write (·.attempt) x (Ledger.settle txn.now u) }.setTxn x
          (some ⟨txn.now, if state.isFailure then .storm attempt u.project else .running⟩))
  | gate {attempt : AttemptId} {p : Policy} (hstage : txn.stage = .storm attempt p.project)
      (hp : p ∈ s.seenPolicies x) (hfree : s.policies.free (·.project) x p.project = true) :
      StatementEffect jobs s x txn .gate
        ({ s with
            policies := s.policies.write (·.project) x
              (p.gated (recentFailures (s.seen jobs x) p.project txn.now) txn.now) }.setTxn x
          (some ⟨txn.now, .running⟩))
  | report {state : Status} {finishedAt : Option Time} {a : Attempt}
      (hstage : txn.stage = .running) (ha : a ∈ s.seenAttempts x)
      (hfree : s.attempts.free (·.id) x a.id = true) :
      StatementEffect jobs s x txn (.report a.id state finishedAt)
        { s with attempts := s.attempts.write (·.id) x (a.reported state finishedAt) }
  | insertSnapshot {a : Attempt} (hstage : txn.stage = .running) (hfresh : s.fresh a.id = true)
      (hfree : s.attempts.free (·.id) x a.id = true) :
      StatementEffect jobs s x txn (.insertSnapshot a)
        { s with attempts := s.attempts.write (·.id) x a }
  | letIn {kind : Intake} {readAt : Time} {others : Bool} {p : Policy}
      (hstage : txn.stage = .running) (hclock : readAt ≤ s.clock) (hp : p ∈ s.seenPolicies x)
      (huntil : p.abuseSuspendedUntil.getD 0 ≤ readAt)
      (hfree : s.policies.free (·.project) x p.project = true) :
      StatementEffect jobs s x txn (.letIn kind p.project readAt others)
        ({ s with policies := s.policies.write (·.project) x p }.setTxn x
          (some ⟨txn.now, .admitted kind p.project⟩))
  | insertClaim {a : Attempt} {u : Usage} (hstage : txn.stage = .admitted .claim u.project)
      (hfresh : s.fresh a.id = true) (hstate : a.state = .claimed) (hattempt : u.attempt = a.id)
      (hproject : a.ofProject jobs u.project = true)
      (hfree : s.attempts.free (·.id) x a.id = true)
      (hfreeUsage : s.usages.free (·.attempt) x u.attempt = true) :
      StatementEffect jobs s x txn (.insertClaim a u)
        { s with
          attempts := s.attempts.write (·.id) x a
          usages := s.usages.write (·.attempt) x u }
  | replacePolicy {clear : Bool} {p : Policy} (hstage : txn.stage = .running)
      (hp : p ∈ s.seenPolicies x) (hfree : s.policies.free (·.project) x p.project = true) :
      StatementEffect jobs s x txn (.replacePolicy p.project clear)
        ({ s with
            policies := s.policies.write (·.project) x
              { p with abuseSuspendedUntil := if clear then none else p.abuseSuspendedUntil }
          }.setTxn x (some ⟨txn.now, .replaced p.project clear⟩))
  | commit (hstage : txn.stage.pending = none) :
      StatementEffect jobs s x txn .commit (s.commit x txn)
  | abort : StatementEffect jobs s x txn .abort (s.abort x)

@[simp] theorem Policy.gated_project {p : Policy} {failures : Nat} {now : Time} :
    (p.gated failures now).project = p.project := by
  unfold Policy.gated
  split <;> rfl

variable {s s' : Storm} {x : Nat}

/-- A row that is drafted was free. -/
theorem free_of_drafted {free : Bool} {t : Storm} (h : (if free then some t else none) = some s') :
    free = true ∧ t = s' := by
  cases free with
  | false => cases h
  | true => exact ⟨rfl, Option.some.inj h⟩

theorem find_gated {l : Ledger} {project : ProjectId} {now : Time} {p' : Policy}
    (h : (applyFailureStormSuspension l project now).policies.find? (·.project = project) = some p') :
    ∃ p ∈ l.policies, p.project = project ∧ p' = p.gated (recentFailures l project now) now := by
  have hmem := mem_of_find?_eq_some h
  have hproject : p'.project = project := by simpa using find?_some h
  rcases mem_update.mp hmem with ⟨p, hp, rfl⟩
  refine ⟨p, hp, ?_, ?_⟩
  · by_cases hsel : (decide (p.project = project) &&
        decide (p.maxFailuresPerHour ≤ recentFailures l project now)) = true
    · simp only [Bool.and_eq_true, decide_eq_true_eq] at hsel
      exact hsel.1
    · rw [if_neg hsel] at hproject
      exact hproject
  · by_cases hproject' : p.project = project
    · simp [hproject', Policy.gated]
    · simp [hproject'] at hproject

theorem Statement.run_effect {jobs : List Job} {txn : Txn}
    {st : Statement} (h : st.run jobs s x txn = some s') : StatementEffect jobs s x txn st s' := by
  cases st with
  | readClock =>
    rcases guard_bind_eq_some.mp h with ⟨hstage, h⟩
    cases h
    exact .readClock hstage
  | finish attempt state =>
    rcases guard_bind_eq_some.mp h with ⟨⟨hstage, -⟩, h⟩
    rcases Option.bind_eq_some_iff.mp h with ⟨a, ha, h⟩
    rcases Option.bind_eq_some_iff.mp h with ⟨t, ht, h⟩
    rcases free_of_drafted ht with ⟨hfree, rfl⟩
    have hid : a.id = attempt := by simpa using find?_some ha
    cases h
    subst hid
    exact .finish hstage (mem_of_find?_eq_some ha) hfree
  | settle =>
    cases hstage : txn.stage with
    | finished attempt state =>
      simp only [run, hstage] at h
      cases hfind : (s.seenUsages x).find? fun u => decide (u.attempt = attempt) && u.active with
      | none =>
        rw [hfind] at h
        cases h
        refine .unsettled hstage ?_
        intro u hu hattempt
        have hnot := find?_eq_none.mp hfind u hu
        simpa [hattempt] using hnot
      | some u =>
        rw [hfind] at h
        rcases Option.bind_eq_some_iff.mp h with ⟨t, ht, h⟩
        rcases free_of_drafted ht with ⟨hfree, rfl⟩
        have hsel := find?_some hfind
        simp only [Bool.and_eq_true, decide_eq_true_eq] at hsel
        cases h
        exact .settle hstage (mem_of_find?_eq_some hfind) hsel.1 hfree
    | _ => simp [run, hstage] at h
  | gate =>
    cases hstage : txn.stage with
    | storm attempt project =>
      simp only [run, hstage] at h
      rcases Option.bind_eq_some_iff.mp h with ⟨p', hp', h⟩
      rcases Option.bind_eq_some_iff.mp h with ⟨t, ht, h⟩
      rcases free_of_drafted ht with ⟨hfree, rfl⟩
      rcases find_gated hp' with ⟨p, hp, rfl, rfl⟩
      cases h
      exact .gate hstage hp (by simpa using hfree)
    | _ => simp [run, hstage] at h
  | report attempt state finishedAt =>
    rcases guard_bind_eq_some.mp h with ⟨hstage, h⟩
    rcases Option.bind_eq_some_iff.mp h with ⟨a, ha, h⟩
    rcases free_of_drafted h with ⟨hfree, rfl⟩
    have hid : a.id = attempt := by simpa using find?_some ha
    subst hid
    exact .report hstage (mem_of_find?_eq_some ha) hfree
  | insertSnapshot a =>
    rcases guard_bind_eq_some.mp h with ⟨⟨hstage, hfresh⟩, h⟩
    rcases free_of_drafted h with ⟨hfree, rfl⟩
    exact .insertSnapshot hstage hfresh hfree
  | letIn kind project readAt others =>
    rcases guard_bind_eq_some.mp h with ⟨⟨hstage, hclock⟩, h⟩
    rcases Option.bind_eq_some_iff.mp h with ⟨p, hp, h⟩
    rcases guard_bind_eq_some.mp h with ⟨⟨-, huntil, -⟩, h⟩
    rcases Option.bind_eq_some_iff.mp h with ⟨t, ht, h⟩
    rcases free_of_drafted ht with ⟨hfree, rfl⟩
    have hproject : p.project = project := by simpa using find?_some hp
    cases h
    subst hproject
    exact .letIn hstage hclock (mem_of_find?_eq_some hp) huntil hfree
  | insertClaim a u =>
    simp only [run] at h
    split at h
    · rename_i project hstage
      rcases guard_bind_eq_some.mp h with ⟨⟨hfresh, hstate, -, hattempt, hof, hproject⟩, h⟩
      rcases Option.bind_eq_some_iff.mp h with ⟨t, ht, h⟩
      rcases free_of_drafted ht with ⟨hfree, rfl⟩
      rcases free_of_drafted h with ⟨hfreeUsage, rfl⟩
      subst hof
      exact .insertClaim hstage hfresh hstate hattempt hproject hfree hfreeUsage
    · cases h
  | replacePolicy project clear =>
    rcases guard_bind_eq_some.mp h with ⟨hstage, h⟩
    rcases Option.bind_eq_some_iff.mp h with ⟨p, hp, h⟩
    rcases Option.bind_eq_some_iff.mp h with ⟨t, ht, h⟩
    rcases free_of_drafted ht with ⟨hfree, rfl⟩
    have hproject : p.project = project := by simpa using find?_some hp
    cases h
    subst hproject
    exact .replacePolicy hstage (mem_of_find?_eq_some hp) hfree
  | commit =>
    rcases guard_bind_eq_some.mp h with ⟨hstage, h⟩
    cases h
    exact .commit hstage
  | abort =>
    cases h
    exact .abort

end PortageEngine.Ledger
