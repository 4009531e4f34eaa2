import PortageEngine.Ledger.System

/-!
# Phase execution contexts

The document that one phase of an attempt leaves for the next one (`phase_execution_contexts`).  The
statement that saves it reads the claim off the item row, without a lock, and then writes; in between
it may have to wait, so the two halves are two steps.  `PhaseSystem` is the ledger with these
documents.
-/

namespace PortageEngine.Ledger

open Library Library.Rows

/-- The virtual machine handed from one phase to the next. -/
structure PhaseInstanceContext where
  id : String
  provider : String
  status : String
  ipAddress : String
  publicIp : String
  privateIp : String
  arch : String
  metadata : List (String × String)
  terraformDir : String
  sshUser : String
  builderEndpoint : String
  createdAt : Time
  ttl : Nat

structure PhaseExecutionContext where
  machine : Option PhaseInstanceContext := none
  workerId : String := ""
  stagingRoot : String := ""
  verificationToken : String := ""
  stagedArtifacts : List String := []
  stagedPrimary : String := ""
  signed : Bool := false
  signingKeyId : String := ""
  artifactPath : String := ""
  artifactUrl : String := ""
  artifactPaths : List String := []
  artifacts : List String := []

/-- A row of `phase_execution_contexts`. -/
structure StoredContext where
  attempt : AttemptId
  project : ProjectId
  job : JobId
  attemptFence : Nat
  sequence : Nat
  context : PhaseExecutionContext
  revision : Nat

/-- Parts of a metadata key that name a secret. -/
def forbiddenMetadata : List String :=
  ["password", "secret", "credential", "private_key", "token", "cert_pem"]

def validatePhaseContext (value : PhaseExecutionContext) : Except LedgerError Unit :=
  match value.machine with
  | none => .ok ()
  | some machine => machine.metadata.forM fun entry =>
    require (!(forbiddenMetadata.any fun text => text.toList <:+: entry.1.toLower.toList))
      (.refused s!"phase execution context rejects secret-like metadata key {entry.1}")

/-- The item a context may be saved under: claimed with this fence, under a live attempt. -/
def contextItem? (l : Ledger) (claim : PhaseClaim) (now : Time) : Option PhaseItem :=
  l.items.find? fun i => claimsItem claim i && i.leaseLive now &&
    (l.attempts.any fun a => a.id = i.attempt && a.fence = claim.attemptFence) &&
    (l.leases.any fun x => x.attempt = i.attempt && x.fence = claim.attemptFence &&
      now < x.expiresAt)

/-- A save between its two halves: what the `SELECT` of the statement has read, and what it is
called with. -/
structure PendingSave where
  claim : PhaseClaim
  attempt : AttemptId
  project : ProjectId
  job : JobId
  sequence : Nat
  value : PhaseExecutionContext

/-- The first half of `SavePhaseExecutionContext`: the checks and the `SELECT`, which locks no row. -/
def readContextItem (l : Ledger) (claim : PhaseClaim) (value : PhaseExecutionContext) (now : Time) :
    Except LedgerError PendingSave := do
  validatePhaseContext value
  let i ← found (contextItem? l claim now) "phase execution context fence is stale or expired"
  return {
    claim := claim, attempt := i.attempt, project := i.project, job := i.job
    sequence := i.sequence, value := value }

/-- The second half: the `INSERT`.  Its conflict branch looks at the document and no longer at the
item. -/
def writeContextRow (contexts : List StoredContext) (p : PendingSave) :
    Except LedgerError (List StoredContext) := do
  if contexts.any fun c => c.attempt = p.attempt then
    -- a document of the attempt under another job or fence is left alone
    require (contexts.any fun c => c.attempt = p.attempt && c.job = p.job &&
        c.attemptFence = p.claim.attemptFence)
      (.refused "phase execution context fence is stale or expired")
    return update (fun c => c.attempt = p.attempt && c.job = p.job &&
        c.attemptFence = p.claim.attemptFence)
      (fun c => { c with
        sequence := max c.sequence p.sequence, context := p.value, revision := c.revision + 1 })
      contexts
  return {
    attempt := p.attempt, project := p.project, job := p.job, attemptFence := p.claim.attemptFence
    sequence := p.sequence, context := p.value, revision := 1 } :: contexts

/-- `LoadPhaseExecutionContext`: an attempt without a document starts with an empty one. -/
def loadPhaseExecutionContext (l : Ledger) (contexts : List StoredContext) (claim : PhaseClaim)
    (now : Time) : Except LedgerError PhaseExecutionContext := do
  let i ← found (l.items.find? fun i => claimsItem claim i && i.leaseLive now &&
    i.attempt = claim.attempt) "phase execution context fence is stale or expired"
  return match contexts.find? fun c => c.attempt = i.attempt with
    | none => {}
    | some c => c.context

variable {claim : PhaseClaim} {value : PhaseExecutionContext} {p : PendingSave}

/-- A save gets past its `SELECT` only while the item records its claim. -/
theorem readContextItem_ok {l : Ledger} {now : Time}
    (h : readContextItem l claim value now = .ok p) :
    p.claim = claim ∧ ∃ i ∈ l.items, claimsItem claim i = true := by
  replace h := passed h
  rcases bind_eq_ok.mp h with ⟨i, hi, h⟩
  have hfind := found_eq_ok.mp hi
  have hsome := List.find?_some hfind
  simp only [Bool.and_eq_true] at hsome
  cases h
  exact ⟨rfl, i, List.mem_of_find?_eq_some hfind, hsome.1.1.1⟩

/-! ## The system with its contexts -/

/-- The ledger with the phase claims handed out, the contexts, and the saves under way. -/
structure PhaseSystem where
  system : System
  contexts : List StoredContext
  saving : List PendingSave

def PhaseSystem.init (policies : List Policy) : PhaseSystem where
  system := System.init policies
  contexts := []
  saving := []

/-- A ledger transaction, or one half of the saving of a context. -/
inductive PhaseOp
  | ledger (op : Op)
  | readContext (claim : PhaseClaim) (value : PhaseExecutionContext) (now : Time)
  | writeContext (k : Nat)

/-- The claim under which an operation is made. -/
def PhaseOp.presents (s : PhaseSystem) : PhaseOp → Option PhaseClaim
  | .ledger op => op.presents
  | .readContext claim _ _ => some claim
  | .writeContext k => s.saving[k]?.map PendingSave.claim

def PhaseOp.isWrite : PhaseOp → Bool
  | .writeContext _ => true
  | _ => false

/-- One step: as before, only a claim that was handed out can be presented. -/
def stepPhase (s : PhaseSystem) : PhaseOp → PhaseSystem
  | .ledger op => { s with system := step s.system op }
  | .readContext claim value now =>
    if s.system.issued.contains claim then
      match readContextItem s.system.ledger claim value now with
      | .ok p => { s with saving := p :: s.saving }
      | .error _ => s
    else s
  | .writeContext k =>
    match s.saving[k]? with
    | some p => { s with
        contexts := (writeContextRow s.contexts p).toOption.getD s.contexts
        saving := s.saving.eraseIdx k }
    | none => s

variable {s : PhaseSystem} {now : Time}

theorem stepPhase_readContext :
    stepPhase s (.readContext claim value now) = s ∨ ∃ p,
      readContextItem s.system.ledger claim value now = .ok p ∧
      stepPhase s (.readContext claim value now) = { s with saving := p :: s.saving } := by
  unfold stepPhase
  by_cases hissued : s.system.issued.contains claim = true
  · simp only [hissued, if_true]
    cases hread : readContextItem s.system.ledger claim value now with
    | ok p => exact .inr ⟨p, rfl, rfl⟩
    | error e => exact .inl rfl
  · simp only [hissued, Bool.false_eq_true, if_false]
    exact .inl trivial

theorem stepPhase_writeContext {k : Nat} :
    stepPhase s (.writeContext k) = s ∨ ∃ p contexts, s.saving[k]? = some p ∧
      stepPhase s (.writeContext k) =
        { s with contexts := contexts, saving := s.saving.eraseIdx k } := by
  cases hget : s.saving[k]? with
  | none => exact .inl (by simp only [stepPhase, hget])
  | some p =>
    exact .inr ⟨p, (writeContextRow s.contexts p).toOption.getD s.contexts, rfl,
      by simp only [stepPhase, hget]⟩

end PortageEngine.Ledger
