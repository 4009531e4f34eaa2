import PortageEngine.Ledger.Cleanup
import PortageEngine.Library.Utf8
import PortageEngine.Signing.QueueSafety

/-!
# Failure and log texts on their way into the database

Error and log texts are arbitrary bytes: output of compilers, of Terraform and of GPG.  The calls that
record them (`FailPhaseWorkAndJob`, `FailSigning`, `FailInfraCleanup` and `AppendLogs` of
`internal/persistence`) cut them at a number of bytes and send them as they are.  PostgreSQL keeps a
text only if it is well-formed UTF-8 without NUL, and a JSON document only if none of its strings
contains NUL; otherwise the statement fails, and with it the transaction.

`recorded_iff_fits` says for which texts the report of an entitled caller is recorded: those whose
kept part consists of whole characters other than NUL.  A character that the cut splits, a NUL or an
ill-formed byte keeps a failed job, task or machine from being recorded as such.
-/

namespace PortageEngine.Reports

open List Library Library.Rows Library.Utf8
open Ledger
open Signing (Task SigningTask)

/-! ## Sending texts -/

/-- A value of type `text`. -/
def sendText (statement : String) (b : Bytes) : Except LedgerError String :=
  found (decodeText b) (statement ++ ": invalid byte sequence for encoding \"UTF8\"")

/-- A JSON document with the value in it.  The encoder replaces ill-formed bytes and writes NUL as an
escape that `jsonb` refuses. -/
def sendJson (statement : String) (b : Bytes) : Except LedgerError Unit :=
  require (!b.contains 0) (.refused (statement ++ ": unsupported Unicode escape sequence"))

/-- `detail[:n]`, if it is longer. -/
def cut (n : Nat) (b : Bytes) : Bytes :=
  if n < b.length then b.take n else b

/-! ## Blanks -/

/-- `unicode.IsSpace`. -/
def spaceChars : List Char :=
  [9, 10, 11, 12, 13, 32, 0x85, 0xA0, 0x1680, 0x2000, 0x2001, 0x2002, 0x2003, 0x2004, 0x2005, 0x2006,
    0x2007, 0x2008, 0x2009, 0x200A, 0x2028, 0x2029, 0x202F, 0x205F, 0x3000].map Char.ofNat

/-- Drop any of the given words as often as one of them stands in front; `fuel` is the number of bytes
at most. -/
def dropWords (words : List Bytes) : Nat → Bytes → Bytes
  | 0, b => b
  | fuel + 1, b =>
    match words.find? fun w => w.isPrefixOf b with
    | none => b
    | some w => dropWords words fuel (b.drop w.length)

/-- `strings.TrimSpace`: ill-formed bytes are no blanks. -/
def trimSpace (b : Bytes) : Bytes :=
  let words := spaceChars.map String.utf8EncodeChar
  let front := dropWords words b.length b
  (dropWords (words.map List.reverse) front.length front.reverse).reverse

/-! ## Failures -/

/-- The detail that `FailPhaseWorkAndJob` cuts. -/
def phaseDetail (detail : Bytes) : Bytes :=
  if trimSpace detail = [] then encode "phase execution failed".toList else trimSpace detail

def failPhaseWorkAndJob (l : Ledger) (claim : PhaseClaim) (previous : BuildStatus) (detail : Bytes)
    (now at_ : Time) : Except LedgerError Ledger := do
  let detail := cut maxLedgerErrorBytes (phaseDetail detail)
  Ledger.lockTerminalPhaseClaim l claim now
  let j ← found (l.job? claim.job) "lock failed phase job"
  Ledger.checkExpectedState j (some previous)
  let text ← sendText "fail active phase" detail
  let failed := { previous.toStoredStatus with
    status := .failed, error := text, failedStage := claim.phase.text, updatedAt := at_ }
  let items := update (fun i => i.id = claim.id) (Ledger.closeItem .failed text) l.items
  let l ← Ledger.finishPhaseAttempt
    { l with items := Ledger.cancelDependants claim.attempt claim.sequence items } claim failed text at_
  sendJson "finish phase job" detail
  sendJson "insert job event" detail
  return l

/-- The bound of the details of signing tasks and machines. -/
def maxDetailBytes : Nat := 4096

def failSigning (tasks : List SigningTask) (task : Task) (detail : Bytes) (now : Time) :
    Except LedgerError (List SigningTask) := do
  require (task.owner ≠ "" && 0 < task.claimFence)
    (.refused "fail signing requires task, owner, and fence")
  let text ← sendText "fail signing task" (cut maxDetailBytes detail)
  match Signing.failSigning tasks task text now with
  | .ok tasks => return tasks
  | .error e => throw (.refused e)

def failInfraCleanup (instances : List InfraInstance) (id : InstanceId) (owner : String) (fence : Nat)
    (detail : Bytes) (now : Time) : Except LedgerError (List InfraInstance) := do
  let text ← sendText "fail infrastructure cleanup" (cut maxDetailBytes detail)
  Ledger.failInfraCleanup instances id owner fence text now

/-! ## Logs -/

structure LogRecord where
  message : Bytes
  occurredAt : Time

/-- `build_log_chunks`. -/
structure LogChunk where
  job : JobId
  attempt : Option AttemptId
  message : String
  occurredAt : Time

def maxLogChunkBytes : Nat := 16 * 1024

def truncationMark : List Char := "[... truncated ...]".toList

def cutLog (message : Bytes) : Bytes :=
  if maxLogChunkBytes < message.length then
    message.take (maxLogChunkBytes - (encode truncationMark).length) ++ encode truncationMark
  else message

def keptLog (message : Bytes) : Nat :=
  if maxLogChunkBytes < message.length then maxLogChunkBytes - (encode truncationMark).length
  else maxLogChunkBytes

/-- The attempt that logs belong to: that of the fence, or none while the job is queued. -/
def logOwner (l : Ledger) (status : BuildStatus) (now : Time) :
    Except LedgerError (Option AttemptId) :=
  match status.attemptId with
  | some _ => some <$> Ledger.validateMetadataFence l status true now
  | none => do
    let j ← found (l.jobs.find? fun j => j.id = status.jobId && j.visible)
      "validate queued log ownership"
    require (j.state = .queued)
      (.refused s!"job {status.jobId} has no durable attempt for log state {j.state.text}")
    return none

/-- One `INSERT`; the table checks the length of the message. -/
def insertLog (job : JobId) (attempt : Option AttemptId) (r : LogRecord) :
    Except LedgerError LogChunk := do
  let text ← sendText "append durable build log" (cutLog r.message)
  require ((cutLog r.message).length ≤ 16384)
    (.refused "append durable build log: new row violates check constraint")
  return ⟨job, attempt, text, r.occurredAt⟩

def appendLogs (l : Ledger) (logs : List LogChunk) (status : BuildStatus) (records : List LogRecord)
    (now : Time) : Except LedgerError (List LogChunk) := do
  if records = [] then return logs
  else
    let attempt ← logOwner l status now
    let chunks ← records.mapM (insertLog status.jobId attempt)
    return logs ++ chunks

/-! ## Reports -/

structure Store where
  ledger : Ledger
  tasks : List SigningTask
  instances : List InfraInstance
  logs : List LogChunk

inductive Report
  | phase (claim : PhaseClaim) (previous : BuildStatus) (detail : Bytes) (at_ : Time)
  | signing (task : Task) (detail : Bytes)
  | cleanup (id : InstanceId) (owner : String) (fence : Nat) (detail : Bytes)
  | logs (status : BuildStatus) (records : List LogRecord)

def Report.run (s : Store) (now : Time) : Report → Except LedgerError Store
  | .phase claim previous detail at_ =>
    ({ s with ledger := · }) <$> failPhaseWorkAndJob s.ledger claim previous detail now at_
  | .signing task detail => ({ s with tasks := · }) <$> failSigning s.tasks task detail now
  | .cleanup id owner fence detail =>
    ({ s with instances := · }) <$> failInfraCleanup s.instances id owner fence detail now
  | .logs status records => ({ s with logs := · }) <$> appendLogs s.ledger s.logs status records now

/-- The caller is the rightful owner: it holds the phase claim of the job, the claim of the task or of
the cleanup, or the attempt of the logs. -/
def Report.owned (s : Store) (now : Time) : Report → Bool
  | .phase claim previous _ _ =>
    (Ledger.lockTerminalPhaseClaim s.ledger claim now).isOk &&
      (s.ledger.job? claim.job).any (fun j => j.state = previous.status) &&
      s.ledger.attempts.any fun a =>
        a.id = claim.attempt && a.job = claim.job && a.fence = claim.attemptFence
  | .signing task _ => task.owner ≠ "" && 0 < task.claimFence && s.tasks.any (Signing.holdsTask task now)
  | .cleanup id owner fence _ => s.instances.any (Ledger.holdsCleanup id owner fence now)
  | .logs status _ => (logOwner s.ledger status now).isOk

/-- The values that are sent, and the bound of each. -/
def Report.sent : Report → List (Bytes × Nat)
  | .phase _ _ detail _ => [(cut maxLedgerErrorBytes (phaseDetail detail), maxLedgerErrorBytes)]
  | .signing _ detail | .cleanup _ _ _ detail => [(cut maxDetailBytes detail, maxDetailBytes)]
  | .logs _ records => records.map fun r => (cutLog r.message, maxLogChunkBytes)

/-- The texts of the report, each with the number of bytes of it that are kept. -/
def Report.texts : Report → List (Bytes × Nat)
  | .phase _ _ detail _ => [(phaseDetail detail, maxLedgerErrorBytes)]
  | .signing _ detail | .cleanup _ _ _ detail => [(detail, maxDetailBytes)]
  | .logs _ records => records.map fun r => (r.message, keptLog r.message)

/-! ## Which values are accepted -/

def Commits {α : Type} (x : Except LedgerError α) : Prop :=
  ∃ a, x = .ok a

variable {α β : Type} {l : Ledger} {detail : Bytes} {job : JobId} {attempt : Option AttemptId}
  {records : List LogRecord} {x : Except LedgerError α}

theorem commits_bind {f : α → Except LedgerError β} :
    Commits (x >>= f) ↔ ∃ a, x = .ok a ∧ Commits (f a) := by
  simp only [Commits, bind_eq_ok]
  constructor
  · rintro ⟨b, a, hx, hf⟩
    exact ⟨a, hx, b, hf⟩
  · rintro ⟨a, hx, b, hf⟩
    exact ⟨b, a, hx, hf⟩

theorem commits_map {f : α → β} :
    Commits (f <$> x) ↔ Commits x := by
  simp [Commits, map_eq_ok]

variable {b : Bytes} {n : Nat}

theorem cut_eq_take : cut n b = b.take n := by
  unfold cut
  by_cases h : n < b.length
  · rw [if_pos h]
  · rw [if_neg h, take_of_length_le (by omega)]

variable {statement : String} {message : Bytes}

theorem sendText_accepts :
    Commits (sendText statement b) ↔ (decodeText b).isSome = true := by
  simp only [Commits, sendText, Ledger.found_eq_ok, Option.isSome_iff_exists]

theorem sendText_cut :
    Commits (sendText statement (cut n b)) ↔ Fits n b := by
  rw [sendText_accepts, cut_eq_take, isSome_decodeText_take]

theorem sendJson_of_text (h : (decodeText b).isSome = true) :
    sendJson statement b = .ok () := by
  rcases isSome_decodeText.mp h with ⟨chars, rfl, hnul⟩
  have hzero : (0 : UInt8) ∉ encode chars := fun hmem => hnul (zero_mem_encode.mp hmem)
  exact require_eq_ok.mpr (by simpa using hzero)

theorem truncationMark_length : (encode truncationMark).length = 19 := by
  decide

theorem cutLog_length : (cutLog message).length ≤ maxLogChunkBytes := by
  unfold cutLog
  by_cases h : maxLogChunkBytes < message.length
  · rw [if_pos h, length_append, length_take, truncationMark_length]
    unfold maxLogChunkBytes
    omega
  · rw [if_neg h]
    omega

theorem decode_cutLog :
    (decodeText (cutLog message)).isSome = true ↔ Fits (keptLog message) message := by
  unfold cutLog keptLog
  by_cases h : maxLogChunkBytes < message.length
  · rw [if_pos h, if_pos h]
    exact isSome_decodeText_take_append (by decide)
  · rw [if_neg h, if_neg h, ← isSome_decodeText_take, take_of_length_le (by omega)]

/-! ## Which reports are recorded -/

theorem failPhaseWorkAndJob_recorded {claim : PhaseClaim} {previous : BuildStatus} {at_ : Time}
    (hlock : Ledger.lockTerminalPhaseClaim l claim now = .ok ()) {j : Ledger.Job}
    (hj : l.job? claim.job = some j) (hstate : j.state = previous.status)
    (hattempt : (l.attempts.any fun a =>
      a.id = claim.attempt && a.job = claim.job && a.fence = claim.attemptFence) = true) :
    Commits (failPhaseWorkAndJob l claim previous detail now at_) ↔
      Fits maxLedgerErrorBytes (phaseDetail detail) := by
  have hexpected : Ledger.checkExpectedState j (some previous) = .ok () :=
    require_eq_ok.mpr (decide_eq_true hstate)
  rw [← sendText_cut]
  constructor
  · intro h
    rcases commits_bind.mp h with ⟨_, _, h⟩
    rcases commits_bind.mp h with ⟨_, _, h⟩
    rcases commits_bind.mp h with ⟨_, _, h⟩
    rcases commits_bind.mp h with ⟨text, htext, _⟩
    exact ⟨text, htext⟩
  · rintro ⟨text, htext⟩
    have haccepted := (sendText_accepts).mp ⟨text, htext⟩
    refine commits_bind.mpr ⟨(), hlock, commits_bind.mpr ⟨j, Ledger.found_eq_ok.mpr hj, ?_⟩⟩
    refine commits_bind.mpr ⟨(), hexpected, commits_bind.mpr ⟨text, htext, ?_⟩⟩
    refine commits_bind.mpr ⟨_, require_bind_eq_ok.mpr ⟨hattempt, rfl⟩, ?_⟩
    refine commits_bind.mpr ⟨(), sendJson_of_text haccepted, ?_⟩
    exact commits_bind.mpr ⟨(), sendJson_of_text haccepted, _, rfl⟩

theorem failSigning_recorded {tasks : List SigningTask} {task : Task}
    (howner : (task.owner ≠ "" && 0 < task.claimFence) = true)
    (hheld : tasks.any (Signing.holdsTask task now) = true) :
    Commits (failSigning tasks task detail now) ↔ Fits maxDetailBytes detail := by
  rw [← sendText_cut]
  constructor
  · intro h
    rcases commits_bind.mp h with ⟨_, _, h⟩
    rcases commits_bind.mp h with ⟨text, htext, _⟩
    exact ⟨text, htext⟩
  · rintro ⟨text, htext⟩
    have hfail : Signing.failSigning tasks task text now = .ok (update (Signing.holdsTask task now)
        (fun t => { t with
          state := .failed, errorDetail := text, owner := "", leaseExpiresAt := none }) tasks) :=
      require_bind_eq_ok.mpr ⟨howner, require_bind_eq_ok.mpr ⟨hheld, rfl⟩⟩
    refine commits_bind.mpr ⟨(), require_eq_ok.mpr howner, commits_bind.mpr ⟨text, htext, ?_⟩⟩
    rw [hfail]
    exact ⟨_, rfl⟩

theorem failInfraCleanup_recorded {instances : List InfraInstance} {id : InstanceId}
    {owner : String} {fence : Nat}
    (hheld : instances.any (Ledger.holdsCleanup id owner fence now) = true) :
    Commits (failInfraCleanup instances id owner fence detail now) ↔
      Fits maxDetailBytes detail := by
  rw [← sendText_cut]
  constructor
  · intro h
    rcases commits_bind.mp h with ⟨text, htext, _⟩
    exact ⟨text, htext⟩
  · rintro ⟨text, htext⟩
    exact commits_bind.mpr ⟨text, htext, _, require_bind_eq_ok.mpr ⟨hheld, rfl⟩⟩

theorem insertLog_recorded {r : LogRecord} :
    Commits (insertLog job attempt r) ↔ Fits (keptLog r.message) r.message := by
  rw [← decode_cutLog, ← sendText_accepts]
  constructor
  · intro h
    rcases commits_bind.mp h with ⟨text, htext, _⟩
    exact ⟨text, htext⟩
  · rintro ⟨text, htext⟩
    have hlength : decide ((cutLog r.message).length ≤ 16384) = true :=
      decide_eq_true (cutLog_length)
    exact commits_bind.mpr ⟨text, htext, _, require_bind_eq_ok.mpr ⟨hlength, rfl⟩⟩

theorem insertLogs_recorded :
    Commits (records.mapM (insertLog job attempt)) ↔
      ∀ r ∈ records, Fits (keptLog r.message) r.message := by
  induction records with
  | nil => simp [Commits]
  | cons r records ih =>
    have hrow : Commits (insertLog job attempt r) ↔ Fits (keptLog r.message) r.message :=
      insertLog_recorded
    rw [forall_mem_cons, ← hrow, ← ih, mapM_cons, commits_bind]
    constructor
    · rintro ⟨chunk, hchunk, h⟩
      rcases commits_bind.mp h with ⟨rest, hrest, _⟩
      exact ⟨⟨chunk, hchunk⟩, rest, hrest⟩
    · rintro ⟨⟨chunk, hchunk⟩, rest, hrest⟩
      exact ⟨chunk, hchunk, commits_bind.mpr ⟨rest, hrest, _, rfl⟩⟩

theorem appendLogs_recorded {logs : List LogChunk} {status : BuildStatus}
    (howner : logOwner l status now = .ok attempt) :
    Commits (appendLogs l logs status records now) ↔
      ∀ r ∈ records, Fits (keptLog r.message) r.message := by
  unfold appendLogs
  by_cases hempty : records = []
  · rw [hempty]
    simp [Commits]
  rw [if_neg hempty, commits_bind]
  constructor
  · rintro ⟨_, _, h⟩
    rcases commits_bind.mp h with ⟨chunks, hchunks, _⟩
    exact insertLogs_recorded.mp ⟨chunks, hchunks⟩
  · intro hfits
    have hrows : Commits (records.mapM (insertLog status.jobId attempt)) :=
      insertLogs_recorded.mpr hfits
    rcases hrows with ⟨chunks, hchunks⟩
    exact ⟨attempt, howner, commits_bind.mpr ⟨chunks, hchunks, _, rfl⟩⟩

/-! ## The theorem -/

variable {s : Store} {now : Time} {r : Report}

theorem sent_within_bound {value : Bytes} {bound : Nat} (h : (value, bound) ∈ r.sent) :
    value.length ≤ bound := by
  have hcut : ∀ (n : Nat) (b : Bytes), (cut n b).length ≤ n := by
    intro n b
    rw [cut_eq_take, length_take]
    exact Nat.min_le_left _ _
  cases r with
  | phase claim previous detail at_ | signing task detail | cleanup id owner fence detail =>
    cases mem_singleton.mp h
    exact hcut _ _
  | logs status records =>
    rcases mem_map.mp h with ⟨record, _, heq⟩
    cases heq
    exact cutLog_length

theorem isOk_iff : x.isOk = true ↔ ∃ a, x = .ok a := by
  cases x <;> simp [Except.isOk, Except.toBool]

/-- The report of a rightful owner sends values within their bounds, and is recorded exactly if the
part that is kept of each of its texts consists of whole characters other than NUL. -/
theorem recorded_iff_fits (s : Store) (now : Time) (r : Report) (howner : r.owned s now = true) :
    (∀ value bound, (value, bound) ∈ r.sent → value.length ≤ bound) ∧
      (Commits (r.run s now) ↔ ∀ text kept, (text, kept) ∈ r.texts → Fits kept text) := by
  refine ⟨fun _ _ h => sent_within_bound h, ?_⟩
  cases r with
  | phase claim previous detail at_ =>
    simp only [Report.owned, Bool.and_eq_true, isOk_iff] at howner
    rcases howner with ⟨⟨⟨⟨⟩, hlock⟩, hjob⟩, hattempt⟩
    cases hj : s.ledger.job? claim.job with
    | none => simp [hj] at hjob
    | some j =>
      have hstate : j.state = previous.status := by simpa [hj] using hjob
      rw [Report.run, commits_map, failPhaseWorkAndJob_recorded hlock hj hstate hattempt]
      simp [Report.texts]
  | signing task detail =>
    simp only [Report.owned, Bool.and_eq_true] at howner
    rw [Report.run, commits_map, failSigning_recorded (by simpa using howner.1) howner.2]
    simp [Report.texts]
  | cleanup id owner fence detail =>
    rw [Report.run, commits_map, failInfraCleanup_recorded howner]
    simp [Report.texts]
  | logs status records =>
    rcases isOk_iff.mp howner with ⟨attempt, hattempt⟩
    rw [Report.run, commits_map, appendLogs_recorded hattempt]
    simp only [Report.texts, mem_map, Prod.mk.injEq]
    constructor
    · rintro h text kept ⟨record, hrecord, rfl, rfl⟩
      exact h record hrecord
    · intro h record hrecord
      exact h _ _ ⟨record, hrecord, rfl, rfl⟩

/-! ## A signer that cannot report its failure -/

/-- The queue after a signer has claimed its task. -/
def signingStore : Store :=
  let reached := Runs.run Signing.stepSigning (Signing.SigningSystem.init [Ledger.examplePolicy])
    Signing.signingRun
  { ledger := reached.ledger.ledger, tasks := reached.tasks, instances := [], logs := [] }

def signerTask : Task where
  id := 50
  job := 1
  attempt := 7
  attemptFence := 1
  state := .claimed
  sourceToken := Signing.exampleRequest.sourceToken
  architecture := "amd64"
  maxOutputBytes := 1000
  artifacts := [Signing.exampleArtifact]
  signingKeyId := ""
  owner := "signer-1"
  claimFence := 1
  leaseExpiresAt := some 35000000
  error := ""

theorem signerTask_owned (detail : Bytes) :
    (Report.signing signerTask detail).owned signingStore 6000000 = true := by
  change (decide (signerTask.owner ≠ "") && decide (0 < signerTask.claimFence) &&
    signingStore.tasks.any (Signing.holdsTask signerTask 6000000)) = true
  decide +kernel

theorem fits_of_short {chars : List Char} (hnul : '\x00' ∉ chars) (h : (encode chars).length ≤ n) :
    Fits n (encode chars) :=
  ⟨chars, [], by simp, hnul, (Nat.min_eq_right h).symm⟩

theorem signer_reports_failure :
    (Report.signing signerTask (encode "gpg: signing failed".toList)).owned signingStore 6000000 = true ∧
      Commits ((Report.signing signerTask (encode "gpg: signing failed".toList)).run signingStore
        6000000) := by
  refine ⟨signerTask_owned _, (recorded_iff_fits _ _ _ (signerTask_owned _)).2.mpr ?_⟩
  intro text kept h
  cases mem_singleton.mp h
  exact fits_of_short (by decide) (by decide)

/-- The first text has a character across the bound, the second one a NUL. -/
theorem signer_cannot_report_failure :
    (∀ detail, (Report.signing signerTask detail).owned signingStore 6000000 = true) ∧
      ¬ Commits ((Report.signing signerTask
        (encode (List.replicate 4095 'a' ++ ['é']))).run signingStore 6000000) ∧
      ¬ Commits ((Report.signing signerTask [0]).run signingStore 6000000) := by
  have hiff : ∀ detail, Commits ((Report.signing signerTask detail).run signingStore 6000000) ↔
      Fits maxDetailBytes detail := by
    intro detail
    have howned := signerTask_owned detail
    simp only [Report.owned, Bool.and_eq_true] at howned
    rw [Report.run, commits_map, failSigning_recorded (by simpa using howned.1) howned.2]
  refine ⟨signerTask_owned, ?_, ?_⟩
  · rw [hiff]
    have hlength : (encode (List.replicate 4095 'a')).length = 4095 := by
      have hone : (String.utf8EncodeChar 'a').length = 1 := by decide
      rw [length_encode_replicate, hone]
    have htwo : (String.utf8EncodeChar 'é').length = 2 := by decide
    exact not_fits_of_split (by rw [hlength]; decide) (by rw [hlength]; decide)
  · rw [hiff, ← isSome_decodeText_take]
    simp [decodeText, maxDetailBytes]

end PortageEngine.Reports
