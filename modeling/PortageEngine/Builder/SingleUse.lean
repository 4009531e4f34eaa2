import PortageEngine.Library.Runs

/-!
# Single-use native builders

`SubmitBuild` consumes a native builder before it queues a job: `reserveNativeLifetime` creates a
marker file exclusively and sets `nativeConsumed`; a full queue rolls both back.  The marker
outlives the process, and `nativeReuseState` reads it when the next one starts.

Submissions of one process exclude each other (`executionMu`), so a submission is one program over
the marker and the memory of the process.  Its system calls end as a script says, and it stops
where the script ends: the process has crashed there.
-/

namespace PortageEngine.Builder

open Library Runs

/-- How a system call ends.  A call that fails may have had its effect. -/
inductive Outcome where
  | ok
  | fault (effect : Bool)

structure BuildJob (ρ : Type) where
  id : String
  request : Option ρ

structure LocalBuilder (ρ : Type) where
  nativeConsumed : Bool
  nativeJobID : String
  jobs : List (BuildJob ρ)
  jobQueue : List (BuildJob ρ)

/-- `native-builder-tainted.json`: the job it names, once its record has been written. -/
abbrev Marker := Option (Option String)

/-- What a submission works on; `accepted` records the jobs that were queued. -/
structure Session (ρ : Type) where
  marker : Marker
  builder : LocalBuilder ρ
  accepted : List (BuildJob ρ)
  script : List Outcome

inductive SubmitError where
  | invalidRequest
  | executionReused
  | draining
  | createDirectory
  | createMarker
  | writeMarker
  | queueFull

inductive Halt where
  | failed (error : SubmitError)
  | crashed

abbrev Act (ρ α : Type) := ExceptT Halt (StateM (Session ρ)) α

variable {ρ : Type}

def outcome : Act ρ Outcome := do
  match (← get).script with
  | [] => throw .crashed
  | o :: script =>
    modify fun s => { s with script := script }
    pure o

def fail {α : Type} (error : SubmitError) : Act ρ α := throw (.failed error)

def setBuilder (f : LocalBuilder ρ → LocalBuilder ρ) : Act ρ Unit :=
  modify fun s => { s with builder := f s.builder }

/-- The writes to the new marker: `Write`, `Sync` and `Close`. -/
def writeMarker (jobID : String) : Act ρ Unit := do
  match ← outcome with
  | .fault effect =>
    if effect then modify fun s => { s with marker := some (some jobID) }
    fail .writeMarker
  | .ok => modify fun s => { s with marker := some (some jobID) }
  match ← outcome with
  | .fault _ => fail .writeMarker
  | .ok => pure ()
  match ← outcome with
  | .fault _ => fail .writeMarker
  | .ok => pure ()

def reserveNativeLifetime (jobID : String) : Act ρ Unit := do
  if (← get).builder.nativeConsumed then fail .draining
  match ← outcome with
  | .fault _ => fail .createDirectory
  | .ok => pure ()
  let opened ← outcome
  match (← get).marker, opened with
  | some _, .ok =>
    -- `O_EXCL`: somebody was here before
    setBuilder fun lb => { lb with nativeConsumed := true }
    fail .draining
  | some _, .fault _ => fail .createMarker
  | none, .fault effect =>
    if effect then modify fun s => { s with marker := some none }
    fail .createMarker
  | none, .ok =>
    modify fun s => { s with marker := some none }
    setBuilder fun lb => { lb with nativeConsumed := true, nativeJobID := jobID }
    writeMarker jobID

def releaseNativeLifetime (jobID : String) : Act ρ Unit := do
  let lb := (← get).builder
  if lb.nativeConsumed && lb.nativeJobID == jobID then
    match ← outcome with
    | .fault effect => if effect then modify fun s => { s with marker := none }
    | .ok =>
      modify fun s => { s with marker := none }
      setBuilder fun lb => { lb with nativeConsumed := false, nativeJobID := "" }

/-- The non-blocking send.  How full the queue is depends on the workers. -/
def enqueue (job : BuildJob ρ) : Act ρ String := do
  setBuilder fun lb => { lb with jobs := job :: lb.jobs.filter (·.id ≠ job.id) }
  match ← outcome with
  | .ok =>
    setBuilder fun lb => { lb with jobQueue := lb.jobQueue ++ [job] }
    modify fun s => { s with accepted := job :: s.accepted }
    pure job.id
  | .fault _ =>
    setBuilder fun lb => { lb with jobs := lb.jobs.filter (·.id ≠ job.id) }
    releaseNativeLifetime job.id
    fail .queueFull

/-! ## The builder over its lifetimes -/

/-- One data directory, the process that serves it, and the jobs that have been accepted and
started on it. -/
structure Host (ρ : Type) where
  marker : Marker
  process : Option (LocalBuilder ρ)
  accepted : List (BuildJob ρ)
  started : List (BuildJob ρ)

/-- A data directory before its first process. -/
def Host.unused (marker : Marker) : Host ρ :=
  { marker := marker, process := none, accepted := [], started := [] }

def Host.queue (h : Host ρ) : List (BuildJob ρ) :=
  h.process.elim [] (·.jobQueue)

/-- What `nativeReuseState` makes of the marker; the jobs of the store are not queued again. -/
def nativeReuseState (marker : Marker) (read : Outcome) (stored : List (BuildJob ρ)) :
    LocalBuilder ρ :=
  match marker, read with
  | none, .ok => { nativeConsumed := false, nativeJobID := "", jobs := stored, jobQueue := [] }
  | some record, .ok =>
    { nativeConsumed := true, nativeJobID := record.getD "", jobs := stored, jobQueue := [] }
  | _, .fault _ => { nativeConsumed := true, nativeJobID := "", jobs := stored, jobQueue := [] }

inductive Event (ρ : Type) where
  | submit (req : ρ) (jobID : String) (script : List Outcome)
  | work
  | crash
  | restart (read : Outcome) (stored : List (BuildJob ρ))

/-! ## What a reservation does -/

/-- Nothing was queued, and a marker that was there is there. -/
structure Refused (s s' : Session ρ) : Prop where
  marker : s.marker ≠ none → s'.marker = s.marker
  accepted : s'.accepted = s.accepted
  queue : s'.builder.jobQueue = s.builder.jobQueue

structure Reserved (s s' : Session ρ) : Prop where
  fresh : s.marker = none
  marker : s'.marker ≠ none
  accepted : s'.accepted = s.accepted
  queue : s'.builder.jobQueue = s.builder.jobQueue

/-- The marker was created, and a job was queued. -/
structure Queued (s s' : Session ρ) : Prop where
  fresh : s.marker = none
  marker : s'.marker ≠ none
  job : ∃ job, s'.accepted = job :: s.accepted ∧
    s'.builder.jobQueue = s.builder.jobQueue ++ [job]

open Std.Do

set_option mvcgen.warning false

theorem reserveNativeLifetime_spec {id : String} {s₀ : Session ρ} :
    ⦃fun s => ⌜s = s₀⌝⦄ reserveNativeLifetime id
    ⦃post⟨fun _ s => ⌜Reserved s₀ s⌝, fun _ s => ⌜Refused s₀ s⌝⟩⦄ := by
  mvcgen [reserveNativeLifetime, writeMarker, outcome, fail, setBuilder]
  all_goals grind [Refused, Reserved]

theorem enqueue_spec {job : BuildJob ρ} {s₀ s₁ : Session ρ} (hs : Reserved s₀ s₁) :
    ⦃fun s => ⌜s = s₁⌝⦄ enqueue job
    ⦃post⟨fun _ s => ⌜Queued s₀ s⌝, fun _ s => ⌜Refused s₀ s⌝⟩⦄ := by
  mvcgen [enqueue, releaseNativeLifetime, outcome, fail, setBuilder]
  all_goals grind [Refused, Reserved, Queued]

/-! ## The invariant -/

/-- A job that has been accepted left the marker behind, and there is at most one; what has been
started or waits was accepted. -/
structure Inv (h : Host ρ) : Prop where
  marked : h.accepted ≠ [] → h.marker ≠ none
  once : h.accepted.length ≤ 1
  ran : (h.started ++ h.queue).Subperm h.accepted

theorem Inv.unused (marker : Marker) : Inv (Host.unused marker : Host ρ) :=
  ⟨fun h => absurd rfl h, Nat.zero_le _, List.Subperm.refl _⟩

theorem Inv.no_queue {h : Host ρ} (hinv : Inv h) : h.started.Subperm h.accepted :=
  (List.sublist_append_left _ _).subperm.trans hinv.ran

/-! ## Submissions -/

section Submissions

variable [DecidableEq ρ] (validate : ρ → Bool) (executionID : ρ → String)

/-- The job that was submitted under the execution ID of a request. -/
def existing (req : ρ) (lb : LocalBuilder ρ) : Option (BuildJob ρ) :=
  if executionID req = "" then none
  else lb.jobs.find? fun job => job.request.any fun r => executionID r = executionID req

/-- The part of `SubmitBuild` under `executionMu`, after the validation of the request. -/
def submitBuild (req : ρ) (jobID : String) : Act ρ String := do
  if !validate req then fail .invalidRequest
  match existing executionID req (← get).builder with
  | some job => if job.request = some req then pure job.id else fail .executionReused
  | none =>
    reserveNativeLifetime jobID
    enqueue { id := jobID, request := some req }

theorem submitBuild_spec (req : ρ) (id : String) (s₀ : Session ρ) :
    ⦃fun s => ⌜s = s₀⌝⦄ submitBuild validate executionID req id
    ⦃post⟨fun _ s => ⌜Queued s₀ s ∨ Refused s₀ s⌝, fun _ s => ⌜Refused s₀ s⌝⟩⦄ := by
  mvcgen [submitBuild, reserveNativeLifetime_spec, enqueue_spec, fail]
  all_goals grind [Refused]

theorem submitBuild_cases (req : ρ) (id : String) (s : Session ρ) :
    let r := (submitBuild validate executionID req id).run.run s
    Refused s r.2 ∨ (∃ answer, r.1 = .ok answer) ∧ Queued s r.2 := by
  have hs := submitBuild_spec validate executionID req id s _ rfl
  simp only [wp, PredTrans.apply_pushExcept, PredTrans.apply_pushArg,
    PredTrans.apply_Pure_pure] at hs
  generalize StateT.run (submitBuild validate executionID req id).run s = r at hs ⊢
  rcases r with ⟨halt | answer, s'⟩
  · exact .inl hs
  · exact hs.elim (fun hqueued => .inr ⟨⟨answer, rfl⟩, hqueued⟩) .inl

def step (h : Host ρ) : Event ρ → Host ρ
  | .submit req jobID script =>
    match h.process with
    | none => h
    | some lb =>
      let s : Session ρ :=
        { marker := h.marker, builder := lb, accepted := h.accepted, script := script }
      let r := (submitBuild validate executionID req jobID).run.run s
      { h with
        marker := r.2.marker, accepted := r.2.accepted
        process := match r.1 with
          | .error .crashed => none
          | _ => some r.2.builder }
  | .work =>
    -- `for job := range lb.jobQueue`: some worker takes the next job
    match h.process with
    | none => h
    | some lb =>
      match lb.jobQueue with
      | [] => h
      | job :: rest =>
        { h with process := some { lb with jobQueue := rest }, started := job :: h.started }
  | .crash => { h with process := none }
  | .restart read stored =>
    match h.process with
    | some _ => h
    | none => { h with process := some (nativeReuseState h.marker read stored) }

variable {validate executionID}

variable {h : Host ρ}

theorem Inv.submit (hinv : Inv h) (req : ρ) (id : String) (script : List Outcome) :
    Inv (step validate executionID h (.submit req id script)) := by
  unfold Builder.step
  cases hp : h.process with
  | none => exact hinv
  | some lb =>
      have hqueue : h.queue = lb.jobQueue := by rw [Host.queue, hp, Option.elim]
      have hran := hinv.ran
      have hbefore := hinv.no_queue
      dsimp only
      generalize hr : StateT.run (submitBuild validate executionID req id).run _ = r
      have hcases := submitBuild_cases validate executionID req id
        { marker := h.marker, builder := lb, accepted := h.accepted, script := script }
      rw [hr] at hcases
      rcases hcases with hrefused | ⟨⟨answer, hok⟩, hqueued⟩
      · -- a refused submission leaves everything but the memory of its process
        refine ⟨?_, by rw [hrefused.accepted]; exact hinv.once, ?_⟩
        · grind [hinv.marked, Refused]
        · simp only [Host.queue, hrefused.accepted]
          split
          · simpa using hbefore
          · simpa [hrefused.queue, ← hqueue] using hran
      · -- the marker was not there: nothing had been accepted
        have hnone : h.accepted = [] := by
          by_contra hsome
          exact hinv.marked hsome hqueued.fresh
        rcases hqueued.job with ⟨job, haccepted, hjob⟩
        refine ⟨fun _ => hqueued.marker, by simp [haccepted, hnone], ?_⟩
        simp only [Host.queue, hok, haccepted, hjob, Option.elim, ← hqueue, ← List.append_assoc]
        exact (List.perm_append_singleton job _).subperm.trans ((List.subperm_cons job).mpr hran)

theorem Inv.step (hinv : Inv h) (e : Event ρ) :
    Inv (step validate executionID h e) := by
  cases e with
  | submit req id script => exact hinv.submit req id script
  | crash => exact ⟨hinv.marked, hinv.once, by simpa [Builder.step, Host.queue] using hinv.no_queue⟩
  | work =>
      unfold Builder.step
      dsimp only
      split
      · exact hinv
      next lb hp =>
        split
        · exact hinv
        next job rest hjob =>
          refine ⟨hinv.marked, hinv.once, ?_⟩
          have hran := hinv.ran
          rw [Host.queue, hp, Option.elim, hjob] at hran
          exact List.perm_middle.symm.subperm.trans hran
  | restart read stored =>
      unfold Builder.step
      dsimp only
      split
      · exact hinv
      refine ⟨hinv.marked, hinv.once, ?_⟩
      have hempty : (nativeReuseState h.marker read stored).jobQueue = [] := by
        unfold nativeReuseState
        split <;> rfl
      simpa [Host.queue, hempty] using hinv.no_queue

theorem Inv.accepts_first (hinv : Inv h) {e : Event ρ}
    (hnew : (Builder.step validate executionID h e).accepted ≠ h.accepted) : h.accepted = [] := by
  cases e with
  | submit req id script =>
      unfold Builder.step at hnew
      cases hp : h.process with
      | none => simp [hp] at hnew
      | some lb =>
          rw [hp] at hnew
          rcases submitBuild_cases validate executionID req id
            { marker := h.marker, builder := lb, accepted := h.accepted, script := script } with
            hrefused | ⟨-, hqueued⟩
          · exact absurd hrefused.accepted hnew
          · by_contra hsome
            exact hinv.marked hsome hqueued.fresh
  | work => exact absurd (by unfold Builder.step; dsimp only; split <;> [rfl; split <;> rfl]) hnew
  | crash => exact absurd rfl hnew
  | restart read stored => exact absurd (by unfold Builder.step; dsimp only; split <;> rfl) hnew

/-- Whatever happens to a native builder on one data directory, at most one job is started there; a
job is accepted only if none was before; and a submission under the execution ID of an accepted job,
to the same process or a later one, accepts and starts nothing. -/
theorem native_builder_single_use (marker : Marker) (events : List (Event ρ)) :
    let h := run (step validate executionID) (Host.unused marker) events
    h.started.length ≤ 1 ∧ h.started ⊆ h.accepted ∧
      (∀ e, (step validate executionID h e).accepted ≠ h.accepted → h.accepted = []) ∧
      ∀ job ∈ h.accepted, ∀ r, job.request = some r → ∀ req, executionID req = executionID r →
        ∀ id script, let h' := step validate executionID h (.submit req id script)
          h'.accepted = h.accepted ∧ h'.started = h.started := by
  intro h
  have hinv : Inv h := run_induction (fun _ e hs => hs.step e) (Inv.unused marker)
  have hstarted := hinv.no_queue
  refine ⟨Nat.le_trans hstarted.length_le hinv.once, hstarted.subset, fun e => hinv.accepts_first, ?_⟩
  intro job hjob r hr req hreq id script h'
  constructor
  · by_contra hnew
    rw [hinv.accepts_first hnew] at hjob
    cases hjob
  · unfold h' Builder.step
    dsimp only
    split <;> rfl

example :
    (run (step (fun _ => true) fun r : String => r) (Host.unused none)
      [.restart .ok [], .submit "e" "j" [.ok, .ok, .ok, .ok, .ok, .fault false, .ok],
        .submit "e" "k" [.ok, .ok, .ok, .ok, .ok, .ok], .work]).started.length = 1 := by decide

end Submissions

end PortageEngine.Builder
