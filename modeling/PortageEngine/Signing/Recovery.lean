import PortageEngine.Library.Solo
import PortageEngine.Signing.OutputIntegrity

/-!
# Recovery of a signing task

A claimant that runs undisturbed while its claim and the lease of the attempt are live completes the
task exactly if every key that it writes is free or already holds the bytes that it writes.  Earlier
claimants leave other bytes there: they share the output prefix with it, GPG signs differently every
time, and the capability manifest has a time in it.  With a local directory the location is cleared
first; with an object store it is not.
-/

namespace PortageEngine.Signing

open List Library Library.Rows Library.Runs Library.Process
open Ledger (Time)

/-! ## Accepted inputs -/

/-- The inputs of all tasks have passed `ValidateArtifact`. -/
def InputsAccepted (s : SigningSystem) : Prop :=
  ∀ t ∈ s.tasks, ∀ a ∈ t.inputManifest, validateArtifact a false = .ok ()

theorem validateRequest_accepts {req : Request} (h : validateRequest req = .ok ()) :
    ∀ a ∈ req.artifacts, validateArtifact a false = .ok () := by
  replace h := passed h
  replace h := passed h
  replace h := passed h
  exact (forDistinct_eq_ok.mp h).1

variable {s : SigningSystem}

theorem InputsAccepted.step (h : InputsAccepted s) (hinv : QueueInv s)
    (op : SigningOp) : InputsAccepted (stepSigning s op) := by
  intro t' ht'
  rcases (stepSigning_cases s op hinv.keyed).1.prior ht' with
    ⟨t, ht, htask⟩ | ⟨req, fresh, now, rfl, hvalid, _⟩
  · rw [congrArg TaskRequest.inputManifest htask.request_eq]
    exact h t ht
  · exact validateRequest_accepts hvalid

/-- What holds of the queue in every run of the signers. -/
structure QueueSound (s : SigningSystem) : Prop where
  queue : QueueInv s
  inputs : InputsAccepted s

theorem queueSound_init {policies : List Ledger.Policy} : QueueSound (SigningSystem.init policies) :=
  ⟨queueInv_init, fun _ ht => absurd ht not_mem_nil⟩

theorem QueueSound.step (h : QueueSound s) (op : SigningOp) :
    QueueSound (stepSigning s op) :=
  ⟨h.queue.step op, h.inputs.step h.queue op⟩

theorem signing_exec {c : RunnerChoice} {op : RunnerOp} {s : Site} :
    (runnerExec c op s).1.signing = s.signing ∨
      ∃ report, (runnerExec c op s).1.signing = stepSigning s.signing report := by
  have hreport : ∀ report, (s.report c report).1.signing = s.signing ∨
      ∃ r, (s.report c report).1.signing = stepSigning s.signing r := by
    intro report
    rcases report_cases with heq | heq
    · exact .inl (by rw [heq])
    · exact .inr ⟨report, by rw [heq]⟩
  cases op with
  | failSigning | completeSigning => exact hreport _
  | removeAll k | copyRegularFile k | signGPKG k | outputDigest k | regenerateIndex k | writeMarker k
  | upload k | list k | delete k => exact .inl (changes_exec (by exact rfl) : Changes k s _).signing_eq
  | _ => exact .inl (by rw [exec_silent rfl])

theorem QueueSound.stepSigners {pool : SignerPool} (h : QueueSound pool.state.signing)
    (runner : Runner) (move : Move SigningOp RunnerChoice) :
    QueueSound (stepSigners runner pool move).state.signing := by
  cases move with
  | act op =>
    by_cases hreports : op.reports = true
    · simpa [Signing.stepSigners, stepCrew, Site.act, hreports] using h
    · simpa [Signing.stepSigners, stepCrew, Site.act, hreports] using h.step op
  | kill i => exact h
  | call i c =>
    simp only [Signing.stepSigners, stepCrew]
    rcases stepPool_call with heq | ⟨j, op, next, _, _, heq⟩ <;> rw [heq]
    · exact h
    rcases signing_exec with heq | ⟨report, heq⟩ <;> rw [heq]
    · exact h
    · exact h.step report

theorem queueSound_of_run (runner : Runner) (policies : List Ledger.Policy)
    (moves : List (Move SigningOp RunnerChoice)) :
    QueueSound (run (stepSigners runner) (SignerPool.init policies) moves).state.signing :=
  run_induction (I := fun pool : SignerPool => QueueSound pool.state.signing)
    (fun _ move h => h.stepSigners runner move) (queueSound_init)

/-- Whatever signers and executors do, a signer is handed the artifacts of a task as it was enqueued,
and a completed task has one output for each of them, for the bytes with its digest and size. -/
theorem signed_outputs_bind_inputs (runner : Runner) (policies : List Ledger.Policy)
    (moves : List (Move SigningOp RunnerChoice)) :
    let s := (run (stepSigners runner) (SignerPool.init policies) moves).state.signing
    (∀ h ∈ s.handed, ∃ t ∈ s.tasks, t.id = h.id ∧ t.inputManifest = h.artifacts) ∧
      ∀ t ∈ s.tasks, t.state = .completed → ∃ outputs, t.outputManifest = some outputs ∧
        (outputs.map Artifact.input).Perm (t.inputManifest.map Artifact.input) := by
  intro s
  have hqueue : QueueInv s := (queueSound_of_run runner policies moves).queue
  exact ⟨hqueue.handed, hqueue.faithful⟩

/-! ## An undisturbed run -/

/-- How the calls of a run go, when nobody else makes one. -/
abbrev World := RunnerOp → RunnerChoice

def soloExec (world : World) (op : RunnerOp) (s : Site) : Site × RunnerReply :=
  runnerExec (world op) op s

/-- What the signer finds that it has made of an input. -/
def World.signs (world : World) (task : Task) (a : Artifact) : Content :=
  (world (.outputDigest task .scratch a.relativePath)).content

def World.output (world : World) (task : Task) (a : Artifact) : Artifact :=
  { a with
    outputDigest := (world.signs task a).digest
    outputSize := (world.signs task a).size }

def World.outputs (world : World) (task : Task) : List Artifact :=
  task.artifacts.map (world.output task)

def World.packages (world : World) : Content :=
  (world .packagesDigest).content

def World.manifest (world : World) (task : Task) : Content :=
  (world (.marshalManifest task world.packages (world.outputs task))).content

def World.uploads (world : World) (task : Task) : List (String × Content) :=
  (world.outputs task).map (fun o => (o.relativePath, o.signed)) ++
    [(packagesName, world.packages), (quarantineCapabilityName, world.manifest task)]

/-- The packages fit into the byte budget, one after the other. -/
def World.Fits (world : World) (task : Task) : Int → List Artifact → Prop
  | _, [] => True
  | remaining, a :: rest => a.inputSize ≤ remaining ∧ (world.signs task a).size ≤ remaining ∧
      world.Fits task (remaining - (world.signs task a).size) rest

/-- The task was handed to a signer and is still its own; every call of its run is performed, the
sources are as recorded, the outputs fit into the budget and have digests and sizes; and when the run
reports, its claim and the lease of the attempt are live.  Renewals in the meantime change nothing but
the expiry of the claim, which is read at the end, so they count as made before. -/
structure Undisturbed (runner : Runner) (task : Task) (world : World) (s : Site) : Prop where
  handed : task ∈ s.signing.handed
  claimed : task.owner ≠ "" ∧ 0 < task.claimFence
  key : runner.keyId task.owner ≠ ""
  performed : ∀ op, (world op).outcome = .performed
  sources : ∀ a ∈ task.artifacts,
    (world (.inputDigest a.relativePath)).content = ⟨a.inputDigest, a.inputSize⟩
  fits : world.Fits task task.budget task.artifacts
  outputs : ∀ a ∈ task.artifacts, hexPattern 64 (world.signs task a).digest = true ∧
    0 ≤ (world.signs task a).size
  live : s.signing.tasks.any (mayComplete s.signing.ledger.ledger task
    (world (.completeSigning task (runner.keyId task.owner) (world.outputs task))).now) = true

def Accepts (task : Task) (s : Site) (u : String × Content) : Prop :=
  s.read task.id u.1 = none ∨ s.read task.id u.1 = some u.2

/-- Every key that the run writes is free or already holds what the run writes. -/
def Unobstructed (task : Task) (world : World) (s : Site) : Prop :=
  ∀ u ∈ world.uploads task, Accepts task s u

/-! ## What the parts of the run come to -/

def RunnerOp.passes : RunnerOp → Bool
  | .contextErr | .heartbeatErr | .rejectSymlinkPath _ | .makeDirectory _ | .download _
  | .removeAll _ .scratch | .copyRegularFile _ .scratch _ _ | .signGPKG _ .scratch _
  | .regenerateIndex _ .scratch => true
  | _ => false

/-- The calls that return what the world has. -/
def RunnerOp.measures : RunnerOp → Bool
  | .inputDigest _ | .packagesDigest | .marshalManifest _ _ _ | .outputDigest _ .scratch _ => true
  | _ => false

section Solo

variable {task : Task} {world : World} {s : Site}

theorem conclude_performed (hperformed : ∀ op, (world op).outcome = .performed) (op : RunnerOp)
    (s s' : Site) (reply : RunnerReply) : (world op).conclude s s' reply = (s', reply) := by
  unfold RunnerChoice.conclude
  rw [hperformed op]

variable {op : RunnerOp} {s' : Site}

theorem alone_request {reply : RunnerReply} (h : soloExec world op s = (s', reply)) :
    alone soloExec world (request op).run s = (s', .ok reply) := by
  change alone soloExec world (Prog.ask op >>= fun r => pure (Except.ok r)) s = _
  rw [alone_bind_of_eq (alone_ask.trans h)]
  rfl

theorem alone_perform (h : soloExec world op s = (s', .done)) :
    alone soloExec world (perform report op).run s = (s', .ok ()) :=
  (alone_bindExcept (alone_request h)).trans rfl

theorem alone_perform_failed {text : String} (h : soloExec world op s = (s', .failed text)) :
    alone soloExec world (perform report op).run s = (s', .error (report text)) :=
  (alone_bindExcept (alone_request h)).trans rfl

theorem alone_checked {α : Type} {x : Except String α} {a : α} (h : x = .ok a) :
    alone soloExec world (checked x).run s = (s, .ok a) := by
  rw [h]
  rfl

variable (hperformed : ∀ op, (world op).outcome = .performed)

include hperformed

theorem solo_passes (hop : op.passes = true) : soloExec world op s = (s, .done) := by
  have hdone := conclude_performed hperformed op s s .done
  cases op with
  | contextErr | heartbeatErr | rejectSymlinkPath | makeDirectory | download => exact hdone
  | removeAll k root | copyRegularFile k root | signGPKG k root | regenerateIndex k root =>
    cases root with
    | scratch => exact hdone
    | output => cases hop
  | _ => cases hop

theorem solo_measures (hop : op.measures = true) :
    soloExec world op s = (s, .content (world op).content) := by
  have hcontent := conclude_performed hperformed op s s (.content (world op).content)
  cases op with
  | inputDigest | packagesDigest | marshalManifest => exact hcontent
  | outputDigest k root path =>
    cases root with
    | scratch => exact hcontent
    | output => cases hop
  | _ => cases hop

theorem alone_passes (hop : op.passes = true) :
    alone soloExec world (perform report op).run s = (s, .ok ()) :=
  alone_perform (solo_passes hperformed hop)

theorem alone_measures (hop : op.measures = true) :
    alone soloExec world (readContent report op).run s = (s, .ok (world op).content) :=
  (alone_bindExcept (alone_request (solo_measures hperformed hop))).trans rfl

variable {remaining : Int} {content : Content}

theorem alone_signArtifact {input : Artifact}
    (hvalid : validateArtifact input false = .ok ())
    (hsource : (world (.inputDigest input.relativePath)).content = ⟨input.inputDigest, input.inputSize⟩)
    (hinput : input.inputSize ≤ remaining) (houtput : (world.signs task input).size ≤ remaining) :
    alone soloExec world (signArtifact task .scratch input remaining).run s =
      (s, .ok (world.output task input)) := by
  unfold signArtifact
  rw [alone_bindExcept (alone_checked hvalid), alone_bindExcept (alone_passes hperformed rfl),
    alone_bindExcept (alone_measures hperformed rfl),
    alone_bindExcept (alone_checked (a := ()) (require_eq_ok.mpr (by simp [hsource]))),
    alone_bindExcept (alone_checked (a := ()) (require_eq_ok.mpr (by simpa using hinput))),
    alone_bindExcept (alone_passes hperformed rfl), alone_bindExcept (alone_passes hperformed rfl),
    alone_bindExcept (alone_passes hperformed rfl), alone_bindExcept (alone_measures hperformed rfl),
    alone_bindExcept (alone_checked (a := ()) (require_eq_ok.mpr
      (by simpa [World.signs] using houtput)))]
  rfl

theorem alone_signArtifacts {inputs : List Artifact}
    (hvalid : ∀ a ∈ inputs, validateArtifact a false = .ok ())
    (hsources : ∀ a ∈ inputs,
      (world (.inputDigest a.relativePath)).content = ⟨a.inputDigest, a.inputSize⟩) (hfits : world.Fits task remaining inputs) :
    alone soloExec world (signArtifacts task .scratch remaining inputs).run s =
      (s, .ok (inputs.map (world.output task))) := by
  induction inputs generalizing remaining with
  | nil => rfl
  | cons input rest ih =>
    rcases hfits with ⟨hinput, houtput, hrest⟩
    unfold signArtifacts
    rw [alone_bindExcept (alone_passes hperformed rfl),
      alone_bindExcept (alone_signArtifact hperformed (hvalid input mem_cons_self)
        (hsources input mem_cons_self) hinput houtput)]
    refine (alone_bindExcept (ih (fun a ha => hvalid a (mem_cons_of_mem _ ha))
      (fun a ha => hsources a (mem_cons_of_mem _ ha)) hrest)).trans rfl

theorem alone_processRoots (hvalid : ∀ a ∈ task.artifacts, validateArtifact a false = .ok ())
    (hsources : ∀ a ∈ task.artifacts,
      (world (.inputDigest a.relativePath)).content = ⟨a.inputDigest, a.inputSize⟩)
    (hfits : world.Fits task task.budget task.artifacts) :
    alone soloExec world (processRoots task .scratch false).run s = (s, .ok (world.outputs task)) := by
  unfold processRoots
  rw [alone_bindExcept (alone_passes hperformed rfl), alone_bindExcept (alone_passes hperformed rfl)]
  refine alone_onError_ok ?_
  rw [alone_bindExcept (alone_signArtifacts hperformed hvalid hsources hfits),
    alone_bindExcept (alone_passes hperformed rfl)]
  rfl

theorem alone_downloadInputs (inputs : List Artifact) :
    alone soloExec world (downloadInputs inputs).run s = (s, .ok ()) := by
  induction inputs with
  | nil => rfl
  | cons input rest ih =>
    unfold downloadInputs
    rw [alone_bindExcept (alone_passes hperformed rfl)]
    exact ih

/-! ### Uploads -/

theorem alone_upload {path : String} (h : Accepts task s (path, content)) :
    ∃ s',
      alone soloExec world (perform report (.upload task path content)).run s = (s', .ok ()) ∧
      s'.signing = s.signing ∧ SameBut task (· = path) s s' := by
  rcases h with hfree | hsame
  · refine ⟨s.change task (Files.write (task.id, path) content s.files), alone_perform ?_, rfl,
      sameBut_write⟩
    have hread : Files.read s.files (task.id, path) = none := hfree
    simp only [soloExec, runnerExec, hread]
    exact conclude_performed hperformed _ _ _ _
  · refine ⟨s, alone_perform ?_, rfl, sameBut_refl⟩
    have hread : Files.read s.files (task.id, path) = some content := hsame
    simp only [soloExec, runnerExec, hread, if_true]
    exact conclude_performed hperformed _ _ _ _

variable (world) in
omit hperformed in
theorem alone_upload_conflict {path : String}
    (h : ¬ Accepts task s (path, content)) : ∃ e,
      alone soloExec world (perform report (.upload task path content)).run s = (s, .error e) := by
  unfold Accepts at h
  cases hread : s.read task.id path with
  | none => exact absurd (.inl hread) h
  | some stored =>
    have hne : stored ≠ content := fun heq => h (.inr (heq ▸ hread))
    have hfile : Files.read s.files (task.id, path) = some stored := hread
    have hfailed : soloExec world (.upload task path content) s =
        (s, .failed "immutable object already exists with different content") := by
      simp only [soloExec, runnerExec, hfile, hne, if_false]
    exact ⟨_, alone_perform_failed hfailed⟩

/-- The outcome of uploads: they succeed if all keys accept them, and leave the queue and the other
keys alone. -/
structure Uploaded (task : Task) (paths : List String) (accepted : Prop) (s s' : Site)
    (r : Except String Unit) : Prop where
  signing : s'.signing = s.signing
  same : SameBut task (· ∈ paths) s s'
  iff : r = .ok () ↔ accepted

omit hperformed in
theorem accepts_congr {u : String × Content} (h : s'.read task.id u.1 = s.read task.id u.1) :
    Accepts task s' u ↔ Accepts task s u := by
  unfold Accepts
  rw [h]

variable (task s) in
theorem alone_uploadOutputs {outputs : List Artifact} (hkeyed : Keyed Artifact.relativePath outputs) :
    ∃ s' r, alone soloExec world (uploadOutputs task outputs).run s = (s', r) ∧
      Uploaded task (outputs.map Artifact.relativePath)
        (∀ o ∈ outputs, Accepts task s (o.relativePath, o.signed)) s s' r := by
  induction outputs generalizing s with
  | nil => exact ⟨s, .ok (), rfl, rfl, sameBut_refl, by simp⟩
  | cons output rest ih =>
    have hrest : Keyed Artifact.relativePath rest := (nodup_cons.mp hkeyed).2
    have hnew : output.relativePath ∉ rest.map Artifact.relativePath := (nodup_cons.mp hkeyed).1
    unfold uploadOutputs
    by_cases haccepts : Accepts task s (output.relativePath, output.signed)
    · rcases alone_upload hperformed haccepts with ⟨s₁, halone, hsigning, hsame⟩
      rcases ih (s := s₁) hrest with ⟨s', r, hrun, huploaded⟩
      refine ⟨s', r, (alone_bindExcept halone).trans hrun, huploaded.signing.trans hsigning, ?_, ?_⟩
      · refine sameBut_trans (hsame.mono ?_) (huploaded.same.mono ?_)
        · rintro path rfl
          exact mem_cons_self
        · exact fun path hpath => mem_cons_of_mem _ hpath
      · rw [huploaded.iff, forall_mem_cons, and_iff_right haccepts]
        -- the paths of the others are not the one just written
        refine forall₂_congr fun o ho => accepts_congr (hsame _ ?_)
        exact fun heq => hnew (heq ▸ mem_map_of_mem ho)
    · rcases alone_upload_conflict world haccepts with ⟨e, halone⟩
      refine ⟨s, .error e, alone_bindExcept_error halone, rfl, sameBut_refl, ?_⟩
      simp [haccepts]

/-- The outcome of the whole: the queue is left alone, and the outputs are returned exactly if no key
is in the way. -/
theorem alone_processObject (hkeyed : Keyed Artifact.relativePath task.artifacts)
    (hvalid : ∀ a ∈ task.artifacts, validateArtifact a false = .ok ())
    (hsources : ∀ a ∈ task.artifacts,
      (world (.inputDigest a.relativePath)).content = ⟨a.inputDigest, a.inputSize⟩)
    (hfits : world.Fits task task.budget task.artifacts) :
    ∃ s' r, alone soloExec world (processObject task).run s = (s', r) ∧ s'.signing = s.signing ∧
      (Unobstructed task world s → r = .ok (world.outputs task)) ∧
      (¬ Unobstructed task world s → ∃ e, r = .error e) := by
  have hpaths : (world.outputs task).map Artifact.relativePath =
      task.artifacts.map Artifact.relativePath := by
    unfold World.outputs
    rw [map_map]
    rfl
  have hdistinct : Keyed Artifact.relativePath (world.outputs task) := by
    unfold Keyed
    rw [hpaths]
    exact hkeyed
  -- the other two names are not among the packages
  have hother : ∀ name, ¬ PackagePath name →
      name ∉ (world.outputs task).map Artifact.relativePath := by
    intro name hname hmem
    rw [hpaths] at hmem
    rcases mem_map.mp hmem with ⟨a, ha, rfl⟩
    exact hname (packagePath_of_valid (hvalid a ha))
  have hiff : Unobstructed task world s ↔
      (∀ o ∈ world.outputs task, Accepts task s (o.relativePath, o.signed)) ∧
        Accepts task s (packagesName, world.packages) ∧
        Accepts task s (quarantineCapabilityName, world.manifest task) := by
    simp [Unobstructed, World.uploads, or_imp, forall_and]
  unfold processObject
  rw [alone_bindExcept (alone_passes hperformed rfl),
    alone_bindExcept (alone_downloadInputs hperformed _),
    alone_bindExcept (alone_processRoots hperformed hvalid hsources hfits)]
  rcases alone_uploadOutputs task s hperformed hdistinct with
    ⟨s₁, r₁, hrun₁, hsigning₁, hsame₁, hiff₁⟩
  have hread₁ : ∀ name content, ¬ PackagePath name →
      (Accepts task s₁ (name, content) ↔ Accepts task s (name, content)) :=
    fun name _ hname => accepts_congr (hsame₁ name (hother name hname))
  by_cases houtputs : ∀ o ∈ world.outputs task, Accepts task s (o.relativePath, o.signed)
  · rw [hiff₁.mpr houtputs] at hrun₁
    rw [alone_bindExcept hrun₁, alone_bindExcept (alone_measures hperformed rfl),
      show (world .packagesDigest).content = world.packages from rfl]
    have hpackages := hread₁ packagesName world.packages not_packagePath_names.1
    by_cases hindex : Accepts task s (packagesName, world.packages)
    · rcases alone_upload hperformed (hpackages.mpr hindex) with ⟨s₂, hrun₂, hsigning₂, hsame₂⟩
      have hread₂ : Accepts task s₂ (quarantineCapabilityName, world.manifest task) ↔
          Accepts task s (quarantineCapabilityName, world.manifest task) :=
        (accepts_congr (hsame₂ quarantineCapabilityName (by decide))).trans
          (hread₁ _ _ not_packagePath_names.2)
      rw [alone_bindExcept hrun₂, alone_bindExcept (alone_measures hperformed rfl),
        alone_bindExcept (alone_passes hperformed rfl),
        show (world (.marshalManifest task world.packages (world.outputs task))).content =
          world.manifest task from rfl]
      by_cases hmanifest : Accepts task s (quarantineCapabilityName, world.manifest task)
      · rcases alone_upload hperformed (hread₂.mpr hmanifest) with ⟨s₃, hrun₃, hsigning₃, _⟩
        refine ⟨s₃, .ok (world.outputs task), (alone_bindExcept hrun₃).trans rfl,
          hsigning₃.trans (hsigning₂.trans hsigning₁), fun _ => rfl, ?_⟩
        exact fun hnot => absurd (hiff.mpr ⟨houtputs, hindex, hmanifest⟩) hnot
      · rcases alone_upload_conflict world (mt hread₂.mp hmanifest) with ⟨e, hrun₃⟩
        refine ⟨s₂, .error e, alone_bindExcept_error hrun₃, hsigning₂.trans hsigning₁, ?_,
          fun _ => ⟨e, rfl⟩⟩
        exact fun h => absurd (hiff.mp h).2.2 hmanifest
    · rcases alone_upload_conflict world (mt hpackages.mp hindex) with ⟨e, hrun₂⟩
      refine ⟨s₁, .error e, alone_bindExcept_error hrun₂, hsigning₁, ?_, fun _ => ⟨e, rfl⟩⟩
      exact fun h => absurd (hiff.mp h).2.1 hindex
  · cases r₁ with
    | ok u => exact absurd (hiff₁.mp rfl) houtputs
    | error e =>
      refine ⟨s₁, .error e, alone_bindExcept_error hrun₁, hsigning₁, ?_, fun _ => ⟨e, rfl⟩⟩
      exact fun h => absurd (hiff.mp h).1 houtputs

end Solo

/-! ## The reports -/

section Reports

variable {runner : Runner} {task : Task} {world : World} {s : Site}

variable {t' : SigningTask}

theorem completed_fail {q : SigningSystem} (hkeyed : Keyed SigningTask.id q.tasks) {detail : String}
    {now : Time} (ht' : t' ∈ (stepSigning q (.fail task detail now)).tasks)
    (hdone : t'.state = .completed) : t' ∈ q.tasks := by
  rcases (stepSigning_cases q _ hkeyed).1.prior ht' with ⟨t, ht, htask⟩ | ⟨req, fresh, now, rfl, _⟩
  · rcases htask.completes hdone with rfl | ⟨_, _, _, _, hop, _⟩
    · exact ht
    · cases hop
  · cases hdone

theorem signing_deletePaths (hperformed : ∀ op, (world op).outcome = .performed)
    {paths : List String} :
    (alone soloExec world (deletePaths task paths).run s).1.signing = s.signing := by
  induction paths generalizing s with
  | nil => rfl
  | cons path rest ih =>
    have hexec : soloExec world (.delete task path) s = (s.change task
        (Files.removeAll (fun name => name = (task.id, path)) s.files), .done) :=
      conclude_performed hperformed _ _ _ _
    unfold deletePaths
    rw [alone_bindExcept (alone_perform hexec)]
    exact ih

theorem signing_removeOutput (hperformed : ∀ op, (world op).outcome = .performed)
    (hmode : runner.mode = .objectStore) :
    (alone soloExec world (removeOutput runner task).run s).1.signing = s.signing := by
  have hexec : soloExec world (.list task) s =
      (s, .paths ((s.files.filter fun f => f.1.1 = task.id).map fun f => f.1.2)) :=
    conclude_performed hperformed _ _ _ _
  unfold removeOutput
  rw [hmode]
  rw [alone_bindExcept (alone_request hexec)]
  exact signing_deletePaths hperformed

theorem completed_giveUp (hkeyed : Keyed SigningTask.id s.signing.tasks)
    (hperformed : ∀ op, (world op).outcome = .performed)
    (hmode : runner.mode = .objectStore) {detail : String}
    (ht' : t' ∈ (alone soloExec world (giveUp runner task detail) s).1.signing.tasks)
    (hdone : t'.state = .completed) : t' ∈ s.signing.tasks := by
  unfold giveUp at ht'
  cases hrun : SigningOp.run s.signing (.fail task detail (world (.failSigning task detail)).now) with
  | error text =>
    have hexec : soloExec world (.failSigning task detail) s = (s, .failed text) := by
      simp only [soloExec, runnerExec, Site.report, hrun]
    rw [alone_bind_of_eq (alone_ask.trans hexec)] at ht'
    exact ht'
  | ok result =>
    let failed : SigningOp := .fail task detail (world (.failSigning task detail)).now
    have hexec : soloExec world (.failSigning task detail) s =
        ({ s with signing := stepSigning s.signing failed }, .done) := by
      simp only [soloExec, runnerExec, Site.report, hrun]
      exact conclude_performed hperformed _ _ _ _
    rw [alone_bind_of_eq (alone_ask.trans hexec)] at ht'
    rw [alone_bind_of_eq (Prod.eta _).symm] at ht'
    change t' ∈ (alone soloExec world (removeOutput runner task).run _).1.signing.tasks at ht'
    rw [signing_removeOutput hperformed hmode] at ht'
    exact completed_fail hkeyed ht' hdone

theorem Undisturbed.complete_ok (h : Undisturbed runner task world s)
    (hvalid : ∀ a ∈ task.artifacts, validateArtifact a false = .ok ())
    (hkeyed : Keyed Artifact.relativePath task.artifacts) {now : Time}
    (hlive : s.signing.tasks.any (mayComplete s.signing.ledger.ledger task now) = true) :
    completeSigning s.signing.ledger.ledger s.signing.tasks task (runner.keyId task.owner)
        (world.outputs task) now =
      .ok (update (mayComplete s.signing.ledger.ledger task now)
        (completeTask (runner.keyId task.owner) (world.outputs task)) s.signing.tasks) := by
  have hinput : (world.outputs task).map Artifact.input = task.artifacts.map Artifact.input := by
    unfold World.outputs
    rw [map_map]
    rfl
  refine require_bind_eq_ok.mpr ⟨by simp [h.claimed, h.key], ?_⟩
  refine require_bind_eq_ok.mpr ⟨by simp [World.outputs], ?_⟩
  refine bind_eq_ok.mpr ⟨(), forM_eq_ok.mpr ?_, ?_⟩
  · intro o ho
    rcases mem_map.mp ho with ⟨a, ha, rfl⟩
    have houtput := h.outputs a ha
    rcases require_bind_eq_ok.mp (hvalid a ha) with ⟨hpath, hrest⟩
    rcases require_bind_eq_ok.mp hrest with ⟨hclean, hrest⟩
    rcases require_bind_eq_ok.mp hrest with ⟨hsuffix, hrest⟩
    rcases require_bind_eq_ok.mp hrest with ⟨hdigest, _⟩
    refine require_bind_eq_ok.mpr ⟨hpath, require_bind_eq_ok.mpr ⟨hclean, ?_⟩⟩
    refine require_bind_eq_ok.mpr ⟨hsuffix, require_bind_eq_ok.mpr ⟨hdigest, ?_⟩⟩
    exact require_eq_ok.mpr (by simp [World.output, houtput])
  · refine require_bind_eq_ok.mpr ⟨?_, require_bind_eq_ok.mpr ⟨hlive, rfl⟩⟩
    refine (sameSigningInputs_iff hkeyed).mpr ?_
    rw [hinput]

end Reports

/-! ## Recovery -/

def Completed (task : Task) (s : Site) : Prop :=
  ∃ t ∈ s.signing.tasks, t.id = task.id ∧ t.state = .completed

/-- Whatever earlier claimants have done, and wherever they have stopped, an undisturbed run completes
its task exactly if no key is in its way. -/
theorem signer_recovers_iff (runner : Runner) (hmode : runner.mode = .objectStore)
    (policies : List Ledger.Policy) (moves : List (Move SigningOp RunnerChoice)) (task : Task)
    (world : World)
    (h : Undisturbed runner task world
      (run (stepSigners runner) (SignerPool.init policies) moves).state) :
    Completed task (alone soloExec world (runOnce runner task)
        (run (stepSigners runner) (SignerPool.init policies) moves).state).1 ↔
      Unobstructed task world (run (stepSigners runner) (SignerPool.init policies) moves).state := by
  have hsound := queueSound_of_run runner policies moves
  generalize (run (stepSigners runner) (SignerPool.init policies) moves).state = s at h hsound ⊢
  rcases hsound.queue.handed task h.handed with ⟨t, ht, hid, hinputs⟩
  have hkeyed : Keyed Artifact.relativePath task.artifacts := hinputs ▸ hsound.queue.distinct t ht
  have hvalid : ∀ a ∈ task.artifacts, validateArtifact a false = .ok () :=
    hinputs ▸ hsound.inputs t ht
  rcases alone_processObject (s := s) h.performed hkeyed hvalid h.sources h.fits with
    ⟨s₁, r, hrun, hsigning, hok, herror⟩
  have hprocess : alone soloExec world (process runner task).run s = (s₁, r) := by
    unfold process
    rw [hmode]
    exact hrun
  have hheartbeat : ∀ s', alone soloExec world (Prog.ask .heartbeatErr) s' = (s', .done) :=
    fun _ => alone_ask.trans (solo_passes h.performed rfl)
  unfold runOnce
  rw [alone_bind_of_eq hprocess, alone_bind_of_eq (hheartbeat _)]
  by_cases hfree : Unobstructed task world s
  · refine iff_of_true ?_ hfree
    rw [hok hfree]
    rcases any_eq_true.mp h.live with ⟨k, hk, hmay⟩
    have hcomplete := h.complete_ok hvalid hkeyed h.live
    have hexec : (soloExec world
        (.completeSigning task (runner.keyId task.owner) (world.outputs task)) s₁).1.signing.tasks =
        update (mayComplete s.signing.ledger.ledger task
          (world (.completeSigning task (runner.keyId task.owner) (world.outputs task))).now)
          (completeTask (runner.keyId task.owner) (world.outputs task)) s.signing.tasks := by
      simp only [soloExec, runnerExec, Site.report, hsigning, SigningOp.run, hcomplete]
      rw [show ∀ x y z, (world (.completeSigning task (runner.keyId task.owner)
        (world.outputs task))).conclude x y z = (y, z) from conclude_performed h.performed _]
      simp [stepSigning, SigningOp.presents, h.handed, SigningOp.run, hcomplete]
    refine ⟨completeTask (runner.keyId task.owner) (world.outputs task) k, ?_, ?_, rfl⟩
    · change _ ∈ (soloExec world _ s₁).1.signing.tasks
      rw [hexec]
      exact mem_update.mpr ⟨k, hk, by rw [if_pos hmay]⟩
    · simp only [mayComplete, holdsTask, Bool.and_eq_true, decide_eq_true_eq] at hmay
      exact hmay.1.1.1.1.1.1
  · refine iff_of_false ?_ hfree
    rcases herror hfree with ⟨e, rfl⟩
    rintro ⟨t', ht', hid', hdone⟩
    have hold := completed_giveUp (hsigning ▸ hsound.queue.keyed) h.performed hmode ht' hdone
    rw [hsigning] at hold
    -- the row of the task is the claimed one
    rcases any_eq_true.mp h.live with ⟨k, hk, hmay⟩
    simp only [mayComplete, holdsTask, Bool.and_eq_true, decide_eq_true_eq] at hmay
    have hsame : t' = k := hsound.queue.keyed.eq hold hk (hid'.trans hmay.1.1.1.1.1.1.symm)
    rw [hsame, hmay.1.1.1.2] at hdone
    cases hdone

/-! ## Two claimants -/

def objectRunner : Runner where
  mode := .objectStore
  keyId _ := "key-1"
  outputToken _ := ""

/-- The first signer dies after so many calls; when its lease has run out, the second one claims the
task. -/
def abandonedAfter (calls : Nat) : List (Move SigningOp RunnerChoice) :=
  signingRequested ++ signerClaims "signer-1" 5000000 1000000 ::
    List.replicate calls (performedCall 0) ++ [.kill 0, signerClaims "signer-2" 7000000 30000000]

def siteAfter (calls : Nat) : Site :=
  (run (stepSigners objectRunner) (SignerPool.init [Ledger.examplePolicy]) (abandonedAfter calls)).state

def reclaimedTask : Task where
  id := 50
  job := 1
  attempt := 7
  attemptFence := 1
  state := .claimed
  sourceToken := exampleRequest.sourceToken
  architecture := "amd64"
  maxOutputBytes := 1000
  artifacts := [exampleArtifact]
  signingKeyId := ""
  owner := "signer-2"
  claimFence := 2
  leaseExpiresAt := some 37000000
  error := ""

/-- The second signer makes other bytes of the package than the first one. -/
def otherWorld : World := fun op => {
  outcome := .performed
  now := 8000000
  content :=
    match op with
    | .inputDigest _ => ⟨exampleArtifact.inputDigest, 10⟩
    | _ => ⟨String.ofList (List.replicate 64 'b'), 12⟩
  spared := []
  error := "" }

theorem undisturbed_otherWorld {s : Site} (hhanded : reclaimedTask ∈ s.signing.handed)
    (hlive : s.signing.tasks.any (mayComplete s.signing.ledger.ledger reclaimedTask 8000000) = true) :
    Undisturbed objectRunner reclaimedTask otherWorld s where
  handed := hhanded
  claimed := by decide
  key := by decide
  performed _ := rfl
  sources a ha := by
    cases mem_singleton.mp ha
    rfl
  fits := by
    refine ⟨?_, ?_, trivial⟩
    · decide
    · decide
  outputs a ha := by
    cases mem_singleton.mp ha
    decide +kernel
  live := hlive

theorem signer_recovers_unwritten :
    Unobstructed reclaimedTask otherWorld (siteAfter 12) ∧ Completed reclaimedTask
      (alone soloExec otherWorld (runOnce objectRunner reclaimedTask) (siteAfter 12)).1 := by
  have hundisturbed : Undisturbed objectRunner reclaimedTask otherWorld (siteAfter 12) :=
    undisturbed_otherWorld (by decide +kernel) (by decide +kernel)
  have hfree : Unobstructed reclaimedTask otherWorld (siteAfter 12) := by
    unfold Unobstructed Accepts
    decide +kernel
  exact ⟨hfree, (signer_recovers_iff objectRunner rfl _ _ _ _ hundisturbed).mpr hfree⟩

/-- The first signer has uploaded its package before it died. -/
theorem leftover_blocks_signer :
    Undisturbed objectRunner reclaimedTask otherWorld (siteAfter 13) ∧ ¬ Completed reclaimedTask
      (alone soloExec otherWorld (runOnce objectRunner reclaimedTask) (siteAfter 13)).1 ∧
    (alone soloExec otherWorld (runOnce objectRunner reclaimedTask)
      (siteAfter 13)).1.signing.tasks.map SigningTask.state = [.failed] := by
  refine ⟨undisturbed_otherWorld (by decide +kernel) (by decide +kernel), ?_, by decide +kernel⟩
  unfold Completed
  decide +kernel

end PortageEngine.Signing
