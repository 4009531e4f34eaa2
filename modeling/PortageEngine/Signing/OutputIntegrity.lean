import PortageEngine.Signing.RunnerWork

/-!
# Signed outputs stay where they were recorded

Any number of signers at work: a run that reports its outputs has them at the location of its task,
and after the report nobody writes there, as long as no task is claimed again while an earlier run of
it is under way.  Without that condition a run that has lost its claim clears the location, or removes
what it takes for its own output, although its successor has reported it.
-/

namespace PortageEngine.Signing

open Library Library.Rows Library.Runs Library.Process
open Ledger (Time)

variable {s s' : Site} {task : Task}

/-! ## Reports -/

variable {l : Ledger} {t t' : SigningTask} {op : SigningOp} {tasks tasks' : List SigningTask}
  {call : ClaimCall}

theorem TaskStep.report_eq (h : TaskStep l t op t') (hreports : op.reports = true)
    (hother : ∀ k ∈ op.presents, t.id ≠ k.id) :
    t' = t := by
  cases h with
  | kept => rfl
  | canceled call hopen | claimed call hopen | renewed k lease now hholds => cases hreports
  | completed k keyId outputs now hmay houtputs =>
    simp only [mayComplete, holdsTask, Bool.and_eq_true, decide_eq_true_eq] at hmay
    exact absurd hmay.1.1.1.1.1.1 (hother k rfl)
  | failed k detail now hholds =>
    simp only [holdsTask, Bool.and_eq_true, decide_eq_true_eq] at hholds
    exact absurd hholds.1.1.1.1 (hother k rfl)

theorem TaskStep.claimFence_eq (h : TaskStep l t op t') (hop : ∀ call, op ≠ .claim call) :
    t'.claimFence = t.claimFence := by
  cases h with
  | claimed call hopen => exact absurd rfl (hop call)
  | _ => rfl

theorem TaskStep.open (h : TaskStep l t op t')
    (hop : ∀ task keyId outputs now, op ≠ .complete task keyId outputs now)
    (hopen : t.state ≠ .completed) : t'.state ≠ .completed := by
  intro hdone
  rcases h.completes hdone with heq | ⟨task, keyId, outputs, now, heq, _⟩
  · exact hopen (heq ▸ hdone)
  · exact hop task keyId outputs now heq

section Reports

variable {op : SigningOp}

theorem guarantee_report (hinv : SiteInv s) (hreports : op.reports = true)
    (hpresents : op.presents = some task) :
    Guarantee task s { s with signing := stepSigning s.signing op } := by
  refine ⟨fun _ _ _ => rfl, ?_⟩
  rintro other hother ⟨t, ht, hid, hfence, hopen⟩
  rcases (stepSigning_cases s.signing op hinv.queue.keyed).1.next ht with ⟨t', ht', hstep⟩
  have heq : t' = t := by
    refine hstep.report_eq hreports ?_
    intro k hk
    rw [hpresents] at hk
    cases hk
    rw [hid]
    exact hother
  exact ⟨t, heq ▸ ht', hid, hfence, hopen⟩

theorem SiteInv.report (hinv : SiteInv s)
    (hsigned : ∀ k keyId outputs now, op = .complete k keyId outputs now → Signed k outputs s) :
    SiteInv { s with signing := stepSigning s.signing op } := by
  refine ⟨hinv.queue.step op, ?_, hinv.clean⟩
  intro t' ht' hdone outputs houtputs o ho
  have hstep := (stepSigning_cases s.signing op hinv.queue.keyed).1
  generalize (stepSigning s.signing op).tasks = tasks' at ht' hstep
  cases hstep with
  | inserted rows req fresh now hop =>
    rcases List.mem_cons.mp ht' with rfl | hold
    · cases hdone
    · exact hinv.intact t' hold hdone outputs houtputs o ho
  | rows g hg =>
    rcases List.mem_map.mp ht' with ⟨t, ht, rfl⟩
    rcases (hg t ht).completes hdone with heq | ⟨k, keyId, reported, now, hop, hmay, _, heq⟩
    · rw [heq] at hdone houtputs ⊢
      exact hinv.intact t ht hdone outputs houtputs o ho
    have hid : (g t).id = k.id := by
      simp only [mayComplete, holdsTask, Bool.and_eq_true, decide_eq_true_eq] at hmay
      exact (hg t ht).id_eq.trans hmay.1.1.1.1.1.1
    rw [heq] at houtputs
    cases houtputs
    rw [hid]
    exact hsigned k keyId outputs now hop o ho

theorem report_cases {c : RunnerChoice} :
    (s.report c op).1 = s ∨ (s.report c op).1 = { s with signing := stepSigning s.signing op } := by
  unfold Site.report
  cases op.run s.signing with
  | error text => exact .inl rfl
  | ok r => exact conclude_cases c _ _ _

end Reports

theorem guarantee_refl : Guarantee task s s :=
  ⟨fun _ _ _ => rfl, fun _ _ h => h⟩

theorem SiteInv.after_report (hinv : SiteInv s) (op : SigningOp) (hreports : op.reports = true)
    (hpresents : op.presents = some task)
    (hsigned : ∀ k keyId outputs now, op = .complete k keyId outputs now → Signed k outputs s)
    (c : RunnerChoice) :
    Guarantee task s (s.report c op).1 ∧ SiteInv (s.report c op).1 := by
  rcases report_cases with heq | heq
  · rw [heq]
    exact ⟨guarantee_refl, hinv⟩
  · rw [heq]
    exact ⟨guarantee_report hinv hreports hpresents, hinv.report hsigned⟩

theorem Current.fail (h : Current task s) (hkeyed : Keyed SigningTask.id s.signing.tasks)
    (detail : String) (c : RunnerChoice) :
    Current task (s.report c (.fail task detail c.now)).1 := by
  rcases report_cases with heq | heq
  · rw [heq]
    exact h
  rw [heq]
  rcases h with ⟨t, ht, hid, hfence, hopen⟩
  rcases (stepSigning_cases s.signing (.fail task detail c.now) hkeyed).1.next ht with
    ⟨t', ht', hstep⟩
  exact ⟨t', ht', hstep.id_eq.trans hid, (hstep.claimFence_eq nofun).trans hfence,
    hstep.open nofun hopen⟩

/-! ## Runs -/

/-- The program of a run, from a current claim. -/
def Proceeds {α : Type} (task : Task) (p : Prog RunnerOp RunnerReply α) (s : Site) : Prop :=
  Safe runnerExec SiteInv (Rely task) (Guarantee task) (fun _ _ => True) p s

variable {runner : Runner}

theorem proceeds_giveUp {detail : String} (hcurrent : Current task s) :
    Proceeds task (giveUp runner task detail) s := by
  intro s' hrely hinv c
  rcases hinv.after_report (.fail task detail c.now) rfl rfl nofun c with ⟨hG, hI⟩
  refine ⟨hG, hI, ?_⟩
  have hcurrent' := (hrely.current hcurrent).fail hinv.queue.keyed detail c
  have hremove : Proceeds task (do
      let _ ← (removeOutput runner task).run
      pure ()) (s'.report c (.fail task detail c.now)).1 :=
    Safe.bind (works_removeOutput hcurrent') fun _ _ _ => trivial
  cases (runnerExec c (.failSigning task detail) s').2
  case failed text => trivial
  all_goals exact hremove

theorem proceeds_runOnce (hkeyed : Keyed Artifact.relativePath task.artifacts)
    (hcurrent : Current task s) : Proceeds task (runOnce runner task) s := by
  refine Safe.bind (works_process hkeyed hcurrent) ?_
  rintro result s₁ ⟨hcurrent, hsigned⟩ s₂ hrely hinv c
  have hcurrent₂ := hrely.current hcurrent
  have hsilent : (runnerExec c .heartbeatErr s₂).1 = s₂ := exec_silent rfl
  rw [hsilent]
  refine ⟨guarantee_refl, hinv, ?_⟩
  cases (runnerExec c .heartbeatErr s₂).2
  case failed text => exact proceeds_giveUp hcurrent₂
  -- without an error of the heartbeat the outputs are reported
  all_goals
    cases result with
    | error text => exact proceeds_giveUp hcurrent₂
    | ok outputs =>
      intro s₃ hrely' hinv' c'
      have hlocation : Signed task outputs s₃ := by
        intro o ho
        rw [hrely'.read, hrely.read]
        exact hsigned outputs rfl o ho
      rcases hinv'.after_report (.complete task (runner.keyId task.owner) outputs c'.now)
        rfl rfl (fun k keyId reported now heq => by cases heq; exact hlocation) c' with ⟨hG, hI⟩
      exact ⟨hG, hI, trivial⟩

/-! ## Claims and the rest of the queue -/

/-- A claim touches no other task than the one it hands out, except that it cancels tasks of
attempts that are gone. -/
theorem claimSigning_others {handed : Option Task}
    (h : claimSigning l tasks call = .ok (tasks', handed)) (ht : t ∈ tasks)
    (hother : ∀ k ∈ handed, t.id ≠ k.id) :
    ∃ t' ∈ tasks', t'.id = t.id ∧ t'.claimFence = t.claimFence ∧
      (t.state ≠ .completed → t'.state ≠ .completed) := by
  have hstale : ∃ k ∈ update (fun t => t.unfinished && !attemptCurrent l call.now t) cancelStale tasks,
      k.id = t.id ∧ k.claimFence = t.claimFence ∧ (t.state ≠ .completed → k.state ≠ .completed) := by
    refine ⟨_, mem_update.mpr ⟨t, ht, rfl⟩, ?_⟩
    by_cases hp : (t.unfinished && !attemptCurrent l call.now t) = true
    · rw [if_pos hp]
      exact ⟨rfl, rfl, nofun⟩
    · rw [if_neg hp]
      exact ⟨rfl, rfl, id⟩
  rcases claimSigning_cases h with ⟨rfl, rfl⟩ | ⟨claimed, _, _, rfl, rfl⟩
  · exact hstale
  rcases hstale with ⟨k, hk, hid, hrest⟩
  refine ⟨k, mem_update.mpr ⟨k, hk, ?_⟩, hid, hrest⟩
  have hne : ¬ k.id = claimed.id := by
    rw [hid]
    exact hother _ rfl
  rw [if_neg (by simpa using hne)]

theorem handedOut_eq (h : (op.run s.signing).toOption.bind Prod.snd = some task) :
    ∃ call tasks', op = .claim call ∧
      claimSigning s.signing.ledger.ledger s.signing.tasks call = .ok (tasks', some task) := by
  cases hrun : op.run s.signing with
  | error e =>
    rw [hrun] at h
    cases h
  | ok r =>
    have hsnd : r.2 = some task := by simpa [hrun, Except.toOption] using h
    cases op with
    | claim call => exact ⟨call, r.1, rfl, by rw [← hsnd]; exact hrun⟩
    | ledger op =>
      cases hrun
      cases hsnd
    | _ =>
      rcases map_eq_ok.mp hrun with ⟨_, _, heq⟩
      rw [← heq] at hsnd
      cases hsnd

theorem Current.act (h : Current task s) (hinv : SiteInv s) (op : SigningOp)
    (hother : ∀ k ∈ (s.act op).2.toList, task.id ≠ k.id) : Current task (s.act op).1 := by
  unfold Site.act at *
  by_cases hreports : op.reports = true
  · rw [if_pos hreports]
    exact h
  rw [if_neg hreports] at hother ⊢
  rcases h with ⟨t, ht, hid, hfence, hopen⟩
  by_cases hclaim : ∃ call, op = .claim call
  · rcases hclaim with ⟨call, rfl⟩
    cases hrun : SigningOp.run s.signing (.claim call) with
    | error e =>
      refine ⟨t, ?_, hid, hfence, hopen⟩
      simpa [stepSigning, SigningOp.presents, hrun] using ht
    | ok r =>
      have hclaim : claimSigning s.signing.ledger.ledger s.signing.tasks call = .ok (r.1, r.2) := hrun
      have hothers : ∀ k ∈ r.2, t.id ≠ k.id := by
        intro k hk
        rw [hid]
        refine hother k ?_
        simpa [hrun, Except.toOption] using hk
      rcases claimSigning_others hclaim ht hothers with
        ⟨t', ht', hid', hfence', hopen'⟩
      refine ⟨t', ?_, hid'.trans hid, hfence'.trans hfence, hopen' hopen⟩
      simpa [stepSigning, SigningOp.presents, hrun] using ht'
  · rcases (stepSigning_cases s.signing op hinv.queue.keyed).1.next ht with ⟨t', ht', hstep⟩
    have hfence' := hstep.claimFence_eq fun call hcall => hclaim ⟨call, hcall⟩
    have hopen' : t'.state ≠ .completed := by
      refine hstep.open ?_ hopen
      rintro k keyId outputs now rfl
      exact hreports rfl
    exact ⟨t', ht', hstep.id_eq.trans hid, hfence'.trans hfence, hopen'⟩

theorem SiteInv.act (h : SiteInv s) (op : SigningOp) : SiteInv (s.act op).1 := by
  unfold Site.act
  by_cases hreports : op.reports = true
  · rw [if_pos hreports]
    exact h
  rw [if_neg hreports]
  refine h.report ?_
  rintro k keyId outputs now rfl
  exact absurd rfl hreports

theorem act_read {id : TaskId} {path : String} :
    (s.act op).1.read id path = s.read id path := by
  unfold Site.act
  by_cases hreports : op.reports = true
  · rw [if_pos hreports]
  · rw [if_neg hreports]
    rfl

theorem SiteInv.start (h : SiteInv s) (htask : task ∈ (s.act op).2.toList) :
    Current task (s.act op).1 ∧ Keyed Artifact.relativePath task.artifacts := by
  unfold Site.act at *
  by_cases hreports : op.reports = true
  · rw [if_pos hreports] at htask
    cases htask
  rw [if_neg hreports] at htask ⊢
  rcases handedOut_eq (Option.mem_toList.mp htask) with ⟨call, tasks', rfl, hclaim⟩
  have hstep : stepSigning s.signing (.claim call) =
      { s.signing with tasks := tasks', handed := task :: s.signing.handed } := by
    have hrun : SigningOp.run s.signing (.claim call) = .ok (tasks', some task) := hclaim
    simp [stepSigning, SigningOp.presents, hrun, SigningOp.runLedger]
  constructor
  · rw [hstep]
    rcases claimSigning_cases hclaim with ⟨_, heq⟩ | ⟨t, ht, _, rfl, heq⟩
    all_goals cases heq
    exact ⟨claimTask call t, mem_update.mpr ⟨t, ht, by simp⟩, rfl, rfl, fun h => by cases h⟩
  · have hqueue := h.queue.step (.claim call)
    rw [hstep] at hqueue
    rcases hqueue.handed task List.mem_cons_self with ⟨t, ht, _, hinputs⟩
    rw [← hinputs]
    exact hqueue.distinct t ht

def OtherTask (a b : Task) : Prop :=
  a.id ≠ b.id

instance : DecidableRel OtherTask := fun a b => inferInstanceAs (Decidable (a.id ≠ b.id))

theorem signer_rules :
    CrewRules runnerExec Site.act (runOnce runner) SiteInv Rely Guarantee OtherTask where
  symm _ _ h := h.symm
  refl _ _ := ⟨fun _ => rfl, id⟩
  trans _ _ _ _ h₁ h₂ := ⟨fun path => (h₂.read path).trans (h₁.read path),
    fun h => h₂.current (h₁.current h)⟩
  rely a b _ _ hkey _ hG := ⟨fun path => hG.read a.id hkey path, fun h => hG.current a hkey h⟩
  other op a _ hinv hother := ⟨fun path => act_read, fun h => h.act hinv op hother⟩
  inv op _ hinv := hinv.act op
  start op _ hinv task htask := by
    rcases hinv.start htask with ⟨hcurrent, hkeyed⟩
    exact proceeds_runOnce hkeyed hcurrent

theorem siteInv_init {policies : List Ledger.Policy} : SiteInv (Site.init policies) :=
  ⟨queueInv_init, fun _ ht => absurd ht List.not_mem_nil, rfl⟩

/-! ## Integrity -/

/-- A completed task's outputs are at its location as they were recorded, and nobody has changed
anything at a location after its claim had been superseded. -/
structure OutputsSound (s : Site) : Prop where
  intact : ∀ t ∈ s.signing.tasks, t.state = .completed → ∃ outputs, t.outputManifest = some outputs ∧
    ∀ o ∈ outputs, s.read t.id o.relativePath = some ⟨o.outputDigest, o.outputSize⟩
  clean : s.trespassed = false

/-- No task is handed out while an earlier run of it is under way. -/
def OneRun (pool : SignerPool) (move : Move SigningOp RunnerChoice) : Prop :=
  Exclusive Site.act OtherTask pool move

/-- In every run of any number of signers in which no task is claimed again while an earlier run of it
is under way, signed outputs stay as they were recorded. -/
theorem outputs_sound_of_oneRun (runner : Runner) (policies : List Ledger.Policy)
    (moves : List (Move SigningOp RunnerChoice))
    (honerun : Along (stepSigners runner) OneRun (SignerPool.init policies) moves) :
    OutputsSound (run (stepSigners runner) (SignerPool.init policies) moves).state := by
  have hinit : CrewSafe runnerExec SiteInv Rely Guarantee OtherTask (SignerPool.init policies) :=
    ⟨siteInv_init, fun _ hj => absurd hj List.not_mem_nil, List.Pairwise.nil⟩
  have hinv := (hinit.run (signer_rules) honerun).inv
  refine ⟨?_, hinv.clean⟩
  intro t ht hdone
  rcases hinv.queue.faithful t ht hdone with ⟨outputs, houtputs, _⟩
  exact ⟨outputs, houtputs, hinv.intact t ht hdone outputs houtputs⟩

/-! ## Two signers -/

def exampleRunner : Runner where
  mode := .localDirectory
  keyId _ := "key-1"
  outputToken _ := ""

/-- A call that is performed and answered; every file that it meets is the example package. -/
def performedCall (i : Nat) : Move SigningOp RunnerChoice :=
  .call i {
    outcome := .performed, now := 8000000, spared := [], error := ""
    content := ⟨exampleArtifact.inputDigest, 10⟩ }

def failedCall (i : Nat) : Move SigningOp RunnerChoice :=
  .call i {
    outcome := .failed, now := 9000000, spared := [], error := "input/output error"
    content := ⟨"", 0⟩ }

/-- The build of the example asks for its package to be signed. -/
def signingRequested : List (Move SigningOp RunnerChoice) :=
  (signingRun.take 4).map .act

/-- A signer claims the task at this time, for so long. -/
def signerClaims (owner : String) (now lease : Time) : Move SigningOp RunnerChoice :=
  .act (.claim { owner := owner, lease := lease, candidate := 50, now := now })

/-- The first signer has cleared the location when its process dies; after its lease another one
claims the task, signs it and reports it. -/
def undisturbedSigner : List (Move SigningOp RunnerChoice) :=
  signingRequested ++ signerClaims "signer-1" 5000000 1000000 :: List.replicate 4 (performedCall 0) ++
    .kill 0 :: signerClaims "signer-2" 7000000 30000000 :: List.replicate 13 (performedCall 0)

theorem outputs_sound_undisturbed :
    let s := (run (stepSigners exampleRunner) (SignerPool.init [Ledger.examplePolicy])
      undisturbedSigner).state
    (s.signing.tasks.map fun t => (t.state, (s.read t.id exampleArtifact.relativePath).isSome)) =
      [(.completed, true)] ∧ OutputsSound s := by
  have honerun : Along (stepSigners exampleRunner) OneRun (SignerPool.init [Ledger.examplePolicy])
      undisturbedSigner := by
    unfold OneRun
    decide +kernel
  exact ⟨by decide +kernel, outputs_sound_of_oneRun _ _ _ honerun⟩

/-- The first signer stalls after it has cleared the location and its lease runs out; the second one
signs the package and reports it; then the first one fails to read its input and removes what it
takes for its own output. -/
def supersededSigner : List (Move SigningOp RunnerChoice) :=
  signingRequested ++ signerClaims "signer-1" 5000000 1000000 :: List.replicate 4 (performedCall 0) ++
    signerClaims "signer-2" 7000000 30000000 :: List.replicate 13 (performedCall 1) ++
    [failedCall 0, performedCall 0]

theorem superseded_signer_erases_output :
    let s := (run (stepSigners exampleRunner) (SignerPool.init [Ledger.examplePolicy])
      supersededSigner).state
    (s.signing.tasks.map fun t => (t.state, s.read t.id exampleArtifact.relativePath)) =
      [(.completed, none)] ∧ ¬ OutputsSound s := by
  have hstate : let s := (run (stepSigners exampleRunner) (SignerPool.init [Ledger.examplePolicy])
      supersededSigner).state
      (s.signing.tasks.map fun t => (t.state, s.read t.id exampleArtifact.relativePath)) =
        [(.completed, none)] ∧ s.trespassed = true := by
    decide +kernel
  refine ⟨hstate.1, ?_⟩
  intro h
  exact absurd (h.clean.symm.trans hstate.2) (by simp)

end PortageEngine.Signing
