import PortageEngine.Ledger.PhaseOrder
import PortageEngine.Ledger.Leases
import PortageEngine.Signing.Queue

/-!
# One signed output for each attempt

A task is inserted once for its attempt and then changes only its state, its owner and its outputs:
`TaskStep` lists what an operation can make of a row.  Completed tasks are final, and their outputs
are their inputs with the signed digests added, because a signer reports under a task as the queue
handed it out.
-/

namespace PortageEngine.Signing

open List Library Library.Rows Library.Runs
open Ledger

/-! ## Comparing manifests -/

theorem takeExpected_iff {expected right : List Artifact}
    (h : Keyed Artifact.relativePath expected) :
    takeExpected expected right = true ↔
      (right.map Artifact.input).Perm (expected.map Artifact.input) := by
  induction right generalizing expected with
  | nil =>
    simp [takeExpected]
  | cons a rest ih =>
    -- taking the entry of a path out of a map with distinct paths
    have htake : ∀ e ∈ expected, e.relativePath = a.relativePath →
        (expected.map Artifact.input).Perm (e.input ::
          (delete (fun k => k.relativePath = a.relativePath) expected).map Artifact.input) := by
      intro e he hpath
      have hsplit : expected.Perm
          (e :: delete (fun k => k.relativePath = a.relativePath) expected) := by
        have hnodup : expected.Nodup := List.Nodup.of_map _ h
        refine (perm_ext_iff_of_nodup hnodup ?_).mpr ?_
        · refine nodup_cons.mpr ⟨?_, hnodup.sublist filter_sublist⟩
          intro hmem
          simpa [hpath] using (mem_delete.mp hmem).2
        · intro k
          rw [mem_cons, mem_delete]
          constructor
          · intro hk
            by_cases hka : k.relativePath = a.relativePath
            · exact .inl (h.eq hk he (hka.trans hpath.symm))
            · exact .inr ⟨hk, by simpa using hka⟩
          · rintro (rfl | ⟨hk, _⟩)
            · exact he
            · exact hk
      exact hsplit.map Artifact.input
    have hrest : Keyed Artifact.relativePath
        (delete (fun k => k.relativePath = a.relativePath) expected) := h.delete
    cases hfind : Overlay.lookup Artifact.relativePath expected a.relativePath with
    | none =>
      have hnone : takeExpected expected (a :: rest) = false := by simp [takeExpected, hfind]
      rw [hnone]
      refine iff_of_false Bool.false_ne_true ?_
      intro hperm
      rcases mem_map.mp (hperm.subset mem_cons_self) with ⟨e, he, hinput⟩
      have hpath : e.relativePath = a.relativePath := congrArg Prod.fst hinput
      simpa [hpath] using find?_eq_none.mp hfind e he
    | some e =>
      have he : e ∈ expected := mem_of_find?_eq_some hfind
      have hpath : e.relativePath = a.relativePath := by simpa using find?_some hfind
      have hloop : takeExpected expected (a :: rest) = (decide (e.inputDigest = a.inputDigest) &&
          decide (e.inputSize = a.inputSize) &&
          takeExpected (delete (fun k => k.relativePath = a.relativePath) expected) rest) := by
        simp [takeExpected, hfind]
      rw [hloop, Bool.and_eq_true, Bool.and_eq_true, decide_eq_true_eq, decide_eq_true_eq,
        ih hrest, map_cons, perm_comm.trans ((htake e he hpath).congr_left _ |>.trans perm_comm)]
      constructor
      · rintro ⟨⟨hdigest, hsize⟩, hperm⟩
        have hinput : e.input = a.input := by
          unfold Artifact.input
          rw [hpath, hdigest, hsize]
        rw [hinput]
        exact hperm.cons _
      · intro hperm
        -- the only expected artifact of this path is `e`
        have hmem : a.input ∈ e.input ::
            (delete (fun k => k.relativePath = a.relativePath) expected).map Artifact.input :=
          hperm.subset mem_cons_self
        have hinput : e.input = a.input := by
          rcases mem_cons.mp hmem with heq | hother
          · exact heq.symm
          rcases mem_map.mp hother with ⟨k, hk, hkinput⟩
          have hkpath : k.relativePath = a.relativePath := congrArg Prod.fst hkinput
          simpa [hkpath] using (mem_delete.mp hk).2
        have hfields := hinput
        simp only [Artifact.input, Prod.mk.injEq] at hfields
        refine ⟨⟨hfields.2.1, hfields.2.2⟩, ?_⟩
        rw [hinput] at hperm
        exact hperm.cons_inv

variable {left right : List Artifact} {rows : List ArtifactRow} {call : ClaimCall}
  {task : Option Task}

theorem sameSigningInputs_iff (h : Keyed Artifact.relativePath left) :
    sameSigningInputs left right = true ↔
      (right.map Artifact.input).Perm (left.map Artifact.input) := by
  have hmap : Overlay.overlay Artifact.relativePath [] left = left := by
    rw [Overlay.overlay_of_keyed (by simpa using h)]
    rfl
  unfold sameSigningInputs
  rw [hmap, Bool.and_eq_true, takeExpected_iff h]
  refine ⟨fun hsame => hsame.2, fun hperm => ⟨?_, hperm⟩⟩
  simpa using hperm.length_eq.symm

theorem keyed_of_perm (h : Keyed Artifact.relativePath left)
    (hperm : (right.map Artifact.input).Perm (left.map Artifact.input)) :
    Keyed Artifact.relativePath right := by
  have hpaths : (right.map Artifact.relativePath).Perm (left.map Artifact.relativePath) := by
    have hfst : ∀ xs : List Artifact,
        (xs.map Artifact.input).map Prod.fst = xs.map Artifact.relativePath := by
      intro xs
      rw [map_map]
      rfl
    rw [← hfst, ← hfst]
    exact hperm.map _
  exact hpaths.nodup_iff.mpr h

variable {req : Request} {op : SigningOp} {now : Time} {t t' : SigningTask}

theorem validateRequest_distinct (h : validateRequest req = .ok ()) :
    Keyed Artifact.relativePath req.artifacts := by
  replace h := passed h
  replace h := passed h
  replace h := passed h
  exact (forDistinct_eq_ok.mp h).2.1

/-! ## What a step does to a task -/

inductive TaskStep (l : Ledger) (t : SigningTask) : SigningOp → SigningTask → Prop
  | kept (op : SigningOp) : TaskStep l t op t
  | canceled (call : ClaimCall) (hopen : t.unfinished = true) :
      TaskStep l t (.claim call) (cancelStale t)
  | claimed (call : ClaimCall) (hopen : t.unfinished = true) :
      TaskStep l t (.claim call) (claimTask call t)
  | renewed (task : Task) (lease now : Time) (hholds : holdsTask task now t = true) :
      TaskStep l t (.renew task lease now) { t with leaseExpiresAt := some (now + lease) }
  | completed (task : Task) (keyId : String) (outputs : List Artifact) (now : Time)
      (hmay : mayComplete l task now t = true)
      (houtputs : sameSigningOutputs task.artifacts outputs = true) :
      TaskStep l t (.complete task keyId outputs now) (completeTask keyId outputs t)
  | failed (task : Task) (detail : String) (now : Time) (hholds : holdsTask task now t = true) :
      TaskStep l t (.fail task detail now) { t with
        state := .failed, errorDetail := detail, owner := "", leaseExpiresAt := none }

/-- Everything an operation can do to the queue. -/
inductive QueueStep (l : Ledger) (tasks : List SigningTask) (op : SigningOp) :
    List SigningTask → Prop
  | rows (g : SigningTask → SigningTask) (h : ∀ t ∈ tasks, TaskStep l t op (g t)) :
      QueueStep l tasks op (tasks.map g)
  | inserted (rows : List ArtifactRow) (req : Request) (fresh : TaskId) (now : Time)
      (hop : op = .enqueue rows req fresh now) (hvalid : validateRequest req = .ok ())
      (hactive : attemptActive l req now = true) (hfresh : ∀ t ∈ tasks, t.id ≠ fresh)
      (hnew : ∀ t ∈ tasks, ¬ (t.job = req.jobId ∧ t.attempt = req.attemptId)) :
      QueueStep l tasks op (queuedTask req fresh :: tasks)

variable {l : Ledger} {tasks tasks' : List SigningTask}

theorem queueStep_refl : QueueStep l tasks op tasks := by
  have hrows : QueueStep l tasks op (tasks.map id) := .rows id fun _ _ => .kept op
  rwa [map_id] at hrows

theorem queueStep_update {p : SigningTask → Bool} {f : SigningTask → SigningTask}
    (h : ∀ t ∈ tasks, p t = true → TaskStep l t op (f t)) :
    QueueStep l tasks op (update p f tasks) := by
  refine .rows (fun t => if p t then f t else t) ?_
  intro t ht
  by_cases hp : p t = true
  · rw [if_pos hp]
    exact h t ht hp
  · rw [if_neg hp]
    exact .kept op

theorem queueStep_enqueueSigning {fresh : TaskId} {task : Task}
    (h : enqueueSigning l rows tasks req fresh now = .ok (tasks', task)) :
    QueueStep l tasks (.enqueue rows req fresh now) tasks' := by
  rcases bind_eq_ok.mp h with ⟨_, hvalid, h⟩
  rcases require_bind_eq_ok.mp h with ⟨hactive, h⟩
  replace h := passed h
  cases hfind : tasks.find? fun t => t.job = req.jobId && t.attempt = req.attemptId with
  | some t =>
    rw [hfind] at h
    replace h := passed h
    cases h
    exact queueStep_refl
  | none =>
    rw [hfind] at h
    rcases require_bind_eq_ok.mp h with ⟨hfresh, h⟩
    replace h := passed h
    cases h
    refine .inserted rows req fresh now rfl hvalid hactive (by simpa using hfresh) ?_
    intro t ht hpair
    simpa [hpair] using find?_eq_none.mp hfind t ht

/-- A claim cancels the tasks of attempts that are gone, and hands out a task that it leaves. -/
theorem claimSigning_cases
    (h : claimSigning l tasks call = .ok (tasks', task)) :
    let swept := update (fun t => t.unfinished && !attemptCurrent l call.now t) cancelStale tasks
    (tasks' = swept ∧ task = none) ∨ ∃ t ∈ swept, t.unfinished = true ∧
      tasks' = update (fun k => k.id = t.id) (claimTask call) swept ∧
      task = some (claimTask call t).handOut := by
  replace h := passed h
  dsimp only at h ⊢
  generalize update (fun t => t.unfinished && !attemptCurrent l call.now t) cancelStale
    tasks = swept at h ⊢
  cases hfind : swept.find? fun t => t.id = call.candidate && claimable l call.now t with
  | none =>
    rw [hfind] at h
    cases h
    exact .inl ⟨rfl, rfl⟩
  | some t =>
    rw [hfind] at h
    cases h
    have hclaimable := find?_some hfind
    simp only [claimable, Bool.and_eq_true] at hclaimable
    exact .inr ⟨t, mem_of_find?_eq_some hfind, hclaimable.2.1.1, rfl, rfl⟩

theorem queueStep_claimSigning (hkeyed : Keyed SigningTask.id tasks) (h : claimSigning l tasks call = .ok (tasks', task)) :
    QueueStep l tasks (.claim call) tasks' ∧
      ∀ h ∈ task, ∃ t ∈ tasks', t.id = h.id ∧ t.inputManifest = h.artifacts := by
  rcases claimSigning_cases h with ⟨rfl, rfl⟩ | ⟨t, ht, hopen, rfl, rfl⟩
  · refine ⟨queueStep_update ?_, nofun⟩
    intro t _ hp
    exact .canceled call (Bool.and_eq_true _ _ ▸ hp).1
  have hkeyed' := hkeyed.update (p := fun t => t.unfinished && !attemptCurrent l call.now t)
    (f := cancelStale) fun _ => rfl
  constructor
  · unfold update
    rw [map_map]
    refine .rows _ ?_
    intro k hk
    have hk' := (mem_update (p := fun t => t.unfinished && !attemptCurrent l call.now t)
      (f := cancelStale)).mpr ⟨k, hk, rfl⟩
    rw [Function.comp_apply]
    by_cases hstale : (k.unfinished && !attemptCurrent l call.now k) = true
    · rw [if_pos hstale] at hk' ⊢
      -- a task that the sweep has canceled is not the one that is claimed
      have hid : ¬ (cancelStale k).id = t.id := by
        intro hid
        rw [← hkeyed'.eq hk' ht hid] at hopen
        simp [SigningTask.unfinished, cancelStale] at hopen
      rw [if_neg (by simpa using hid)]
      exact .canceled call (Bool.and_eq_true _ _ ▸ hstale).1
    · rw [if_neg hstale] at hk' ⊢
      by_cases hid : k.id = t.id
      · rw [if_pos (by simpa using hid)]
        exact .claimed call (hkeyed'.eq hk' ht hid ▸ hopen)
      · rw [if_neg (by simpa using hid)]
        exact .kept _
  · intro task htask
    cases htask
    exact ⟨claimTask call t, mem_update.mpr ⟨t, ht, by simp⟩, rfl, rfl⟩

theorem TaskStep.id_eq (h : TaskStep l t op t') :
    t'.id = t.id := by
  cases h <;> rfl

theorem TaskStep.request_eq (h : TaskStep l t op t') :
    t'.toTaskRequest = t.toTaskRequest := by
  cases h <;> rfl

theorem TaskStep.completed_eq (h : TaskStep l t op t') (hdone : t.state = .completed) : t' = t := by
  cases h with
  | kept => rfl
  | canceled call hopen | claimed call hopen => simp [SigningTask.unfinished, hdone] at hopen
  | renewed task lease now hholds | failed task detail now hholds =>
    simp [holdsTask, hdone] at hholds
  | completed task keyId outputs now hmay houtputs => simp [mayComplete, holdsTask, hdone] at hmay

structure Completes (l : Ledger) (t : SigningTask) (op : SigningOp) (t' : SigningTask) : Prop where
  report : ∃ task keyId outputs now, op = .complete task keyId outputs now ∧
    mayComplete l task now t = true ∧ sameSigningOutputs task.artifacts outputs = true ∧
    t' = completeTask keyId outputs t

theorem TaskStep.completes (h : TaskStep l t op t') (hdone : t'.state = .completed) :
    t' = t ∨ Completes l t op t' := by
  cases h with
  | kept => exact .inl rfl
  | canceled call hopen | claimed call hopen | failed task detail now hholds => cases hdone
  | renewed task lease now hholds =>
    have hclaimed : t.state = .claimed := by
      simp only [holdsTask, Bool.and_eq_true, decide_eq_true_eq] at hholds
      exact hholds.1.2
    have hstate : t.state = .completed := hdone
    rw [hclaimed] at hstate
    cases hstate
  | completed task keyId outputs now hmay houtputs =>
    exact .inr ⟨task, keyId, outputs, now, rfl, hmay, houtputs, rfl⟩

theorem QueueStep.keyed {κ : Type} {key : SigningTask → κ} (h : QueueStep l tasks op tasks')
    (hkeyed : Keyed key tasks) (hkept : ∀ t t', TaskStep l t op t' → key t' = key t)
    (hnew : ∀ req fresh, (∀ t ∈ tasks, t.id ≠ fresh) →
      (∀ t ∈ tasks, ¬ (t.job = req.jobId ∧ t.attempt = req.attemptId)) →
      ∀ t ∈ tasks, key t ≠ key (queuedTask req fresh)) : Keyed key tasks' := by
  cases h with
  | rows g hg =>
    have hkeys : (tasks.map g).map key = tasks.map key := by
      rw [map_map]
      exact map_congr_left fun t ht => hkept _ _ (hg t ht)
    unfold Keyed
    rw [hkeys]
    exact hkeyed
  | inserted rows req fresh now _ _ _ hfresh hpair =>
    exact hkeyed.cons (hnew req fresh hfresh hpair)

theorem QueueStep.prior (h : QueueStep l tasks op tasks') (ht' : t' ∈ tasks') :
    (∃ t ∈ tasks, TaskStep l t op t') ∨ ∃ req fresh now, t' = queuedTask req fresh ∧
      validateRequest req = .ok () ∧ attemptActive l req now = true := by
  cases h with
  | rows g hg =>
    rcases mem_map.mp ht' with ⟨t, ht, rfl⟩
    exact .inl ⟨t, ht, hg t ht⟩
  | inserted rows req fresh now _ hvalid hactive =>
    rcases mem_cons.mp ht' with rfl | ht'
    · exact .inr ⟨req, fresh, now, rfl, hvalid, hactive⟩
    · exact .inl ⟨t', ht', .kept op⟩

theorem QueueStep.next (h : QueueStep l tasks op tasks') (ht : t ∈ tasks) :
    ∃ t' ∈ tasks', TaskStep l t op t' := by
  cases h with
  | rows g hg => exact ⟨g t, mem_map_of_mem ht, hg t ht⟩
  | inserted rows req fresh now => exact ⟨t, mem_cons_of_mem _ ht, .kept op⟩

/-! ## The queue along a run -/

variable {s : SigningSystem}

theorem stepSigning_cases (s : SigningSystem) (op : SigningOp)
    (hkeyed : Keyed SigningTask.id s.tasks) :
    QueueStep s.ledger.ledger s.tasks op (stepSigning s op).tasks ∧
      (∀ h ∈ (stepSigning s op).handed, h ∈ s.handed ∨
        ∃ t ∈ (stepSigning s op).tasks, t.id = h.id ∧ t.inputManifest = h.artifacts) ∧
      (∀ task keyId outputs now, op = .complete task keyId outputs now →
        (stepSigning s op).tasks = s.tasks ∨ task ∈ s.handed) := by
  unfold stepSigning
  by_cases hhanded : (op.presents.all fun task => s.handed.contains task) = true
  · rw [if_pos hhanded]
    have hpresented : ∀ (tasks : List SigningTask) task keyId outputs now,
        op = .complete task keyId outputs now → tasks = s.tasks ∨ task ∈ s.handed := by
      rintro tasks task keyId outputs now rfl
      exact .inr (by simpa [SigningOp.presents] using hhanded)
    cases hrun : op.run s with
    | error e => exact ⟨queueStep_refl, fun h hh => .inl hh, hpresented _⟩
    | ok r =>
      cases op with
      | ledger op =>
        cases hrun
        exact ⟨queueStep_refl, fun h hh => .inl hh, hpresented _⟩
      | enqueue rows req fresh now =>
        rcases map_eq_ok.mp hrun with ⟨⟨tasks', task'⟩, hok, heq⟩
        cases heq
        exact ⟨queueStep_enqueueSigning hok, fun h hh => .inl hh, hpresented _⟩
      | claim call =>
        rcases queueStep_claimSigning hkeyed hrun with ⟨hstep, hnew⟩
        refine ⟨hstep, ?_, hpresented _⟩
        intro h hh
        rcases mem_append.mp hh with hh | hh
        · exact .inr (hnew h (Option.mem_toList.mp hh))
        · exact .inl hh
      | renew task lease now =>
        rcases map_eq_ok.mp hrun with ⟨tasks', hok, heq⟩
        cases heq
        cases passed (passed hok)
        refine ⟨queueStep_update ?_, fun h hh => .inl hh, hpresented _⟩
        intro t _ hp
        exact .renewed task lease now (Bool.and_eq_true _ _ ▸ hp).1
      | complete task keyId outputs now =>
        rcases map_eq_ok.mp hrun with ⟨tasks', hok, heq⟩
        cases heq
        rcases require_bind_eq_ok.mp (passed (passed (passed hok))) with ⟨hsame, hok⟩
        cases passed hok
        refine ⟨queueStep_update ?_, fun h hh => .inl hh, hpresented _⟩
        intro t _ hp
        exact .completed task keyId outputs now hp hsame
      | fail task detail now =>
        rcases map_eq_ok.mp hrun with ⟨tasks', hok, heq⟩
        cases heq
        cases passed (passed hok)
        refine ⟨queueStep_update ?_, fun h hh => .inl hh, hpresented _⟩
        intro t _ hp
        exact .failed task detail now hp
  · rw [if_neg hhanded]
    exact ⟨queueStep_refl, fun h hh => .inl hh, fun _ _ _ _ _ => .inl rfl⟩

theorem stepSigning_ledger (s : SigningSystem) (op : SigningOp) :
    (stepSigning s op).ledger = op.runLedger s.ledger := by
  unfold stepSigning
  by_cases hhanded : (op.presents.all fun task => s.handed.contains task) = true
  · rw [if_pos hhanded]
    cases op.run s <;> rfl
  rw [if_neg hhanded]
  cases op with
  | ledger op => simp [SigningOp.presents] at hhanded
  | _ => rfl

/-- Completed tasks have outputs for exactly their inputs. -/
def SigningTask.Faithful (t : SigningTask) : Prop :=
  t.state = .completed → ∃ outputs, t.outputManifest = some outputs ∧
    (outputs.map Artifact.input).Perm (t.inputManifest.map Artifact.input)

structure QueueInv (s : SigningSystem) : Prop where
  plan : Ledger.PlanInv s.ledger
  keyed : Keyed SigningTask.id s.tasks
  single : Keyed (fun t : SigningTask => (t.job, t.attempt)) s.tasks
  enrolled : ∀ t ∈ s.tasks, attemptOf s.ledger.ledger t.attempt t.job
  distinct : ∀ t ∈ s.tasks, Keyed Artifact.relativePath t.inputManifest
  faithful : ∀ t ∈ s.tasks, t.Faithful
  handed : ∀ h ∈ s.handed, ∃ t ∈ s.tasks, t.id = h.id ∧ t.inputManifest = h.artifacts

theorem queueInv_init {policies : List Ledger.Policy} : QueueInv (SigningSystem.init policies) := by
  refine ⟨Ledger.planInv_init, nodup_nil, nodup_nil, ?_, ?_, ?_, ?_⟩
  all_goals exact fun _ h => absurd h not_mem_nil

theorem attemptOf_runLedger {s : Ledger.System} {a : AttemptId} {j : JobId}
    (h : attemptOf s.ledger a j) : attemptOf (op.runLedger s).ledger a j := by
  cases op with
  | ledger op =>
    rcases h with ⟨x, hx, rfl, rfl⟩
    rcases (Ledger.enrolled_step).mem hx with ⟨y, hy, hnumber⟩
    exact ⟨y, hy, congrArg Ledger.AttemptNumber.id hnumber,
      congrArg Ledger.AttemptNumber.job hnumber⟩
  | _ => exact h

theorem attemptOf_of_active (h : attemptActive l req now = true) :
    attemptOf l req.attemptId req.jobId := by
  simp only [attemptActive, Bool.and_eq_true, any_eq_true, decide_eq_true_eq] at h
  rcases h with ⟨⟨⟨a, ha, ⟨hid, hjob⟩, _⟩, _⟩, _⟩
  exact ⟨a, ha, hid, hjob⟩

theorem QueueInv.faithful_completes (h : QueueInv s) (ht : t ∈ s.tasks) {task : Task}
    {keyId : String} {outputs : List Artifact} (hhanded : task ∈ s.handed)
    (hmay : mayComplete s.ledger.ledger task now t = true)
    (houtputs : sameSigningOutputs task.artifacts outputs = true)
    (ht' : t' = completeTask keyId outputs t) : t'.Faithful := by
  rcases h.handed task hhanded with ⟨k, hk, hid, hinputs⟩
  have hkt : k = t := by
    simp only [mayComplete, holdsTask, Bool.and_eq_true, decide_eq_true_eq] at hmay
    exact h.keyed.eq hk ht (hid.trans hmay.1.1.1.1.1.1.symm)
  intro _
  refine ⟨outputs, by rw [ht']; rfl, ?_⟩
  have hsame : sameSigningInputs t.inputManifest outputs = true := by
    rw [← hkt, hinputs]
    exact houtputs
  rw [ht']
  exact (sameSigningInputs_iff (h.distinct t ht)).mp hsame

theorem QueueInv.step (h : QueueInv s) (op : SigningOp) : QueueInv (stepSigning s op) := by
  rcases stepSigning_cases s op h.keyed with ⟨hstep, hhanded, hpresented⟩
  have hledger := stepSigning_ledger s op
  have hplan : Ledger.PlanInv (stepSigning s op).ledger := by
    rw [hledger]
    cases op with
    | ledger op => exact h.plan.step op
    | _ => exact h.plan
  refine ⟨hplan, hstep.keyed h.keyed (fun _ _ ht => ht.id_eq) fun _ _ hfresh _ => hfresh,
    hstep.keyed h.single ?_ fun _ _ _ hpair t ht heq => hpair t ht (Prod.mk.inj heq), ?_, ?_, ?_, ?_⟩
  · exact fun t t' ht => congrArg (fun r : TaskRequest => (r.job, r.attempt)) ht.request_eq
  · intro t' ht'
    rw [hledger]
    rcases hstep.prior ht' with ⟨t, ht, htask⟩ | ⟨req, fresh, now, rfl, _, hactive⟩
    · have hown := h.enrolled t ht
      rw [← congrArg TaskRequest.attempt htask.request_eq,
        ← congrArg TaskRequest.job htask.request_eq] at hown
      exact attemptOf_runLedger hown
    · exact attemptOf_runLedger (attemptOf_of_active hactive)
  · intro t' ht'
    rcases hstep.prior ht' with ⟨t, ht, htask⟩ | ⟨req, fresh, now, rfl, hvalid, _⟩
    · rw [congrArg TaskRequest.inputManifest htask.request_eq]
      exact h.distinct t ht
    · exact validateRequest_distinct hvalid
  · intro t' ht' hdone
    rcases hstep.prior ht' with ⟨t, ht, htask⟩ | ⟨req, fresh, now, rfl, _⟩
    · rcases htask.completes hdone with heq | ⟨task, keyId, outputs, now, hop, hmay, hsame, heq⟩
      · rw [heq] at hdone ⊢
        exact h.faithful t ht hdone
      rcases hpresented task keyId outputs now hop with hsame' | hheld
      · exact h.faithful t' (hsame' ▸ ht') hdone
      · exact h.faithful_completes ht hheld hmay hsame heq hdone
    · cases hdone
  · intro task htask
    rcases hhanded task htask with hold | hnew
    · rcases h.handed task hold with ⟨t, ht, hid, hinputs⟩
      rcases hstep.next ht with ⟨t', ht', htask'⟩
      refine ⟨t', ht', htask'.id_eq.trans hid, ?_⟩
      rw [← hinputs]
      exact congrArg TaskRequest.inputManifest htask'.request_eq
    · exact hnew

/-! ## Repeating an enqueue -/

/-- The request comes from the attempt while it is being verified or signed, its artifacts are
verified, and it names the same token, architecture and limit as the task. -/
structure Repeatable (l : Ledger) (rows : List ArtifactRow) (t : SigningTask) (req : Request)
    (now : Time) : Prop where
  valid : validateRequest req = .ok ()
  active : attemptActive l req now = true
  verified : ∀ a ∈ req.artifacts, artifactVerified rows req a = true
  same : t.sourceToken = req.sourceToken ∧ t.architecture = req.architecture ∧
    t.maxOutputBytes = req.maxOutputBytes

/-- The artifacts that a repeated request is compared with are the inputs, in some order. -/
theorem QueueInv.perm_artifacts (h : QueueInv s) (ht : t ∈ s.tasks) :
    (t.artifacts.map Artifact.input).Perm (t.inputManifest.map Artifact.input) := by
  unfold SigningTask.artifacts
  by_cases hdone : t.state = .completed
  · rcases h.faithful t ht hdone with ⟨outputs, houtputs, hperm⟩
    rw [if_pos hdone, houtputs]
    exact hperm
  · rw [if_neg hdone]

theorem QueueInv.enqueue_iff (h : QueueInv s) (ht : t ∈ s.tasks)
    {fresh : TaskId} (hjob : t.job = req.jobId) (hattempt : t.attempt = req.attemptId) :
    (∃ r, enqueueSigning s.ledger.ledger rows s.tasks req fresh now = .ok r) ↔
      Repeatable s.ledger.ledger rows t req now ∧
        (req.artifacts.map Artifact.input).Perm (t.inputManifest.map Artifact.input) := by
  have hperm := h.perm_artifacts ht
  have hkeyed : Keyed Artifact.relativePath t.artifacts := keyed_of_perm (h.distinct t ht) hperm
  have hfind : (s.tasks.find? fun k => k.job = req.jobId && k.attempt = req.attemptId) = some t := by
    have hpair := h.single.find ht
    rw [hjob, hattempt] at hpair
    rw [← hpair]
    congr 1
    simp
  have hmatches : matchesRequest t req = .ok () ↔
      (t.sourceToken = req.sourceToken ∧ t.architecture = req.architecture ∧
        t.maxOutputBytes = req.maxOutputBytes) ∧
      (req.artifacts.map Artifact.input).Perm (t.inputManifest.map Artifact.input) := by
    unfold matchesRequest
    rw [require_bind_eq_ok, require_eq_ok, sameSigningInputs_iff hkeyed]
    simp only [Bool.and_eq_true, decide_eq_true_eq, and_assoc]
    refine and_congr_right fun _ => and_congr_right fun _ => and_congr_right fun _ => ?_
    exact ⟨fun hp => hp.trans hperm, fun hp => hp.trans hperm.symm⟩
  unfold enqueueSigning
  rw [hfind]
  constructor
  · rintro ⟨r, hok⟩
    rcases bind_eq_ok.mp hok with ⟨_, hvalid, hok⟩
    rcases require_bind_eq_ok.mp hok with ⟨hactive, hok⟩
    rcases bind_eq_ok.mp hok with ⟨_, hverified, hok⟩
    rcases bind_eq_ok.mp hok with ⟨_, hmatch, _⟩
    have hsame := hmatches.mp hmatch
    refine ⟨⟨hvalid, hactive, ?_, hsame.1⟩, hsame.2⟩
    intro a ha
    exact require_eq_ok.mp (forM_eq_ok.mp hverified a ha)
  · rintro ⟨hrepeat, hp⟩
    refine ⟨(s.tasks, t.handOut), bind_eq_ok.mpr ⟨(), hrepeat.valid, ?_⟩⟩
    refine require_bind_eq_ok.mpr ⟨hrepeat.active, bind_eq_ok.mpr ⟨(), ?_, ?_⟩⟩
    · exact forM_eq_ok.mpr fun a ha => require_eq_ok.mpr (hrepeat.verified a ha)
    · exact bind_eq_ok.mpr ⟨(), hmatches.mpr ⟨hrepeat.same, hp⟩, rfl⟩

/-! ## One output for each attempt -/

/-- The queue in a state: at most one task an attempt, whose request stays as it is and whose
completion is final and made under the current claim fence while the attempt holds its lease; the
outputs are those of the inputs; and a repeated enqueue is accepted exactly for a permutation. -/
structure SigningSound (s : SigningSystem) : Prop where
  single : ∀ t ∈ s.tasks, ∀ k ∈ s.tasks, t.attempt = k.attempt → t = k
  stable : ∀ later, ∀ t ∈ s.tasks, ∃ t' ∈ (run stepSigning s later).tasks, t'.id = t.id ∧
    t'.toTaskRequest = t.toTaskRequest ∧ (t.state = .completed → t' = t)
  guarded : ∀ op, ∀ t' ∈ (stepSigning s op).tasks, t'.state = .completed → t' ∈ s.tasks ∨
    ∃ t ∈ s.tasks, t.id = t'.id ∧ t.state = .claimed ∧ ∃ task keyId outputs now,
      op = .complete task keyId outputs now ∧ task.owner = t.owner ∧
      task.claimFence = t.claimFence ∧ (∃ e, t.leaseExpiresAt = some e ∧ now < e) ∧
      ∃ x ∈ s.ledger.ledger.leases, x.attempt = t.attempt ∧ x.fence = t.attemptFence ∧
        now < x.expiresAt
  outputs : ∀ t ∈ s.tasks, t.state = .completed → ∃ outputs, t.outputManifest = some outputs ∧
    (outputs.map Artifact.relativePath).Perm (t.inputManifest.map Artifact.relativePath)
  repeated : ∀ t ∈ s.tasks, ∀ rows req fresh now, t.job = req.jobId → t.attempt = req.attemptId →
    ((∃ r, enqueueSigning s.ledger.ledger rows s.tasks req fresh now = .ok r) ↔
      Repeatable s.ledger.ledger rows t req now ∧
        (req.artifacts.map Artifact.input).Perm (t.inputManifest.map Artifact.input))

theorem QueueInv.stable (h : QueueInv s) (later : List SigningOp) (ht : t ∈ s.tasks) :
    ∃ t' ∈ (run stepSigning s later).tasks, t'.id = t.id ∧
      t'.toTaskRequest = t.toTaskRequest ∧ (t.state = .completed → t' = t) := by
  induction later generalizing s t with
  | nil => exact ⟨t, ht, rfl, rfl, fun _ => rfl⟩
  | cons op later ih =>
    rcases (stepSigning_cases s op h.keyed).1.next ht with ⟨k, hk, hstep⟩
    rcases ih (h.step op) hk with ⟨t', ht', hid, hrequest, hfinal⟩
    refine ⟨t', ht', hid.trans hstep.id_eq, hrequest.trans hstep.request_eq, ?_⟩
    intro hdone
    have hkt := hstep.completed_eq hdone
    rw [hkt] at hfinal
    exact hfinal hdone

theorem QueueInv.guarded (h : QueueInv s) (op : SigningOp) (ht' : t' ∈ (stepSigning s op).tasks)
    (hdone : t'.state = .completed) : t' ∈ s.tasks ∨
    ∃ t ∈ s.tasks, t.id = t'.id ∧ t.state = .claimed ∧ ∃ task keyId outputs now,
      op = .complete task keyId outputs now ∧ task.owner = t.owner ∧
      task.claimFence = t.claimFence ∧ (∃ e, t.leaseExpiresAt = some e ∧ now < e) ∧
      ∃ x ∈ s.ledger.ledger.leases, x.attempt = t.attempt ∧ x.fence = t.attemptFence ∧
        now < x.expiresAt := by
  rcases (stepSigning_cases s op h.keyed).1.prior ht' with ⟨t, ht, htask⟩ | ⟨req, fresh, now, rfl, _⟩
  · rcases htask.completes hdone with heq | ⟨task, keyId, outputs, now, hop, hmay, _, heq⟩
    · rw [heq]
      exact .inl ht
    simp only [mayComplete, holdsTask, attemptLive, Bool.and_eq_true, decide_eq_true_eq,
      any_eq_true] at hmay
    rcases hmay with ⟨⟨⟨⟨⟨⟨_, howner⟩, hfence⟩, hclaimed⟩, hlease⟩, _⟩, x, hx, ⟨hxa, hxf⟩, hlive⟩
    refine .inr ⟨t, ht, htask.id_eq.symm, hclaimed, task, keyId, outputs, now, hop,
      howner.symm, hfence.symm, ?_, x, hx, hxa, hxf, hlive⟩
    cases hexpires : t.leaseExpiresAt with
    | none => simp [hexpires] at hlease
    | some e => exact ⟨e, rfl, by simpa [hexpires] using hlease⟩
  · cases hdone

theorem QueueInv.signingSound (h : QueueInv s) : SigningSound s := by
  refine ⟨?_, fun later t ht => h.stable later ht, fun op t' ht' hdone => h.guarded op ht' hdone,
    ?_, fun t ht rows req fresh now hjob hattempt => h.enqueue_iff ht hjob hattempt⟩
  · intro t ht k hk hattempt
    have hjob : t.job = k.job := by
      have hown := h.enrolled t ht
      rw [hattempt] at hown
      exact h.plan.planned.refs.attemptOf_unique hown (h.enrolled k hk)
    exact h.single.eq ht hk (Prod.ext hjob hattempt)
  · intro t ht hdone
    rcases h.faithful t ht hdone with ⟨outputs, houtputs, hperm⟩
    refine ⟨outputs, houtputs, ?_⟩
    have hpaths := hperm.map Prod.fst
    rw [map_map, map_map] at hpaths
    exact hpaths

/-- In every state that the queue and the ledger reach, signing yields one output an attempt. -/
theorem signing_sound_of_run (policies : List Ledger.Policy) (ops : List SigningOp) :
    SigningSound (run stepSigning (SigningSystem.init policies) ops) := by
  have hinv : QueueInv (run stepSigning (SigningSystem.init policies) ops) :=
    run_induction (fun _ op hs => hs.step op) (queueInv_init)
  exact hinv.signingSound

def exampleArtifact : Artifact where
  relativePath := "app-misc/hello-1.gpkg.tar"
  inputDigest := String.ofList (List.replicate 64 'a')
  inputSize := 10

def exampleRequest : Request where
  jobId := 1
  attemptId := 7
  attemptFence := 1
  leaseOwner := "replica-a"
  sourceToken := String.ofList (List.replicate 32 '0')
  architecture := "amd64"
  maxOutputBytes := 1000
  artifacts := [exampleArtifact]

def exampleRows : List ArtifactRow :=
  [{ job := 1, attempt := 7, state := .verifiedUnsigned, digestAlgorithm := "sha256"
     digest := exampleArtifact.inputDigest, sizeBytes := 10
     location := "quarantine:" ++ exampleRequest.sourceToken ++ "/app-misc/hello-1.gpkg.tar" }]

/-- A build reaches verification and asks for its package to be signed; a signer claims the task. -/
def signingRun : List SigningOp :=
  [.ledger (Ledger.exampleCreate 1 1000000), .ledger (Ledger.exampleClaim 1 7 2000000),
    .ledger (.record none (Ledger.exampleStatus 1 7 .verifying 3000000) 3000000 0),
    .enqueue exampleRows exampleRequest 50 4000000,
    .claim { owner := "signer-1", lease := 30000000, candidate := 50, now := 5000000 }]

/-- The signed package is accepted under the claim, and once only. -/
example :
    let s := run stepSigning (SigningSystem.init [Ledger.examplePolicy]) signingRun
    s.handed.map (fun task =>
      let complete : SigningOp := .complete task "key-1"
        [{ exampleArtifact with outputDigest := exampleArtifact.inputDigest, outputSize := 12 }]
        6000000
      ((stepSigning s complete).tasks.map SigningTask.state,
        (run stepSigning s [complete, .fail task "lost" 7000000]).tasks.map SigningTask.state)) =
      [([.completed], [.completed])] := by
  decide +kernel

end PortageEngine.Signing
