import PortageEngine.Signing.QueueSafety
import PortageEngine.Signing.Runner

/-!
# The work of one signer

While a run of a task is under way and the task is not claimed again, the row of the task keeps its
claim fence and is not completed (`Current`), and nobody else touches the location of the task
(`Rely`).  Under these conditions the programs of `Signing.Runner` change nothing but the location of
their own task, and the outputs that they return are there (`works_process`).
-/

namespace PortageEngine.Signing

open List Library Library.Rows Library.Runs Library.Process
open Ledger (Time)

/-! ## What a run relies on and what it guarantees -/

/-- What is stored at the location of a task. -/
def Site.read (s : Site) (id : TaskId) (path : String) : Option Content :=
  Files.read s.files (id, path)

/-- The claim is the newest of the task, and the task is not completed. -/
def Current (task : Task) (s : Site) : Prop :=
  ∃ t ∈ s.signing.tasks, t.id = task.id ∧ t.claimFence = task.claimFence ∧ t.state ≠ .completed

/-- Every output of a completed task is at its location as it was recorded. -/
def Intact (s : Site) : Prop :=
  ∀ t ∈ s.signing.tasks, t.state = .completed → ∀ outputs, t.outputManifest = some outputs →
    ∀ o ∈ outputs, s.read t.id o.relativePath = some o.signed

structure SiteInv (s : Site) : Prop where
  queue : QueueInv s.signing
  intact : Intact s
  clean : s.trespassed = false

/-- Between two calls of a run: the location is left alone and the claim stays current. -/
structure Rely (task : Task) (s s' : Site) : Prop where
  read : ∀ path, s'.read task.id path = s.read task.id path
  current : Current task s → Current task s'

/-- A call of a run: the other locations are left alone and the other claims stay current. -/
structure Guarantee (task : Task) (s s' : Site) : Prop where
  read : ∀ id, id ≠ task.id → ∀ path, s'.read id path = s.read id path
  current : ∀ other : Task, other.id ≠ task.id → Current other s → Current other s'

variable {s s' : Site} {task : Task}

/-- The calls that do not report to the queue: they change at most the location of the task. -/
inductive Changes (task : Task) (s : Site) : Site → Prop
  | nothing : Changes task s s
  | files (files : List ((TaskId × String) × Content))
      (h : ∀ id, id ≠ task.id → ∀ path, Files.read files (id, path) = s.read id path) :
      Changes task s (s.change task files)

theorem not_superseded (hkeyed : Keyed SigningTask.id s.signing.tasks) (h : Current task s) :
    s.superseded task = false := by
  rcases h with ⟨t, ht, hid, hfence, _⟩
  rw [Site.superseded, any_eq_false]
  intro k hk hsup
  simp only [Bool.and_eq_true, decide_eq_true_eq] at hsup
  rw [hkeyed.eq hk ht (hsup.1.trans hid.symm), hfence] at hsup
  omega

theorem Changes.signing_eq (h : Changes task s s') : s'.signing = s.signing := by
  cases h <;> rfl

theorem Changes.read (h : Changes task s s') {id : TaskId} (hid : id ≠ task.id) (path : String) :
    s'.read id path = s.read id path := by
  cases h with
  | nothing => rfl
  | files files hfiles => exact hfiles id hid path

theorem current_congr (h : s'.signing = s.signing) : Current task s' ↔ Current task s := by
  unfold Current
  rw [h]

theorem SiteInv.changes (h : SiteInv s) (hcurrent : Current task s) (hc : Changes task s s') :
    Guarantee task s s' ∧ SiteInv s' ∧ Current task s' := by
  have hsigning := hc.signing_eq
  refine ⟨⟨fun id hid path => hc.read hid path, ?_⟩, ⟨?_, ?_, ?_⟩, (current_congr hsigning).mpr hcurrent⟩
  · exact fun other _ => (current_congr hsigning).mpr
  · rw [hsigning]
    exact h.queue
  · intro t ht hdone outputs houtputs o ho
    rw [hsigning] at ht
    have hid : t.id ≠ task.id := by
      rcases hcurrent with ⟨k, hk, hkid, _, hopen⟩
      intro hid
      rw [h.queue.keyed.eq ht hk (hid.trans hkid.symm)] at hdone
      exact hopen hdone
    rw [hc.read hid]
    exact h.intact t ht hdone outputs houtputs o ho
  · cases hc with
    | nothing => exact h.clean
    | files files => simp [Site.change, h.clean, not_superseded h.queue.keyed hcurrent]

/-! ## The calls -/

/-- The call is one of the run of this task and does not report to the queue. -/
def RunnerOp.Within (task : Task) : RunnerOp → Prop
  | .removeAll k _ | .copyRegularFile k _ _ _ | .signGPKG k _ _ | .outputDigest k _ _
  | .regenerateIndex k _ | .writeMarker k | .upload k _ _ | .list k | .delete k _ => k = task
  | .failSigning _ _ | .completeSigning _ _ _ => False
  | _ => True

/-- The call changes nothing that others can see. -/
def RunnerOp.silent : RunnerOp → Bool
  | .removeAll _ root | .copyRegularFile _ root _ _ | .signGPKG _ root _
  | .regenerateIndex _ root => root = .scratch
  | .writeMarker _ | .upload _ _ _ | .delete _ _ | .failSigning _ _ | .completeSigning _ _ _ => false
  | _ => true

theorem conclude_cases (c : RunnerChoice) (s s' : Site) (reply : RunnerReply) :
    (c.conclude s s' reply).1 = s ∨ (c.conclude s s' reply).1 = s' := by
  unfold RunnerChoice.conclude
  cases c.outcome with
  | performed | lost => exact .inr rfl
  | failed => exact .inl rfl

variable {c : RunnerChoice} {op : RunnerOp} {remaining : Int} {inputs : List Artifact}
  {runner : Runner}

theorem conclude_of_answered {reply : RunnerReply}
    (h : ∀ text, (c.conclude s s' reply).2 ≠ .failed text) :
    c.outcome = .performed ∧ c.conclude s s' reply = (s', reply) := by
  unfold RunnerChoice.conclude at *
  cases hout : c.outcome with
  | performed => exact ⟨rfl, rfl⟩
  | lost | failed =>
    rw [hout] at h
    exact absurd rfl (h c.error)

variable {path : String} {content : Content} {outputs : List Artifact} {p : String → Prop}
  {root : Root}

theorem changes_write :
    Changes task s (s.change task (Files.write (task.id, path) content s.files)) := by
  refine .files _ ?_
  intro id hid other
  refine Files.read_write_of_ne ?_
  intro heq
  exact hid (Prod.mk.inj heq).1

theorem changes_removeAll {p : TaskId × String → Bool}
    (h : ∀ name, p name = true → name.1 = task.id) :
    Changes task s (s.change task (Files.removeAll p s.files)) := by
  refine .files _ ?_
  intro id hid path
  refine Files.read_removeAll_of_not ?_
  by_contra hp
  exact hid (h (id, path) (by simpa using hp))

theorem exec_silent (hop : op.silent = true) :
    (runnerExec c op s).1 = s := by
  have hsame : ∀ reply, (c.conclude s s reply).1 = s := fun reply =>
    (conclude_cases c s s reply).elim id id
  cases op with
  | contextErr | heartbeatErr | rejectSymlinkPath | inputDigest | makeDirectory | download
  | packagesDigest | marshalManifest | list => exact hsame _
  | removeAll k root | copyRegularFile k root | signGPKG k root | regenerateIndex k root =>
    cases root with
    | scratch => exact hsame _
    | output => cases hop
  | outputDigest k root path =>
    cases root with
    | scratch => exact hsame _
    | output =>
      simp only [runnerExec]
      cases Files.read s.files (k.id, path) with
      | none => rfl
      | some => exact hsame _
  | _ => cases hop

/-- The path at the location of the task that the call may write. -/
def RunnerOp.target? : RunnerOp → Option String
  | .copyRegularFile _ _ path _ | .signGPKG _ _ path | .upload _ path _ => some path
  | .regenerateIndex _ _ => some packagesName
  | .writeMarker _ => some capabilityMarkerName
  | _ => none

/-- All that a call can do: write its target, or remove files of the task. -/
theorem exec_cases (hop : op.Within task) (c : RunnerChoice) :
    (runnerExec c op s).1 = s ∨
    (∃ path content, op.target? = some path ∧
      (runnerExec c op s).1 = s.change task (Files.write (task.id, path) content s.files)) ∨
    ∃ p : TaskId × String → Bool, op.target? = none ∧ (∀ name, p name = true → name.1 = task.id) ∧
      (runnerExec c op s).1 = s.change task (Files.removeAll p s.files) := by
  by_cases hsilent : op.silent = true
  · exact .inl (exec_silent hsilent)
  cases op with
  | removeAll k root | regenerateIndex k root =>
    cases hop
    cases root with
    | scratch => exact absurd rfl hsilent
    | output =>
      refine (conclude_cases c s _ _).imp_right fun heq => ?_
      first
      | exact .inr ⟨_, rfl, fun name hp => by simp_all, heq⟩
      | exact .inl ⟨_, _, rfl, heq⟩
  | delete k path =>
    cases hop
    exact (conclude_cases c s _ _).imp_right fun heq => .inr ⟨_, rfl, fun name hp => by simp_all, heq⟩
  | writeMarker k =>
    cases hop
    exact (conclude_cases c s _ _).imp_right fun heq => .inl ⟨_, _, rfl, heq⟩
  | copyRegularFile k root path content | signGPKG k root path =>
    cases hop
    cases root with
    | scratch => exact absurd rfl hsilent
    | output =>
      simp only [runnerExec]
      cases Files.read s.files (task.id, path) <;>
        first
        | exact .inl rfl
        | exact (conclude_cases c s _ _).imp_right fun heq => .inl ⟨_, _, rfl, heq⟩
  | upload k path content =>
    cases hop
    simp only [runnerExec]
    cases Files.read s.files (task.id, path) with
    | none => exact (conclude_cases c s _ _).imp_right fun heq => .inl ⟨_, _, rfl, heq⟩
    | some stored =>
      dsimp only
      by_cases hsame : stored = content
      · rw [if_pos hsame]
        exact .inl ((conclude_cases c s s _).elim id id)
      · rw [if_neg hsame]
        exact .inl rfl
  | failSigning | completeSigning => exact hop.elim
  | _ => exact absurd rfl hsilent

theorem changes_exec (hop : op.Within task) :
    Changes task s (runnerExec c op s).1 := by
  rcases exec_cases hop c with heq | ⟨path, content, _, heq⟩ | ⟨p, _, hp, heq⟩ <;> rw [heq]
  · exact .nothing
  · exact changes_write
  · exact changes_removeAll hp

/-! ## Programs under a current claim -/

/-- The program of a run under its claim: `Q` holds if it succeeds, and the claim stays current. -/
def Works {α : Type} (task : Task) (p : Action α) (Q : α → Site → Prop) (s : Site) : Prop :=
  Leaves runnerExec SiteInv (Rely task) (Guarantee task) (Current task) p Q s

/-- The locations of the task hold the same, except perhaps at the paths `p` selects. -/
def SameBut (task : Task) (p : String → Prop) (s s' : Site) : Prop :=
  ∀ path, ¬ p path → s'.read task.id path = s.read task.id path

section Rules

variable {α : Type} {op : RunnerOp} {report : String → String}

theorem works_request {Q : RunnerReply → Site → Prop} (hop : op.Within task)
    (hcurrent : Current task s)
    (h : ∀ s' c, SameBut task (fun _ => False) s s' → Q (runnerExec c op s').2 (runnerExec c op s').1) :
    Works task (request op) Q s := by
  refine leaves_ask ?_
  intro s' hrely hinv c
  rcases hinv.changes (hrely.current hcurrent) (changes_exec hop) with ⟨hG, hI, hcurrent'⟩
  exact ⟨hG, hI, hcurrent', h s' c fun path _ => hrely.read path⟩

theorem works_perform {Q : Site → Prop} (hop : op.Within task) (hcurrent : Current task s)
    (h : ∀ s' c, SameBut task (fun _ => False) s s' →
      (∀ text, (runnerExec c op s').2 ≠ .failed text) → Q (runnerExec c op s').1) :
    Works task (perform report op) (fun _ s => Q s) s := by
  refine leaves_bind (works_request hop hcurrent ?_)
  intro s' c hsame hcurrent'
  cases hreply : (runnerExec c op s').2 with
  | failed text => exact leaves_throw hcurrent'
  | _ =>
    exact leaves_pure hcurrent' (h s' c hsame fun text => by rw [hreply]; nofun)

theorem works_readContent {Q : Content → Site → Prop} (hop : op.Within task)
    (hcurrent : Current task s)
    (h : ∀ s' c content, SameBut task (fun _ => False) s s' →
      (runnerExec c op s').2 = .content content → Q content (runnerExec c op s').1) :
    Works task (readContent report op) Q s := by
  refine leaves_bind (works_request hop hcurrent ?_)
  intro s' c hsame hcurrent'
  cases hreply : (runnerExec c op s').2 with
  | content content => exact leaves_pure hcurrent' (h s' c content hsame hreply)
  | _ => exact leaves_throw hcurrent'

theorem works_silent (hop : op.Within task) (hsilent : op.silent = true)
    (hcurrent : Current task s) :
    Works task (perform report op) (fun _ s' => SameBut task (fun _ => False) s s') s := by
  refine works_perform hop hcurrent ?_
  intro s' c hsame _
  rw [exec_silent hsilent]
  exact hsame

theorem works_silent_content (hop : op.Within task) (hsilent : op.silent = true)
    (hcurrent : Current task s) :
    Works task (readContent report op) (fun _ s' => SameBut task (fun _ => False) s s') s := by
  refine works_readContent hop hcurrent ?_
  intro s' c content hsame _
  rw [exec_silent hsilent]
  exact hsame

theorem works_checked {x : Except String α} {Q : α → Site → Prop} (hcurrent : Current task s)
    (h : ∀ a, x = .ok a → Q a s) : Works task (checked x) Q s :=
  leaves_except hcurrent h

end Rules

/-! ## Signing -/

theorem sameBut_trans {s₁ s₂ s₃ : Site} (h : SameBut task p s₁ s₂)
    (h' : SameBut task p s₂ s₃) : SameBut task p s₁ s₃ :=
  fun path hp => (h' path hp).trans (h path hp)

theorem SameBut.mono {q : String → Prop} (h : SameBut task p s s') (hpq : ∀ path, p path → q path) :
    SameBut task q s s' :=
  fun path hq => h path fun hp => hq (hpq path hp)

theorem sameBut_write :
    SameBut task (· = path) s (s.change task (Files.write (task.id, path) content s.files)) := by
  intro other hother
  refine Files.read_write_of_ne ?_
  intro heq
  exact hother (Prod.mk.inj heq).2

theorem read_write :
    (s.change task (Files.write (task.id, path) content s.files)).read task.id path = some content :=
  Files.read_write_self

theorem sameBut_refl : SameBut task p s s :=
  fun _ _ => rfl

section Effects

variable {c : RunnerChoice} {root : Root} {path : String} {content : Content}

theorem sameBut_exec (op : RunnerOp) (hop : op.Within task) (htarget : op.target? = some path) :
    SameBut task (· = path) s (runnerExec c op s).1 := by
  rcases exec_cases hop c with heq | ⟨other, content, hother, heq⟩ | ⟨_, hnone, _⟩
  · rw [heq]
    exact sameBut_refl
  · rw [heq, Option.some.inj (htarget.symm.trans hother)]
    exact sameBut_write
  · rw [htarget] at hnone
    cases hnone

theorem exec_outputDigest
    (h : (runnerExec c (.outputDigest task .output path) s).2 = .content content) :
    s.read task.id path = some content := by
  simp only [runnerExec] at h
  unfold Site.read
  cases hread : Files.read s.files (task.id, path) with
  | none =>
    rw [hread] at h
    cases h
  | some stored =>
    rw [hread] at h
    dsimp only at h
    have hanswered : ∀ text, (c.conclude s s (.content stored)).2 ≠ .failed text := by
      intro text hfailed
      rw [hfailed] at h
      cases h
    rw [(conclude_of_answered hanswered).2] at h
    cases h
    rfl

/-- An upload that succeeds leaves the object there and changes none that was there before. -/
theorem exec_upload (h : ∀ text, (runnerExec c (.upload task path content) s).2 ≠ .failed text) :
    (runnerExec c (.upload task path content) s).1.read task.id path = some content ∧
      ∀ other stored, s.read task.id other = some stored →
        (runnerExec c (.upload task path content) s).1.read task.id other = some stored := by
  simp only [runnerExec] at *
  cases hread : Files.read s.files (task.id, path) with
  | none =>
    rw [hread] at h
    rw [(conclude_of_answered h).2]
    refine ⟨read_write, ?_⟩
    intro other stored hstored
    have hne : other ≠ path := by
      rintro rfl
      exact absurd (hstored.symm.trans hread) (by simp)
    exact (sameBut_write other hne).trans hstored
  | some found =>
    rw [hread] at h
    dsimp only at h ⊢
    by_cases hsame : found = content
    · rw [if_pos hsame] at h ⊢
      rw [(conclude_of_answered h).2]
      exact ⟨by rw [← hsame]; exact hread, fun _ _ hstored => hstored⟩
    · rw [if_neg hsame] at h
      exact absurd rfl (h _)

end Effects

/-- The path of a package, unlike the other names at a location. -/
def PackagePath (path : String) : Prop :=
  ".gpkg.tar".toList.isSuffixOf path.toList = true

theorem packagePath_of_valid {a : Artifact} {output : Bool}
    (h : validateArtifact a output = .ok ()) : PackagePath a.relativePath := by
  replace h := passed h
  rcases require_bind_eq_ok.mp h with ⟨hclean, h⟩
  rcases require_bind_eq_ok.mp h with ⟨hsuffix, _⟩
  simp only [Bool.and_eq_true, decide_eq_true_eq] at hclean
  rw [hclean.2] at hsuffix
  exact hsuffix

/-- The outputs are at the location of the task. -/
def Signed (task : Task) (outputs : List Artifact) (s : Site) : Prop :=
  ∀ o ∈ outputs, s.read task.id o.relativePath = some o.signed

theorem Signed.beside (h : Signed task outputs s)
    (hpackages : ∀ o ∈ outputs, PackagePath o.relativePath) {name : String}
    (hname : ¬ PackagePath name) (hsame : SameBut task (· = name) s s') :
    Signed task outputs s' := by
  intro o ho
  rw [hsame _ fun heq => hname (heq ▸ hpackages o ho)]
  exact h o ho

theorem Signed.same (h : Signed task outputs s) (hsame : SameBut task (fun _ => False) s s') :
    Signed task outputs s' := by
  intro o ho
  rw [hsame _ not_false]
  exact h o ho

theorem works_signArtifact {input : Artifact}
    (hcurrent : Current task s) :
    Works task (signArtifact task root input remaining)
      (fun output s' => output.relativePath = input.relativePath ∧ PackagePath input.relativePath ∧
        (root = .output → s'.read task.id input.relativePath = some output.signed) ∧
        SameBut task (· = input.relativePath) s s') s := by
  have hnone : ∀ path, False → path = input.relativePath := fun _ h => h.elim
  refine leaves_bind (works_checked hcurrent ?_)
  intro _ hvalid hcurrent
  refine leaves_bind (leaves_imp (works_silent trivial rfl hcurrent) ?_)
  intro _ s₁ h₁ hcurrent
  refine leaves_bind (leaves_imp (works_silent_content trivial rfl hcurrent) ?_)
  intro source s₂ h₂ hcurrent
  refine leaves_bind (works_checked hcurrent fun _ _ hcurrent => ?_)
  refine leaves_bind (works_checked hcurrent fun _ _ hcurrent => ?_)
  refine leaves_bind (leaves_imp (works_silent trivial rfl hcurrent) ?_)
  intro _ s₃ h₃ hcurrent
  have hbefore : SameBut task (· = input.relativePath) s s₃ :=
    (sameBut_trans (sameBut_trans h₁ h₂) h₃).mono hnone
  refine leaves_bind (works_perform rfl hcurrent ?_)
  intro s₄ c hsame _ hcurrent
  have hcopy := sameBut_trans (sameBut_trans hbefore (hsame.mono hnone))
    (sameBut_exec (c := c) (.copyRegularFile task root _ source) rfl rfl)
  refine leaves_bind (works_perform rfl hcurrent ?_)
  intro s₆ c hsame _ hcurrent
  have hsign := sameBut_trans (sameBut_trans hcopy (hsame.mono hnone))
    (sameBut_exec (c := c) (.signGPKG task root _) rfl rfl)
  refine leaves_bind (works_readContent rfl hcurrent ?_)
  intro s₈ c output hsame hreply hcurrent
  rw [exec_silent rfl] at hcurrent ⊢
  refine leaves_bind (works_checked hcurrent fun _ _ hcurrent => ?_)
  refine leaves_pure hcurrent ⟨rfl, packagePath_of_valid hvalid, ?_, ?_⟩
  · rintro rfl
    exact exec_outputDigest hreply
  · exact sameBut_trans hsign (hsame.mono hnone)

/-- The loop: what has been signed is not touched by the packages that follow, since no two of them
have the same path. -/
theorem works_signArtifacts
    (hkeyed : Keyed Artifact.relativePath inputs) (hcurrent : Current task s) :
    Works task (signArtifacts task root remaining inputs)
      (fun outputs s' => (root = .output → Signed task outputs s') ∧
        (∀ o ∈ outputs, PackagePath o.relativePath) ∧
        SameBut task (fun path => path ∈ inputs.map Artifact.relativePath) s s') s := by
  induction inputs generalizing s remaining with
  | nil =>
    refine leaves_pure hcurrent ⟨?_, ?_, sameBut_refl⟩
    · exact fun _ o ho => absurd ho not_mem_nil
    · exact fun o ho => absurd ho not_mem_nil
  | cons input rest ih =>
    rcases nodup_cons.mp hkeyed with ⟨hnew, hrest⟩
    refine leaves_bind (leaves_imp (works_silent trivial rfl hcurrent) ?_)
    intro _ s₁ h₁ hcurrent
    refine leaves_bind (leaves_imp (works_signArtifact hcurrent) ?_)
    rintro output s₂ ⟨hpath, hpackage, hsigned, h₂⟩ hcurrent
    refine leaves_bind (leaves_imp (ih hrest hcurrent) ?_)
    rintro outputs s₃ ⟨hrestSigned, hpackages, h₃⟩ hcurrent
    refine leaves_pure hcurrent ⟨?_, ?_, ?_⟩
    · intro hroot o ho
      rcases mem_cons.mp ho with rfl | ho
      · rw [hpath, h₃ _ hnew]
        exact hsigned hroot
      · exact hrestSigned hroot o ho
    · intro o ho
      rcases mem_cons.mp ho with rfl | ho
      · rw [hpath]
        exact hpackage
      · exact hpackages o ho
    · intro path hmem
      simp only [map_cons, mem_cons, not_or] at hmem
      rw [h₃ path hmem.2, h₂ path hmem.1, h₁ path not_false]

theorem not_packagePath_names : ¬ PackagePath packagesName ∧ ¬ PackagePath capabilityMarkerName := by
  unfold PackagePath
  decide

theorem works_processRoots {activate : Bool}
    (hkeyed : Keyed Artifact.relativePath task.artifacts) (hcurrent : Current task s) :
    Works task (processRoots task root activate)
      (fun outputs s' => root = .output → Signed task outputs s') s := by
  refine leaves_bind (works_perform rfl hcurrent fun _ _ _ _ hcurrent => ?_)
  refine leaves_bind (works_perform trivial hcurrent fun _ _ _ _ hcurrent => ?_)
  refine leaves_onError ?_ ?_
  · refine leaves_bind (leaves_imp (works_signArtifacts hkeyed hcurrent) ?_)
    rintro outputs s₁ ⟨hsigned, hpackages, _⟩ hcurrent
    refine leaves_bind (works_perform rfl hcurrent ?_)
    intro s₂ c hsame _ hcurrent
    have hindexed : root = .output →
        Signed task outputs (runnerExec c (.regenerateIndex task root) s₂).1 := fun hroot =>
      ((hsigned hroot).same hsame).beside hpackages not_packagePath_names.1
        (sameBut_exec _ rfl rfl)
    cases activate with
    | false =>
      refine leaves_bind (leaves_pure hcurrent ?_)
      exact fun hcurrent => leaves_pure hcurrent hindexed
    | true =>
      refine leaves_bind (works_perform rfl hcurrent ?_)
      intro s₃ c' hsame _ hcurrent
      refine leaves_pure hcurrent fun hroot => ?_
      exact ((hindexed hroot).same hsame).beside hpackages not_packagePath_names.2
        (sameBut_exec _ rfl rfl)
  · -- the deferred removal
    intro s₁ hcurrent s' hrely hinv c
    have hwithin : (RunnerOp.removeAll task root).Within task := rfl
    exact hinv.changes (hrely.current hcurrent) (changes_exec hwithin)

theorem works_downloadInputs (hcurrent : Current task s) :
    Works task (downloadInputs inputs) (fun _ _ => True) s := by
  induction inputs generalizing s with
  | nil => exact leaves_pure hcurrent trivial
  | cons input rest ih =>
    exact leaves_bind (works_perform trivial hcurrent fun _ _ _ _ hcurrent => ih hcurrent)

theorem works_uploadOutputs (stored : List Artifact) (hcurrent : Current task s)
    (hstored : Signed task stored s) :
    Works task (uploadOutputs task outputs) (fun _ s' => Signed task (outputs ++ stored) s') s := by
  induction outputs generalizing s stored with
  | nil => exact leaves_pure hcurrent hstored
  | cons output rest ih =>
    refine leaves_bind (works_perform rfl hcurrent ?_)
    intro s₁ c hsame hanswered hcurrent
    rcases exec_upload hanswered with ⟨hread, hkept⟩
    refine leaves_imp (ih (output :: stored) hcurrent ?_) ?_
    · intro o ho
      rcases mem_cons.mp ho with rfl | ho
      · exact hread
      · exact hkept _ _ ((hstored.same hsame) o ho)
    · intro _ s' hsigned o ho
      refine hsigned o ?_
      simp only [cons_append, mem_cons, mem_append] at ho ⊢
      tauto

theorem works_upload {report : String → String} (hcurrent : Current task s)
    (hsigned : Signed task outputs s) :
    Works task (perform report (.upload task path content))
      (fun _ s' => Signed task outputs s') s := by
  refine works_perform rfl hcurrent ?_
  intro s' c hsame hanswered o ho
  exact (exec_upload hanswered).2 _ _ ((hsigned.same hsame) o ho)

theorem works_processObject (hkeyed : Keyed Artifact.relativePath task.artifacts)
    (hcurrent : Current task s) :
    Works task (processObject task) (fun outputs s' => Signed task outputs s') s := by
  refine leaves_bind (works_perform trivial hcurrent fun _ _ _ _ hcurrent => ?_)
  refine leaves_bind (leaves_imp (works_downloadInputs hcurrent) fun _ _ _ hcurrent => ?_)
  refine leaves_bind (leaves_imp (works_processRoots hkeyed hcurrent) ?_)
  intro outputs s₁ _ hcurrent
  refine leaves_bind (leaves_imp (works_uploadOutputs [] hcurrent ?_) ?_)
  · exact fun o ho => absurd ho not_mem_nil
  intro _ s₂ hsigned hcurrent
  rw [append_nil] at hsigned
  refine leaves_bind (leaves_imp (works_silent_content trivial rfl hcurrent) ?_)
  intro packages s₃ hsame hcurrent
  refine leaves_bind (leaves_imp (works_upload hcurrent (hsigned.same hsame)) ?_)
  intro _ s₄ hsigned hcurrent
  refine leaves_bind (leaves_imp (works_silent_content trivial rfl hcurrent) ?_)
  intro manifest s₅ hsame hcurrent
  refine leaves_bind (leaves_imp (works_silent trivial rfl hcurrent) ?_)
  intro _ s₆ hsame' hcurrent
  refine leaves_bind (leaves_imp (works_upload hcurrent ((hsigned.same hsame).same hsame')) ?_)
  exact fun _ _ hsigned hcurrent => leaves_pure hcurrent hsigned

theorem works_process (hkeyed : Keyed Artifact.relativePath task.artifacts)
    (hcurrent : Current task s) :
    Works task (process runner task) (fun outputs s' => Signed task outputs s') s := by
  unfold process
  cases runner.mode with
  | objectStore => exact works_processObject hkeyed hcurrent
  | localDirectory =>
    refine leaves_bind (works_checked hcurrent fun _ _ hcurrent => ?_)
    exact leaves_imp (works_processRoots hkeyed hcurrent) fun _ _ hsigned => hsigned rfl

theorem works_deletePaths {paths : List String} (hcurrent : Current task s) :
    Works task (deletePaths task paths) (fun _ _ => True) s := by
  induction paths generalizing s with
  | nil => exact leaves_pure hcurrent trivial
  | cons path rest ih =>
    exact leaves_bind (works_perform rfl hcurrent fun _ _ _ _ hcurrent => ih hcurrent)

theorem works_removeOutput (hcurrent : Current task s) :
    Works task (removeOutput runner task) (fun _ _ => True) s := by
  unfold removeOutput
  cases runner.mode with
  | localDirectory => exact works_perform rfl hcurrent fun _ _ _ _ => trivial
  | objectStore =>
    refine leaves_bind (works_request rfl hcurrent ?_)
    intro s' c _ hcurrent
    cases (runnerExec c (.list task) s').2 with
    | paths paths => exact works_deletePaths hcurrent
    | _ => exact leaves_throw hcurrent

end PortageEngine.Signing
