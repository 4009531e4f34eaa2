import PortageEngine.Machines.WorkspaceWork

/-!
# Terraform state outlives the machine

While a VM exists, the workspace that it was created from holds its Terraform state and the identity
file, and no superseded executor destroys a VM that the current claim holder has recorded as running.
This holds in every run of the executors of an attempt in which

* the operations that take no lock, and those that restore a running machine, do not overlap with
  other operations on the workspace (any number of `Provision`s may overlap),
* `Terminate` and the removal of a recorded workspace are started under the current claim,
* the callback refuses a registration only while the Terraform state is empty, and
* the directory is removed only while nobody else has its lock file open.

Without these conditions it does not hold: a refused registration removes the directory whatever is in
it, and a superseded replica destroys what it tracks without asking.
-/

namespace PortageEngine.Machines

open List Library Library.Runs Library.Process Library.Process.Env
open Storage (Outcome)

/-! ## Provision -/

section Provision

variable {o : Operation} {r : ProvisionRequest} {P : Option Workspace → Prop}

theorem triple_prepareProvisionWorkspace (htask : o.task = .provision) :
    (siteEnv o).Triple (fun _ => True) (prepareProvisionWorkspace o) (fun _ => Owns o fun _ => True)
      fun _ => True := by
  refine Triple.bind (triple_demand spec_mkdirAll) fun _ => ?_
  refine Triple.bind (triple_demand (spec_openLock stable_true fun _ _ _ hw => opened_opens hw))
    fun _ => ?_
  refine Triple.onError (triple_demand (spec_flock (stable_opened htask) ?_)) ?_
  · exact fun _ _ h heq => ⟨fun _ => h.locked heq, trivial⟩
  · exact spec_attempt (spec_close stable_true fun _ _ => trivial)

theorem triple_writeProvisionWorkspace :
    (siteEnv o).Triple (Owns o fun _ => True) (writeProvisionWorkspace r o)
      (fun _ => Owns o Identified) fun _ => True := by
  have hwrite : ∀ file message, (siteEnv o).Triple (Owns o fun _ => True)
      (o.demand (.write file) message) (fun _ => Owns o fun _ => True) fun _ => True :=
    fun _ _ => triple_demand (spec_write fun _ _ => trivial)
  have hidentity : (siteEnv o).Triple (Owns o fun _ => True)
      (o.demand (.write .identity) "write infrastructure resource identity")
      (fun _ => Owns o Identified) fun _ => True :=
    triple_demand (spec_write fun _ _ => ⟨_, rfl, mem_cons_self⟩)
  refine Triple.bind (hwrite _ _) fun _ => ?_
  refine Triple.bind (hwrite _ _) fun _ => ?_
  by_cases hegress : r.egressPolicy.isSome = true
  · simp only [hegress, if_true]
    exact Triple.bind (hwrite _ _) fun _ => hidentity
  · simp only [hegress]
    exact hidentity

theorem spec_unregister : (siteEnv o).Spec (Owns o Vacant) (unregister o) fun _ _ => True := by
  refine Spec.bind (spec_attempt (spec_quiet rfl stable_owns fun _ _ h => h)) fun _ => ?_
  exact spec_attempt (spec_removeAll (fun _ _ => trivial) fun _ _ _ => trivial)

theorem triple_registerProvisioningInstance (htask : o.task = .provision) :
    (siteEnv o).Triple (Owns o Identified) (registerProvisioningInstance o)
      (fun _ => Registered o Identified) fun _ => True := by
  refine Triple.bind (triple_quiet rfl stable_owns (fun _ _ h => h) fun _ _ => trivial) fun _ => ?_
  exact Triple.onError (triple_demand (spec_register htask)) spec_unregister

theorem triple_stage {stage : Stage} {message : String} :
    (siteEnv o).Triple (Registered o P) (o.demand (.stage stage) message) (fun _ => Registered o P)
      (Registered o P) :=
  triple_quiet rfl stable_registered (fun _ _ h => h) fun _ h => h

theorem triple_createInstance (htask : o.task = .provision) :
    (siteEnv o).Triple (Registered o Identified) (createInstance r o)
      (fun _ => Registered o Identified) (Registered o Identified) := by
  have hsave : (siteEnv o).Triple (Registered o Identified)
      (o.demand (.save o.fence .running) "persist running infrastructure state")
      (fun _ => Registered o Identified) (Registered o Identified) :=
    triple_demand (spec_save (fun _ => rfl) fun hne => absurd htask hne)
  have happly : (siteEnv o).Triple (Registered o Identified) (applyTerraform o)
      (fun _ => Registered o Identified) (Registered o Identified) :=
    Triple.bind (triple_quiet rfl stable_registered (fun _ _ h => h) fun _ h => h) fun _ =>
      triple_demand spec_apply
  have hegress : (siteEnv o).Triple (Registered o Identified) (enforceProvisionEgress r o)
      (fun _ => Registered o Identified) (Registered o Identified) := by
    unfold enforceProvisionEgress
    split
    · exact triple_stage
    · exact Triple.throw fun _ h => h
    · exact Triple.pure fun _ h => h
  refine Triple.bind happly fun _ => Triple.bind hegress fun _ => Triple.bind triple_stage fun _ => ?_
  unfold finishProvision
  by_cases hdeploys : r.deploys = true
  · simp only [hdeploys, if_true]
    exact Triple.bind triple_stage fun _ => hsave
  · simp only [hdeploys]
    exact hsave

theorem triple_destroyInstance :
    (siteEnv o).Triple (Registered o P) (destroyInstance r o) (fun _ => Registered o Vacant)
      (Registered o fun _ => True) := by
  refine Triple.bind (triple_demand spec_destroy) fun _ => ?_
  by_cases hpve : r.provider = .pve
  · simp only [hpve, if_true]
    exact triple_demand spec_ensureAbsent
  · simp only [hpve, if_false]
    exact Triple.pure fun _ h => h

theorem spec_rollback (htask : o.task = .provision) :
    (siteEnv o).Spec (Registered o P) (rollback r o) fun _ _ => True := by
  have hsave : ∀ (P : Option Workspace → Prop) state, (siteEnv o).Spec (Registered o P)
      (Prog.ask ⟨o, .save o.fence state⟩) (Replies (Registered o P) (Registered o P)) :=
    fun _ _ => spec_save (fun _ => rfl) fun hne => absurd htask hne
  refine Spec.bind triple_destroyInstance ?_
  intro result
  cases result with
  | error e =>
    exact spec_attempt ((hsave _ _).imp (fun _ h => h)
      (Replies.imp (fun _ _ => trivial) fun _ _ => trivial))
  | ok =>
    refine Spec.bind (hsave _ _) ?_
    have hremove : (siteEnv o).Spec (Registered o Vacant) (do
        o.attempt .untrack
        o.attempt .removeAll) fun _ _ => True := by
      refine Spec.bind (spec_attempt (spec_quiet rfl stable_registered fun _ _ h => h)) fun _ => ?_
      exact (spec_attempt (spec_removeAll (fun _ _ => trivial) fun _ _ _ => trivial)).imp
        (fun _ h => h.1) fun _ _ _ => trivial
    intro reply
    cases reply with
    | failed => exact Spec.pure fun _ _ => trivial
    | done | «instance» lifecycle => exact hremove

theorem Registered.confirmed {s : Site} (htask : o.task = .provision) (h : Registered o P s) :
    Confirmed o s :=
  (h.2.1 htask).ge

theorem Triple.closing {A B C : Site → Prop} {body : FallibleWork Unit}
    (h : (siteEnv o).Triple A body (fun _ => B) C) (hB : (siteEnv o).Stable B)
    (hB' : ∀ s, B s → B (s.closes o.ticket)) (hC : (siteEnv o).Stable C)
    (hC' : ∀ s, C s → C (s.closes o.ticket)) :
    (siteEnv o).Triple A (o.closing body) (fun _ => B) C := by
  refine Spec.bind h ?_
  intro result
  cases result with
  | ok => exact Spec.bind (spec_attempt (spec_close hB hB')) fun _ => Spec.pure fun _ h => h
  | error => exact Spec.bind (spec_attempt (spec_close hC hC')) fun _ => Spec.pure fun _ h => h

theorem triple_provision (htask : o.task = .provision) :
    (siteEnv o).Triple (fun _ => True) (provision r o) (fun _ => Confirmed o) fun _ => True := by
  have hlocked : (siteEnv o).Triple (Owns o fun _ => True) (provisionLocked r o)
      (fun _ => Confirmed o) fun _ => True := by
    refine Triple.bind triple_writeProvisionWorkspace fun _ => ?_
    refine Triple.bind (triple_registerProvisioningInstance htask) fun _ => ?_
    refine (Triple.onError (triple_createInstance htask) (spec_rollback htask)).imp (fun _ h => h)
      (fun _ _ h => h.confirmed htask) fun _ h => h
  have hclosing := Triple.closing hlocked stable_confirmed (fun _ h => h) stable_true
    fun _ _ => trivial
  unfold provision
  by_cases hsupported : r.provider.supported = true
  · simp only [hsupported, Bool.not_true]
    exact Triple.bind (triple_prepareProvisionWorkspace htask) fun _ => hclosing
  simp only [hsupported]
  exact Triple.bind (B := fun _ _ => True) (Triple.throw fun _ h => h) fun _ =>
    Triple.bind (triple_prepareProvisionWorkspace htask) fun _ => hclosing

theorem triple_provisionPhase (htask : o.task = .provision) :
    (siteEnv o).Triple (fun _ => True) (provisionPhase r o) (fun _ _ => True) fun _ => True := by
  have hconfirmed : ∀ stage message, (siteEnv o).Triple (Confirmed o)
      (o.demand (.stage stage) message) (fun _ => Confirmed o) fun _ => True :=
    fun _ _ => triple_quiet rfl stable_confirmed (fun _ _ h => h) fun _ _ => trivial
  refine Triple.bind (triple_quiet rfl stable_true (fun _ _ h => h) fun _ h => h) fun _ => ?_
  refine Triple.bind (triple_quiet rfl stable_true (fun _ _ h => h) fun _ h => h) fun _ => ?_
  refine Triple.bind (triple_provision htask) fun _ => ?_
  refine Triple.bind (hconfirmed _ _) fun _ => Triple.bind (hconfirmed _ _) fun _ => ?_
  by_cases hinbound : (decide (r.provider = .pve) && decide (r.egressPolicy = some .enforce)) = true
  · simp only [hinbound, if_true]
    exact Triple.bind (hconfirmed _ _) fun _ => triple_demand spec_confirm
  · simp only [hinbound]
    exact triple_demand spec_confirm

end Provision

/-! ## The other operations -/

section Others

variable {o : Operation} {r : ProvisionRequest} {P : Option Workspace → Prop}

theorem triple_restoreProvisioned (htask : o.task ≠ .provision) :
    (siteEnv o).Triple (fun _ => True) (restoreProvisioned o) (fun _ _ => True) fun _ => True := by
  have hstage : ∀ stage message, (siteEnv o).Triple (fun _ => True) (o.demand (.stage stage) message)
      (fun _ _ => True) fun _ => True :=
    fun _ _ => triple_quiet rfl stable_true (fun _ _ h => h) fun _ h => h
  refine Triple.bind (hstage _ _) fun _ => Triple.bind (hstage _ _) fun _ => triple_demand ?_
  refine spec_call nofun stable_true ?_ fun _ _ _ => trivial
  intro s s' hinv _ _ hs
  rcases perform_save hs with ⟨_, rfl⟩
  exact ⟨guarantee_save hinv (fun h => absurd h htask), hinv.save _, trivial, fun _ => trivial⟩

variable {lifecycle : Option Nat}

theorem triple_notify (htask : o.task ≠ .provision) {state : InstanceState}
    (hstate : state ≠ .running) :
    (siteEnv o).Triple (Registered o P) (notify o lifecycle state) (fun _ => Registered o P)
      (Registered o P) := by
  cases lifecycle with
  | none => exact Triple.pure fun _ h => h
  | some fence => exact triple_demand (spec_save (fun h => absurd h htask) fun _ => hstate)

theorem triple_terminateTracked (htask : o.task ≠ .provision) :
    (siteEnv o).Triple (Registered o P) (terminateTracked r o lifecycle) (fun _ _ => True)
      fun _ => True := by
  refine Spec.bind triple_destroyInstance ?_
  intro result
  cases result with
  | error e =>
    refine Spec.bind (triple_notify htask nofun) ?_
    intro result
    exact Spec.pure fun _ _ => trivial
  | ok =>
    refine Spec.bind (triple_notify htask nofun) ?_
    intro result
    cases result with
    | error e => exact Spec.pure fun _ _ => trivial
    | ok =>
      refine Spec.bind (B := fun _ _ => True) ?_ fun _ => Spec.bind (B := fun _ _ => True) ?_
        fun _ => Spec.pure fun _ h => h
      · exact (spec_attempt (spec_removeAll (fun _ _ => trivial) fun _ _ _ => trivial)).imp
          (fun _ h => h.1) fun _ _ _ => trivial
      · exact spec_attempt (spec_quiet rfl stable_true fun _ _ h => h)

theorem triple_terminate (htask : o.task ≠ .provision) :
    (siteEnv o).Triple (Registered o fun _ => True) (terminate r o) (fun _ _ => True)
      fun _ => True := by
  have hlookup : (siteEnv o).Spec (Registered o fun _ => True) (Prog.ask ⟨o, .lookup⟩)
      fun _ => Registered o fun _ => True := by
    refine Env.ask stable_registered (inert) ?_ fun _ _ hrely hdead =>
      hrely.advances.crashed _ hdead
    intro c s hinv halive h
    have heq : ((siteEnv o).exec c ⟨o, .lookup⟩ s).1 = s := by
      have halive' : o.ticket ∉ s.crashed := halive
      simp [siteEnv, permittedExec, permitted, siteExec, halive']
    rw [heq]
    exact ⟨.refl, hinv, .inr h⟩
  refine Spec.bind hlookup ?_
  intro reply
  cases reply with
  | «instance» lifecycle => exact triple_terminateTracked htask
  | done | failed => exact Spec.pure fun _ _ => trivial

theorem registered_of_alone {s s' : Site} (htask : o.task ≠ .provision)
    (h : Registered o P s) (hcontext : s'.context = s.context) :
    Registered o (fun _ => True) s' := by
  refine ⟨⟨fun h => absurd h htask, trivial⟩, fun h => absurd h htask, ?_⟩
  rw [hcontext]
  exact h.2.2

theorem triple_destroyRecorded (htask : o.task ≠ .provision) :
    (siteEnv o).Triple (Registered o fun _ => True) (destroyRecorded r o)
      (fun _ => Registered o Vacant) fun _ => True := by
  have hbody : (siteEnv o).Triple (Registered o fun _ => True) (destroyRecordedOpened r o)
      (fun _ => Registered o Vacant) fun _ => True := by
    refine Triple.bind (triple_demand (spec_flock stable_registered fun _ _ h _ =>
      registered_of_alone htask h rfl)) fun _ => ?_
    have hdestroy : (siteEnv o).Triple (Registered o fun _ => True) (destroyInstance r o)
        (fun _ => Registered o Vacant) fun _ => True :=
      triple_destroyInstance.imp (fun _ h => h) (fun _ _ h => h) fun _ _ => trivial
    refine Triple.bind (triple_quiet rfl stable_registered (fun _ _ h => h) fun _ _ => trivial)
      fun _ => Triple.bind hdestroy fun _ => ?_
    exact triple_quiet rfl stable_registered (fun _ _ h => h) fun _ _ => trivial
  have hclosing := Triple.closing hbody stable_registered
    (fun s h => ⟨⟨fun h' => absurd h' htask, h.1.2⟩, h.2⟩) stable_true fun _ _ => trivial
  have hrest : (siteEnv o).Triple (Registered o fun _ => True) (do
      o.demand .stat "inspect recorded terraform workspace"
      o.demand .openLock "open recorded workspace lock"
      o.closing (destroyRecordedOpened r o)) (fun _ => Registered o Vacant) fun _ => True := by
    refine Triple.bind (triple_quiet rfl stable_registered (fun _ _ h => h) fun _ _ => trivial)
      fun _ => Triple.bind (triple_demand (spec_openLock stable_registered ?_)) fun _ => hclosing
    intro s w h hw
    rcases opens_eq (o := o) hw with ⟨_, _, _, _, _, hcontext, _⟩
    exact registered_of_alone htask h hcontext
  unfold destroyRecorded
  by_cases hsupported : r.provider.supported = true
  · simp only [hsupported, Bool.not_true]
    exact hrest
  simp only [hsupported]
  exact Triple.bind (B := fun _ => Registered o fun _ => True) (Triple.throw fun _ _ => trivial)
    fun _ => hrest

theorem triple_runOneInfraCleanup (htask : o.task ≠ .provision) :
    (siteEnv o).Triple (Registered o fun _ => True) (runOneInfraCleanup r o) (fun _ _ => True)
      fun _ => True := by
  refine Spec.bind (triple_destroyRecorded htask) ?_
  intro result
  cases result with
  | error e =>
    exact Spec.bind (spec_attempt (spec_quiet rfl stable_true fun _ _ h => h)) fun _ =>
      Spec.pure fun _ h => h
  | ok =>
    have hremove : (siteEnv o).Triple (Registered o Vacant) (removeRecordedWorkspace o)
        (fun _ _ => True) fun _ => True :=
      (triple_demand (spec_removeAll (fun _ _ => trivial) fun _ _ _ => trivial)).imp
        (fun _ h => h.1) (fun _ _ h => h) fun _ h => h
    refine Spec.bind (spec_quiet rfl stable_registered fun _ _ h => h) ?_
    intro reply
    cases reply with
    | failed => exact Spec.pure fun _ _ => trivial
    | done | «instance» lifecycle => exact hremove

end Others

/-! ## Executors -/

/-- Two `Provision`s. -/
def Concurrent (a b : Operation) : Prop :=
  a.task = .provision ∧ b.task = .provision

instance : DecidableRel Concurrent := fun a b =>
  inferInstanceAs (Decidable (a.task = .provision ∧ b.task = .provision))

def Apart (a b : Operation) : Prop :=
  Concurrent a b ∧ a.ticket ≠ b.ticket

def permittedAct (e : Action) (s : Site) : Site × Option Operation :=
  guardedAct startsCurrent Site.act e s

/-- What an action may do, with the operation that it starts. -/
structure Acts (s : Site) (a : Site × Option Operation) : Prop where
  inv : SiteInv a.1
  others : ∀ o, Rely o s a.1
  harmless : ∀ o ∈ a.2.toList, o.task = .terminate ∨ o.task = .reclaim →
    Registered o (fun _ => True) a.1
  fresh : ∀ o ∈ a.2.toList, o.ticket = s.started
  started : s.started ≤ a.1.started ∧ ∀ o ∈ a.2.toList, o.ticket < a.1.started

section Actions

variable {s : Site}

theorem rely_of_same {s' : Site} (hhandles : s'.handles = s.handles)
    (hworkspace : s'.workspace = s.workspace) (hcontext : s'.context = s.context)
    (hcrashed : s'.crashed = s.crashed) (o : Operation) : Rely o s s' := by
  have hfence : s'.contextFence = s.contextFence := by unfold Site.contextFence; rw [hcontext]
  have hlock : s'.lockFile = s.lockFile := by unfold Site.lockFile; rw [hworkspace]
  refine ⟨⟨fun t ht => hcrashed ▸ ht, hfence.ge⟩, fun _ _ => ?_, fun _ => ⟨hworkspace, hcontext⟩⟩
  exact ⟨(Opened.same hhandles hlock).mpr,
    fun hholds => ⟨(Holds.same hhandles hlock).mpr hholds, hworkspace, hfence⟩⟩

theorem acts_of_none {s' : Site} (hinv : SiteInv s') (hothers : ∀ o, Rely o s s')
    (hstarted : s'.started = s.started) : Acts s (s', none) where
  inv := hinv
  others := hothers
  harmless _ ho := absurd ho not_mem_nil
  fresh _ ho := absurd ho not_mem_nil
  started := ⟨hstarted.ge, fun _ ho => absurd ho not_mem_nil⟩

theorem SiteInv.acts_start (hinv : SiteInv s) {replica fence : Nat} {task : Task}
    (hfence : task = .terminate ∨ task = .reclaim → fence = s.claim) :
    Acts s (s.start replica fence task) := by
  unfold Site.start
  by_cases hle : fence ≤ s.claim
  · rw [if_pos hle]
    refine ⟨{ hinv with }, rely_of_same rfl rfl rfl rfl, ?_, ?_, Nat.le_succ _, ?_⟩
    · intro o ho htask
      cases mem_singleton.mp ho
      have hne : task ≠ .provision := by
        rcases htask with rfl | rfl <;> nofun
      refine ⟨⟨fun h => absurd h hne, trivial⟩, fun h => absurd h hne, ?_⟩
      intro _ i hi _
      change s.context = some i at hi
      have hcontext := hinv.fence_le
      simp only [Site.contextFence, hi, Option.map_some, Option.getD_some] at hcontext
      exact hcontext.trans (hfence htask).ge
    · intro o ho
      cases mem_singleton.mp ho
      rfl
    · intro o ho
      cases mem_singleton.mp ho
      exact Nat.lt_succ_self _
  · rw [if_neg hle]
    exact acts_of_none hinv (fun _ => .refl) rfl

theorem SiteInv.acts (hinv : SiteInv s) (e : Action) : Acts s (permittedAct e s) := by
  unfold permittedAct guardedAct
  by_cases hok : startsCurrent e s = true
  · rw [if_pos hok]
    cases e with
    | claim =>
      refine acts_of_none { hinv with fence_le := hinv.fence_le.trans (Nat.le_succ _) } ?_ rfl
      exact rely_of_same rfl rfl rfl rfl
    | execute replica fence =>
      refine hinv.acts_start ?_
      split <;> rintro (h | h) <;> cases h
    | terminate replica fence | reclaim replica fence =>
      exact hinv.acts_start fun _ => of_decide_eq_true hok
    | crash ticket =>
      refine acts_of_none (hinv.crash ticket) ?_ rfl
      intro o
      refine ⟨⟨fun _ ht => mem_cons_of_mem _ ht, Nat.le_refl _⟩, ?_, fun _ => ⟨rfl, rfl⟩⟩
      intro halive _
      exact undisturbed_crash fun heq => halive (heq ▸ mem_cons_self)
    | restart replica persisted =>
      exact acts_of_none { hinv with } (rely_of_same rfl rfl rfl rfl) rfl
  · rw [if_neg hok]
    exact acts_of_none hinv (fun _ => .refl) rfl

end Actions

variable {r : ProvisionRequest}

theorem site_rules :
    CrewRules permittedExec permittedAct (operate r) SiteInv Rely Guarantee Apart where
  symm _ _ h := ⟨⟨h.1.2, h.1.1⟩, h.2.symm⟩
  refl _ _ := .refl
  trans _ _ _ _ h₁ h₂ := h₁.trans h₂
  rely _ _ _ _ hapart _ hG :=
    ⟨hG.advances, fun _ _ => hG.others hapart.1.2 _ hapart.2, fun hne => absurd hapart.1.1 hne⟩
  other e o _ hinv _ := (hinv.acts e).others o
  inv e _ hinv := (hinv.acts e).inv
  start e s hinv o ho := by
    have hacts := hinv.acts e
    have htriple : ∀ (A : Site → Prop) (p : FallibleWork Unit),
        (siteEnv o).Triple A p (fun _ _ => True) (fun _ => True) → A (permittedAct e s).1 →
          Safe permittedExec SiteInv (Rely o) (Guarantee o) (fun _ _ => True) p.run
            (permittedAct e s).1 :=
      fun A p h hA => Safe.imp (h _ (.inr hA)) fun _ _ _ => trivial
    unfold operate
    cases htask : o.task with
    | provision => exact htriple _ _ (triple_provisionPhase htask) trivial
    | restore => exact htriple _ _ (triple_restoreProvisioned (by rw [htask]; nofun)) trivial
    | terminate =>
      exact htriple _ _ (triple_terminate (by rw [htask]; nofun)) (hacts.harmless o ho (.inl htask))
    | reclaim =>
      exact htriple _ _ (triple_runOneInfraCleanup (by rw [htask]; nofun))
        (hacts.harmless o ho (.inr htask))

/-! ## Runs -/

/-- The operations of the pool are safe, and their numbers have been handed out. -/
structure SiteSafe (pool : SitePool) : Prop where
  crew : CrewSafe permittedExec SiteInv Rely Guarantee Apart pool
  issued : ∀ j ∈ pool.jobs, j.label.ticket < pool.state.started

theorem started_perform {o : Operation} {call : Call} {s s' : Site} (h : s.perform o call = some s') :
    s'.started = s.started := by
  cases call with
  | mkdirAll | close | removeAll | track | untrack | lookup | stage | finishCleanup =>
    cases h
    rfl
  | openLock =>
    rcases Option.map_eq_some_iff.mp h with ⟨w, _, rfl⟩
    unfold Site.opens
    cases w.lockFile <;> rfl
  | flock =>
    rcases locks_eq h with ⟨_, _, _, _, rfl⟩
    rfl
  | stat | init | write | destroy =>
    rcases Option.map_eq_some_iff.mp h with ⟨_, _, rfl⟩
    rfl
  | apply =>
    rcases Option.bind_eq_some_iff.mp h with ⟨w, _, h⟩
    by_cases hmain : .main ∈ w.files
    · rw [if_pos hmain] at h
      cases h
      rcases applied_eq with ⟨_, _, _, heq, _⟩
      rw [heq]
    · rw [if_neg hmain] at h
      cases h
  | ensureAbsent =>
    simp only [Site.perform] at h
    split at h
    · cases h
      rfl
    split at h
    · cases h
      rfl
    · cases h
  | save =>
    rcases perform_save h with ⟨_, rfl⟩
    rfl

theorem started_permittedExec {c : Outcome} {q : Request} {s : Site} :
    (permittedExec c q s).1.started = s.started := by
  rcases q with ⟨o, call⟩
  by_cases hdead : o.ticket ∈ s.crashed
  · simp [permittedExec, permitted, siteExec, hdead]
  by_cases hlookup : call = .lookup
  · simp [permittedExec, permitted, siteExec, hdead, hlookup]
  rcases permittedExec_cases (c := c) hdead hlookup with
    heq | ⟨_, ⟨heq, _⟩ | ⟨s', hs', heq | ⟨heq, _⟩⟩⟩
  · rw [heq]
    rfl
  · rw [heq]
  · rw [heq]
    exact started_perform hs'
  · rw [heq]
    exact started_perform hs'

variable {m : Move Action Outcome} {pool : SitePool}

theorem SiteSafe.exclusive (h : SiteSafe pool)
    (hm : Exclusive permittedAct Concurrent pool m) : Exclusive permittedAct Apart pool m := by
  cases m with
  | act e =>
    intro o ho j hj hrunning
    refine ⟨hm o ho j hj hrunning, ?_⟩
    rw [(h.crew.inv.acts e).fresh o ho]
    exact Nat.ne_of_lt (h.issued j hj)
  | call i c | kill i => trivial

theorem SiteSafe.step (h : SiteSafe pool)
    (hm : Exclusive permittedAct Concurrent pool m) :
    SiteSafe (stepCrew permittedExec permittedAct (operate r) pool m) := by
  refine ⟨h.crew.step (site_rules) (h.exclusive hm), ?_⟩
  refine stepCrew_labels (I := SiteInv) (L := fun o s => o.ticket < s.started) ?_ ?_ ?_ h.crew.inv
    h.issued
  · intro c q o s _ ho
    rw [started_permittedExec]
    exact ho
  · exact fun e o s hinv ho => Nat.lt_of_lt_of_le ho (hinv.acts e).started.1
  · exact fun e s hinv o ho => (hinv.acts e).started.2 o ho

theorem siteSafe_init : SiteSafe SitePool.init := by
  refine ⟨⟨⟨?_, Nat.le_refl _, rfl, ?_, ?_⟩, ?_, List.Pairwise.nil⟩, ?_⟩
  · exact fun _ hm => absurd hm not_mem_nil
  · exact fun _ hh => absurd hh not_mem_nil
  · exact fun _ hh => absurd hh not_mem_nil
  · exact fun _ hj => absurd hj not_mem_nil
  · exact fun _ hj => absurd hj not_mem_nil

/-! ## State retention -/

/-- Every machine is in the Terraform state of its workspace, next to the identity file, and no
superseded executor has destroyed a machine that the current claim holder recorded as running, nor
removed its workspace. -/
structure StateRetained (s : Site) : Prop where
  kept : ∀ m ∈ s.machines, ∃ w, s.workspace = some w ∧ m ∈ w.resources ∧ .identity ∈ w.files
  clean : s.trespassed = false

def Orderly (pool : SitePool) (m : Move Action Outcome) : Prop :=
  Exclusive Site.act Concurrent pool m ∧ Obeys startsCurrent permitted pool m

instance (pool : SitePool) (m : Move Action Outcome) : Decidable (Orderly pool m) :=
  inferInstanceAs (Decidable (_ ∧ _))

theorem Orderly.exclusive (h : Orderly pool m) :
    Exclusive permittedAct Concurrent pool m := by
  cases m with
  | act e =>
    have heq : permittedAct e pool.state = Site.act e pool.state := if_pos h.2
    intro o ho
    rw [heq] at ho
    exact h.1 o ho
  | call i c | kill i => trivial

theorem state_retained_of_orderly (r : ProvisionRequest) (moves : List (Move Action Outcome))
    (horderly : Along (stepSite r) Orderly SitePool.init moves) :
    StateRetained (run (stepSite r) SitePool.init moves).state := by
  have hagrees : ∀ pool m, Orderly pool m →
      stepCrew permittedExec permittedAct (operate r) pool m = stepSite r pool m :=
    fun pool m h => stepCrew_agrees (fun _ _ _ hok => if_pos hok) (fun _ _ hok => if_pos hok) h.2
  have hsafe : SiteSafe (run (stepSite r) SitePool.init moves) := by
    refine run_invariant ?_ siteSafe_init horderly
    intro pool m h hm
    rw [← hagrees pool m hm]
    exact h.step hm.exclusive
  exact ⟨hsafe.crew.inv.kept, hsafe.crew.inv.clean⟩

/-! ## A takeover, and what goes wrong -/

def exampleMachine : ProvisionRequest where
  provider := .gcp
  egressPolicy := none
  deploys := false

/-- The executor in place `i` makes so many calls, all of them performed and answered. -/
def answered (i n : Nat) : List (Move Action Outcome) :=
  List.replicate n (.call i .performed)

def reached (moves : List (Move Action Outcome)) : Site :=
  (run (stepSite exampleMachine) SitePool.init moves).state

/-- The first executor is superseded when its machine is there; its callback refuses, and it destroys
the machine.  The second one has been waiting for the lock and provisions its own. -/
def takeover : List (Move Action Outcome) :=
  [.act .claim, .act (.execute 0 1)] ++ answered 0 13 ++ [.act .claim, .act (.execute 1 2)] ++
    answered 1 4 ++ answered 0 4 ++ answered 1 14

theorem state_retained_takeover :
    ((reached takeover).machines = [1] ∧ (reached takeover).context = some ⟨2, .running⟩) ∧
      StateRetained (reached takeover) := by
  have horderly : Along (stepSite exampleMachine) Orderly SitePool.init takeover := by
    decide +kernel
  exact ⟨by decide +kernel, state_retained_of_orderly _ _ horderly⟩

/-- The first executor dies when its machine is there.  The registration of the second one is refused,
and it removes the directory. -/
def refusedReplay : List (Move Action Outcome) :=
  [.act .claim, .act (.execute 0 1)] ++ answered 0 12 ++
    [.act (.crash 0), .kill 0, .act .claim, .act (.execute 1 2)] ++ answered 0 9 ++
    [.call 0 .failed] ++ answered 0 2

/-- After the takeover, the cleanup routine of the first replica terminates what it still tracks. -/
def lateCleanup : List (Move Action Outcome) :=
  takeover ++ [.act (.terminate 0 1)] ++ answered 2 2

theorem machines_lost :
    ((reached refusedReplay).machines = [0] ∧ (reached refusedReplay).workspace = none ∧
      ¬ StateRetained (reached refusedReplay)) ∧
    (reached lateCleanup).machines = [] ∧ (reached lateCleanup).context = some ⟨2, .running⟩ ∧
      ¬ StateRetained (reached lateCleanup) := by
  have hrefused : (reached refusedReplay).machines = [0] ∧
      (reached refusedReplay).workspace = none := by
    decide +kernel
  have hlate : (reached lateCleanup).machines = [] ∧
      (reached lateCleanup).context = some ⟨2, .running⟩ ∧
      (reached lateCleanup).trespassed = true := by
    decide +kernel
  refine ⟨⟨hrefused.1, hrefused.2, ?_⟩, hlate.1, hlate.2.1, ?_⟩
  · intro h
    rcases h.kept 0 (mem_singleton_self 0) with ⟨w, hw, _⟩
    cases hw
  · intro h
    have hclean := h.clean
    rw [hlate.2.2] at hclean
    cases hclean

end PortageEngine.Machines
