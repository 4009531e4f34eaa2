import PortageEngine.Capacity.Actuator

/-!
# The capacity layer as a state machine

Scheduler replicas and actuators share the fleet tables and act on them in any order; each of them may
stop between any two database calls and start again.  What a process holds in memory is the claims it
has been handed and the passes it is in the middle of.  A statement of a pass takes effect at once;
in the database it does so at the pass's commit, and until then the rows it wrote are locked, so that
nobody else acts on them in between.  Calls that overlap otherwise are not modelled.
-/

namespace PortageEngine.Capacity

open List Library Library.Rows
open Ledger

structure System where
  fleet : Fleet
  issued : List Claim
  passes : Nat → Option Pass

def System.init : System where
  fleet := .empty
  issued := []
  passes := fun _ => none

/-- One database call, with everything it takes from its caller, the clock and the locks. -/
inductive Op
  | register (name : Worker) (role : Role) (labels : List Label) (protocol : Nat) (now : Time)
  | prune (before : Time) (leased locked : Worker → Bool)
  | request (pool : PoolId) (kind : ActionKind) (requested observed : Nat) (reason : String)
      (now : Time) (fresh : ActionId)
  | claim (owner : String) (lease now : Time) (locked : ActionId → Bool)
  | renew (c : Claim) (lease now : Time)
  | retry (c : Claim) (detail : String) (now : Time)
  | reserve (c : Claim) (now : Time) (fresh : InstanceId) (token : Nat)
  | provisioned (c : Claim) (ref : InstanceRef) (remoteStateRef : String)
      (attributes : List (String × String)) (now : Time)
  | confirm (c : Claim) (ref : InstanceRef) (now : Time)
  | selectDrain (c : Claim) (now : Time) (locked : InstanceId → Bool)
  | beginDelete (c : Claim) (ref : InstanceRef) (now : Time) (working : Worker → Bool)
  | completeDelete (c : Claim) (ref : InstanceRef) (now : Time)
  | beginPass (id : Nat) (policy : Policy) (now : Time)
  | advance (id : Nat) (now : Time) (demand : Demand) (fresh : ActionId)
  | endPass (id : Nat)

/-- The claim that a call presents, and the clock it is checked against. -/
def Op.presents : Op → Option (Claim × Time)
  | .renew c _ now | .retry c _ now | .reserve c now _ _ | .provisioned c _ _ _ now
  | .confirm c _ now | .selectDrain c now _ | .beginDelete c _ now _ | .completeDelete c _ now =>
    some (c, now)
  | _ => none

/-- The tables after a call outside the passes, and the claim it hands out. -/
def Op.run (f : Fleet) : Op → Except String (Fleet × Option Claim)
  | .register name role labels protocol now =>
    .ok (registerWorker f name role labels protocol now, none)
  | .prune before leased locked => .ok (pruneStaleWorkers f before leased locked, none)
  | .request pool kind requested observed reason now fresh =>
    requestAction f pool kind requested observed reason now fresh
  | .claim owner lease now locked => claimCapacityAction f owner lease now locked
  | .renew c lease now => (·, none) <$> renewCapacityAction f c lease now
  | .retry c detail now => (·, none) <$> retryCapacityAction f c detail now
  | .reserve c now fresh token =>
    (fun r => (r.1, none)) <$> reserveCapacityInstance f c now fresh token
  | .provisioned c ref remoteStateRef attributes now =>
    (·, none) <$> recordCapacityInstanceProvisioned f c ref remoteStateRef attributes now
  | .confirm c ref now => (fun r => (r.1, none)) <$> confirmCapacityInstanceHeartbeat f c ref now
  | .selectDrain c now locked =>
    (fun r => (r.1, none)) <$> selectCapacityInstanceForDrain f c now locked
  | .beginDelete c ref now working => (·, none) <$> beginCapacityInstanceDelete f c ref now working
  | .completeDelete c ref now => (·, none) <$> completeCapacityInstanceDelete f c ref now
  | .beginPass _ _ _ | .advance _ _ _ _ | .endPass _ => .ok (f, none)

/-- What a call does to the passes in progress. -/
def Op.runPass (s : System) : Op → Except String System
  | .beginPass id policy now => do
    let p ← Capacity.beginPass s.fleet policy now
    return { s with passes := Function.update s.passes id (some p) }
  | .advance id now demand fresh =>
    match s.passes id with
    | none => .ok s
    | some p => do
      let (f, next) ← p.advance s.fleet now demand fresh
      return { s with fleet := f, passes := Function.update s.passes id next }
  | .endPass id => .ok { s with passes := Function.update s.passes id none }
  | op => do
    let (f, handed) ← op.run s.fleet
    return { s with fleet := f, issued := handed.toList ++ s.issued }

/-- One step of the system.  A call that fails changes nothing, and a claim that was never handed
out cannot be presented. -/
def step (s : System) (op : Op) : System :=
  if (op.presents.all fun x => s.issued.contains x.1) then
    match op.runPass s with
    | .ok s' => s'
    | .error _ => s
  else s

/-- A step does nothing, commits a call under a claim that has been handed out, or takes a pass one
statement further. -/
theorem step_cases (s : System) (op : Op) :
    step s op = s ∨
    (∃ f handed, op.run s.fleet = .ok (f, handed) ∧ (∀ x ∈ op.presents, x.1 ∈ s.issued) ∧
      step s op = { s with fleet := f, issued := handed.toList ++ s.issued }) ∨
    (∃ id policy now p, op = .beginPass id policy now ∧ beginPass s.fleet policy now = .ok p ∧
      step s op = { s with passes := Function.update s.passes id (some p) }) ∨
    (∃ id now demand fresh p f next, op = .advance id now demand fresh ∧ s.passes id = some p ∧
      p.advance s.fleet now demand fresh = .ok (f, next) ∧
      step s op = { s with fleet := f, passes := Function.update s.passes id next }) ∨
    ∃ id, op = .endPass id ∧
      step s op = { s with passes := Function.update s.passes id none } := by
  unfold step
  by_cases hissued : (op.presents.all fun x => s.issued.contains x.1) = true
  · rw [if_pos hissued]
    cases hrun : op.runPass s with
    | error e => exact .inl rfl
    | ok s' =>
      have hpresents : ∀ x ∈ op.presents, x.1 ∈ s.issued := by
        intro x hx
        rw [Option.mem_def.mp hx] at hissued
        simpa using hissued
      cases op with
      | beginPass id policy now =>
        rcases bind_eq_ok.mp hrun with ⟨p, hbegin, heq⟩
        exact .inr (.inr (.inl ⟨id, policy, now, p, rfl, hbegin, (Except.ok.inj heq).symm⟩))
      | advance id now demand fresh =>
        unfold Op.runPass at hrun
        cases hpass : s.passes id with
        | none =>
          simp only [hpass] at hrun
          exact .inl (Except.ok.inj hrun).symm
        | some p =>
          simp only [hpass] at hrun
          rcases bind_eq_ok.mp hrun with ⟨⟨f, next⟩, hadvance, heq⟩
          exact .inr (.inr (.inr (.inl ⟨id, now, demand, fresh, p, f, next, rfl, hpass,
            hadvance, (Except.ok.inj heq).symm⟩)))
      | endPass id => exact .inr (.inr (.inr (.inr ⟨id, rfl, (Except.ok.inj hrun).symm⟩)))
      | _ =>
        rcases bind_eq_ok.mp hrun with ⟨⟨f, handed⟩, hop, heq⟩
        exact .inr (.inl ⟨f, handed, hop, hpresents, (Except.ok.inj heq).symm⟩)
  · rw [if_neg hissued]
    exact .inl rfl

/-! ## What a call can do -/

section Effects

variable {f f' : Fleet} {c : Claim} {now : Time}

/-- The changes of state an instance goes through under a claim; the last change of each kind
completes the action. -/
inductive Moves : InstanceState → InstanceState → Bool → Prop
  | provisioned : Moves .provisioning .provisioning false
  | confirmed : Moves .provisioning .active true
  | deleting : Moves .draining .deleting false
  | deleted : Moves .deleting .deleted true

/-- The row of an action that has reached its end. -/
def completeRow (a : Action) : Action :=
  { a with state := .completed, owner := "", leaseExpiresAt := none, failureDetail := "" }

/-- Everything a call can do to actions and instances; only in the pools that `grant` allows does it
ask for a slot more, and only in those of `confirm` does an instance become active. -/
inductive Effect (claim : Option (Claim × Time)) (grant confirm : PoolId → Prop) (f f' : Fleet) :
    Prop
  | quiet (hactions : f'.actions = f.actions) (hinstances : f'.instances = f.instances)
  | enqueue (a : Action) (hopen : f.openAction? a.pool = none) (hid : ∀ b ∈ f.actions, b.id ≠ a.id)
      (hstate : a.state = .requested) (hgrant : a.kind = .scaleUp → grant a.pool)
      (hactions : f'.actions = a :: f.actions) (hinstances : f'.instances = f.instances)
  | rewrite (p : Action → Bool) (g : Action → Action)
      (hp : ∀ a ∈ f.actions, p a = true → a.state = .requested ∧ f.bound a.id = false)
      (hg : ∀ a, (g a).id = a.id ∧ (g a).pool = a.pool ∧ (g a).fence = a.fence ∧
        (a.state = .requested → (g a).state = .requested ∨ (g a).state = .canceled))
      (hgrant : ∀ a ∈ f.actions, p a = true → (g a).state = .requested → (g a).kind = .scaleUp →
        grant a.pool)
      (hactions : f'.actions = update p g f.actions) (hinstances : f'.instances = f.instances)
  | reopen (now : Time) (heq : f' = reopenBoundCapacityActions f now)
  | take (id : ActionId) (owner : String) (lease now : Time)
      (hp : ∀ a ∈ f.actions, a.id = id → a.state = .requested ∨ a.state = .claimed)
      (hactions : f'.actions = update (fun a => a.id = id) (claimRow owner lease now) f.actions)
      (hinstances : f'.instances = f.instances)
  | hold (c : Claim) (now : Time) (hclaim : claim = some (c, now)) (g : Action → Action)
      (hg : ∀ a, (g a).id = a.id ∧ (g a).pool = a.pool ∧ (g a).kind = a.kind ∧
        (g a).fence = a.fence ∧
        (a.state = .claimed → (g a).state = .claimed ∨ (g a).state = .requested))
      (hactions : f'.actions = update (c.current now) g f.actions)
      (hinstances : f'.instances = f.instances)
  | reserve (c : Claim) (now : Time) (hclaim : claim = some (c, now)) (i : Instance)
      (hkind : c.kind = .scaleUp) (hcurrent : ∃ a ∈ f.actions, c.current now a = true)
      (hnew : ∀ x ∈ f.instances, x.createAction ≠ c.id ∧ x.id ≠ i.id)
      (hi : i.createAction = c.id ∧ i.deleteAction = none ∧ i.pool = c.pool.id ∧
        i.state = .provisioning)
      (hactions : f'.actions = f.actions) (hinstances : f'.instances = i :: f.instances)
  | drain (c : Claim) (now : Time) (hclaim : claim = some (c, now)) (i : Instance)
      (hkind : c.kind = .scaleDown) (hcurrent : ∃ a ∈ f.actions, c.current now a = true)
      (hi : i ∈ f.instances ∧ i.pool = c.pool.id)
      (hcase : (i.deleteAction = some c.id ∧ (i.state = .draining ∨ i.state = .deleting)) ∨
        (i.state = .active ∧ ∀ x ∈ f.instances, x.deleteAction = some c.id → x.pool = c.pool.id →
          ¬ (x.state = .draining ∨ x.state = .deleting)))
      (hother : ∀ x ∈ f.instances, x.id ≠ i.id → x.deleteAction ≠ some c.id)
      (hactions : f'.actions = f.actions)
      (hinstances : f'.instances = update (fun x => x.id = i.id) (drainRow c) f.instances)
      (hworkers : f'.workers = (drainWorkers f i.id).workers)
  | move (c : Claim) (now : Time) (hclaim : claim = some (c, now)) (ref : InstanceRef)
      (from_ to_ : InstanceState) (done : Bool) (hmoves : Moves from_ to_ done)
      (hconfirm : to_ = .active → confirm c.pool.id) (g : Instance → Instance)
      (hcurrent : ∃ a ∈ f.actions, c.current now a = true)
      (hexists : ∃ i ∈ f.instances, i.is c ref from_ = true)
      (hg : ∀ i, (g i).id = i.id ∧ (g i).pool = i.pool ∧ (g i).createAction = i.createAction ∧
        (g i).deleteAction = i.deleteAction ∧ (i.state = from_ → (g i).state = to_))
      (hinstances : f'.instances = update (fun i => i.is c ref from_) g f.instances)
      (hactions : f'.actions =
        if done then update (c.current now) completeRow f.actions else f.actions)

theorem validateCapacityActionFence_ok (h : validateCapacityActionFence f c now = .ok ()) :
    ∃ a ∈ f.actions, c.current now a = true := by
  replace h := passed h
  cases hfind : f.action? c.id with
  | none => rw [hfind] at h; cases h
  | some a =>
    rw [hfind] at h
    exact ⟨a, mem_of_find?_eq_some hfind, require_eq_ok.mp h⟩

/-- What a capacity call does to the worker rows. -/
inductive CrewStep (op : Op) (f f' : Fleet) : Prop
  | update (p : WorkerRow → Bool) (g : WorkerRow → WorkerRow)
      (hg : ∀ w, (g w).name = w.name ∧ (g w).labels = w.labels ∧
        ((g w).active = true → w.active = true))
      (hworkers : f'.workers = Rows.update p g f.workers)
  | prune (before : Time) (leased locked : Worker → Bool) (hop : op = .prune before leased locked)
      (hworkers : f' = pruneStaleWorkers f before leased locked)
  | register (name : Worker) (role : Role) (labels : List Label) (protocol : Nat) (now : Time)
      (hop : op = .register name role labels protocol now)

theorem crewStep_of_eq {op : Op} (h : f'.workers = f.workers) : CrewStep op f f' :=
  .update (fun _ => false) id (fun _ => ⟨rfl, rfl, id⟩)
    (h.trans (update_eq_self fun _ _ => rfl).symm)

variable {stale reason : String} {ref : InstanceRef} {pool : PoolId} {a : Action}
  {kind : ActionKind} {requested observed : Nat} {p : Pass} {handed : Option Claim} {op : Op}
  {s : System}

theorem updateClaimed_ok {g : Action → Action} (h : updateClaimed f c now g stale = .ok f') :
    f' = { f with actions := update (c.current now) g f.actions } := by
  replace h := passed h
  exact (Except.ok.inj h).symm

theorem updateInstance_ok {state : InstanceState} {g : Instance → Instance}
    (h : updateInstance f c ref state g stale = .ok f') :
    (∃ i ∈ f.instances, i.is c ref state = true) ∧
      f' = { f with instances := update (fun i => i.is c ref state) g f.instances } := by
  rcases require_bind_eq_ok.mp h with ⟨hany, h⟩
  exact ⟨any_eq_true.mp hany, (Except.ok.inj h).symm⟩

theorem openAction?_none :
    f.openAction? pool = none ↔ ∀ a ∈ f.actions, a.pool = pool → a.state.isOpen = false := by
  unfold Fleet.openAction?
  rw [find?_eq_none]
  refine forall₂_congr fun a _ => ?_
  by_cases hpool : a.pool = pool <;> simp [hpool]

theorem mem_of_openAction? (h : f.openAction? pool = some a) :
    a ∈ f.actions ∧ a.pool = pool ∧ a.state.isOpen = true := by
  have hsome : a.pool = pool ∧ a.state.isOpen = true := by simpa using find?_some h
  exact ⟨mem_of_find?_eq_some h, hsome⟩

variable {grant confirm : PoolId → Prop} {claim : Option (Claim × Time)} {fresh : ActionId}

theorem effect_requestCapacityAction (hkeyed : Keyed Action.id f.actions)
    (hgrant : kind = .scaleUp → grant pool)
    (h : requestCapacityAction f pool kind requested observed reason now fresh = .ok f') :
    Effect claim grant confirm f f' ∧ f'.workers = f.workers := by
  unfold requestCapacityAction at h
  cases hopen : f.openAction? pool with
  | none =>
    rw [hopen] at h
    rcases require_bind_eq_ok.mp h with ⟨hnew, h⟩
    cases h
    simp only [Bool.and_eq_true, Bool.not_eq_true', any_eq_false, decide_eq_true_eq] at hnew
    exact ⟨.enqueue _ hopen (fun b hb => hnew.2 b hb) rfl hgrant rfl rfl, rfl⟩
  | some a =>
    rcases mem_of_openAction? hopen with ⟨ha, hpool, _⟩
    rw [hopen] at h
    by_cases hfree : (a.state = .requested && !f.bound a.id) = true
    · simp only [hfree, if_true] at h
      cases h
      simp only [Bool.and_eq_true, decide_eq_true_eq, Bool.not_eq_true'] at hfree
      have hsame : ∀ b ∈ f.actions, decide (b.id = a.id) = true → b = a :=
        fun b hb hid => hkeyed.eq hb ha (by simpa using hid)
      refine ⟨.rewrite (fun b => b.id = a.id) _ ?_ ?_ ?_ rfl rfl, rfl⟩
      · intro b hb hid
        rw [hsame b hb hid]
        exact hfree
      · exact fun b => ⟨rfl, rfl, rfl, .inl⟩
      · intro b hb hid _ hkind
        rw [hsame b hb hid, hpool]
        exact hgrant hkind
    · simp only [hfree, Bool.false_eq_true, if_false] at h
      cases h
      exact ⟨.quiet rfl rfl, rfl⟩

theorem effect_cancelRequestedCapacityAction :
    Effect claim grant confirm f (cancelRequestedCapacityAction f pool reason) := by
  refine .rewrite _ _ ?_ ?_ ?_ rfl rfl
  · intro a _ ha
    simp only [Bool.and_eq_true, decide_eq_true_eq, Bool.not_eq_true'] at ha
    exact ⟨ha.1.2, ha.2⟩
  · exact fun a => ⟨rfl, rfl, rfl, fun _ => .inr rfl⟩
  · nofun

/-- A pass that stands before a pool it may add a slot to. -/
def Pass.grants (p : Pass) (pool : PoolId) : Prop :=
  ∃ status todo budgets, p.stage = .allocating (status :: todo) budgets ∧ status.pool.id = pool ∧
    0 < budgets.scaleUp ∧ 0 < budgets.provider status.pool.provider

theorem effect_allocatePool {budgets budgets' : Budgets} {status : PoolStatus}
    (hkeyed : Keyed Action.id f.actions)
    (hgrant : 0 < budgets.scaleUp → 0 < budgets.provider status.pool.provider →
      grant status.pool.id)
    (h : allocatePool f budgets status now fresh = .ok (f', budgets')) :
    Effect claim grant confirm f f' ∧ f'.workers = f.workers := by
  unfold allocatePool at h
  by_cases hup : (decide (status.recommendation = .scaleUp) && decide (0 < budgets.scaleUp) &&
      decide (0 < budgets.provider status.pool.provider)) = true
  · rw [if_pos hup] at h
    rcases map_eq_ok.mp h with ⟨f₁, hrequest, heq⟩
    cases heq
    simp only [Bool.and_eq_true, decide_eq_true_eq] at hup
    exact effect_requestCapacityAction hkeyed (fun _ => hgrant hup.1.2 hup.2) hrequest
  · rw [if_neg hup] at h
    by_cases hdown : (decide (status.recommendation = .scaleDown) &&
        decide (0 < budgets.scaleDown)) = true
    · rw [if_pos hdown] at h
      rcases map_eq_ok.mp h with ⟨f₁, hrequest, heq⟩
      cases heq
      refine effect_requestCapacityAction hkeyed ?_ hrequest
      nofun
    · rw [if_neg hdown] at h
      cases h
      exact ⟨effect_cancelRequestedCapacityAction, rfl⟩

theorem Pass.effect {next : Option Pass} {demand : Demand}
    (hkeyed : Keyed Action.id f.actions) (hgrant : ∀ pool, p.grants pool → grant pool)
    (h : p.advance f now demand fresh = .ok (f', next)) :
    Effect claim grant confirm f f' ∧ f'.workers = f.workers := by
  unfold Pass.advance at h
  cases hstage : p.stage with
  | observing todo done =>
    simp only [hstage] at h
    cases todo with
    | nil =>
      by_cases hmode : p.policy.mode = .actuate
      · simp only [hmode, if_true] at h
        cases h
        exact ⟨.reopen now rfl, rfl⟩
      · simp only [hmode, if_false] at h
        cases h
        exact ⟨.reopen now rfl, rfl⟩
    | cons pool todo =>
      cases h
      exact ⟨.quiet rfl rfl, rfl⟩
  | canceling todo =>
    simp only [hstage] at h
    cases todo with
    | nil =>
      cases h
      exact ⟨.quiet rfl rfl, rfl⟩
    | cons s todo =>
      cases h
      exact ⟨effect_cancelRequestedCapacityAction, rfl⟩
  | pending statuses =>
    simp only [hstage] at h
    cases h
    exact ⟨.quiet rfl rfl, rfl⟩
  | counting statuses budgets todo =>
    simp only [hstage] at h
    cases todo with
    | nil | cons x todo =>
      cases h
      exact ⟨.quiet rfl rfl, rfl⟩
  | allocating todo budgets =>
    simp only [hstage] at h
    cases todo with
    | nil =>
      cases h
      exact ⟨.quiet rfl rfl, rfl⟩
    | cons status todo =>
      rcases bind_eq_ok.mp h with ⟨⟨f₁, budgets'⟩, halloc, h⟩
      cases h
      refine effect_allocatePool hkeyed ?_ halloc
      intro hup hprovider
      exact hgrant _ ⟨status, todo, budgets, hstage, rfl, hup, hprovider⟩

/-- A claim that says what the action's row says. -/
def Claim.describes (c : Claim) (a : Action) : Prop :=
  c.id = a.id ∧ c.pool.id = a.pool ∧ c.kind = a.kind ∧ c.fence = a.fence

theorem describes_of_scan (h : scanCapacityAction f a = some c) :
    c.describes a := by
  rcases Option.map_eq_some_iff.mp h with ⟨p, hp, rfl⟩
  have hpool : p.pool.id = a.pool := by simpa using find?_some hp
  exact ⟨rfl, hpool, rfl, rfl⟩

/-- Every claim that is handed out describes an action of the table. -/
def Describes (f : Fleet) (handed : Option Claim) : Prop :=
  ∀ c ∈ handed, ∃ a ∈ f.actions, c.describes a

theorem describes_none : Describes f none :=
  nofun

theorem effect_requestAction (hgrant : grant pool)
    (h : requestAction f pool kind requested observed reason now fresh = .ok (f', handed)) :
    Effect claim grant confirm f f' ∧ f'.workers = f.workers ∧ Describes f' handed := by
  replace h := passed h
  replace h := passed h
  cases hopen : f.openAction? pool with
  | some a =>
    rw [hopen] at h
    cases h
    refine ⟨.quiet rfl rfl, rfl, ?_⟩
    intro c hc
    exact ⟨a, (mem_of_openAction? hopen).1, describes_of_scan hc⟩
  | none =>
    rw [hopen] at h
    rcases require_bind_eq_ok.mp h with ⟨hnew, h⟩
    cases h
    simp only [Bool.and_eq_true, Bool.not_eq_true', any_eq_false, decide_eq_true_eq] at hnew
    refine ⟨.enqueue _ hopen (fun b hb => hnew.2 b hb) rfl (fun _ => hgrant) rfl rfl, rfl, ?_⟩
    intro c hc
    exact ⟨_, mem_cons_self, describes_of_scan hc⟩

theorem effect_claimCapacityAction {owner : String} {lease : Time} {locked : ActionId → Bool}
    (hkeyed : Keyed Action.id f.actions)
    (h : claimCapacityAction f owner lease now locked = .ok (f', handed)) :
    Effect claim grant confirm f f' ∧ f'.workers = f.workers ∧ Describes f' handed := by
  replace h := passed h
  cases hfirst : (f.actions.filter fun a => a.claimable now && !locked a.id).argmin
      fun a => toLex (a.requestedAt, a.id) with
  | none =>
    simp only [hfirst] at h
    cases h
    exact ⟨.quiet rfl rfl, rfl, describes_none⟩
  | some a =>
    simp only [hfirst] at h
    cases h
    rcases mem_filter.mp (argmin_mem hfirst) with ⟨ha, hclaimable⟩
    have hstate : a.state = .requested ∨ a.state = .claimed := by
      simp only [Action.claimable, Bool.and_eq_true, Bool.or_eq_true, decide_eq_true_eq]
        at hclaimable
      exact hclaimable.1.2.imp id And.left
    refine ⟨.take a.id _ lease now ?_ rfl rfl, rfl, ?_⟩
    · intro b hb hid
      rw [hkeyed.eq hb ha hid]
      exact hstate
    · intro c hc
      exact ⟨_, mem_update.mpr ⟨a, ha, if_pos (by simp)⟩, describes_of_scan hc⟩

theorem effect_reserveCapacityInstance {fresh : InstanceId} {token : Nat} {i : Instance}
    (h : reserveCapacityInstance f c now fresh token = .ok (f', i)) :
    Effect (some (c, now)) grant confirm f f' ∧ f'.workers = f.workers := by
  rcases require_bind_eq_ok.mp h with ⟨hkind, h⟩
  rcases bind_eq_ok.mp h with ⟨⟨⟩, hfence, h⟩
  simp only [Bool.and_eq_true, decide_eq_true_eq] at hkind
  cases hfind : f.instances.find? fun i => i.createAction = c.id with
  | some x =>
    simp only [hfind] at h
    cases h
    exact ⟨.quiet rfl rfl, rfl⟩
  | none =>
    simp only [hfind] at h
    rcases require_bind_eq_ok.mp h with ⟨hnew, h⟩
    cases h
    have hnone := find?_eq_none.mp hfind
    simp only [Bool.not_eq_true', any_eq_false, Bool.or_eq_true, decide_eq_true_eq,
      not_or] at hnew
    refine ⟨.reserve c now rfl _ hkind.1 (validateCapacityActionFence_ok hfence) ?_
      ⟨rfl, rfl, rfl, rfl⟩ rfl rfl, rfl⟩
    exact fun x hx => ⟨by simpa using hnone x hx, (hnew x hx).1⟩

theorem effect_recordCapacityInstanceProvisioned {remoteStateRef : String}
    {attributes : List (String × String)}
    (h : recordCapacityInstanceProvisioned f c ref remoteStateRef attributes now = .ok f') :
    Effect (some (c, now)) grant confirm f f' ∧ f'.workers = f.workers := by
  rcases bind_eq_ok.mp h with ⟨⟨⟩, hfence, h⟩
  rcases updateInstance_ok h with ⟨hexists, rfl⟩
  refine ⟨.move c now rfl ref _ _ _ .provisioned nofun _ (validateCapacityActionFence_ok hfence)
    hexists ?_ rfl rfl, rfl⟩
  exact fun i => ⟨rfl, rfl, rfl, rfl, id⟩

theorem effect_confirmCapacityInstanceHeartbeat {confirmed : Bool} (hconfirm : confirm c.pool.id)
    (h : confirmCapacityInstanceHeartbeat f c ref now = .ok (f', confirmed)) :
    Effect (some (c, now)) grant confirm f f' ∧ f'.workers = f.workers := by
  rcases bind_eq_ok.mp h with ⟨⟨⟩, hfence, h⟩
  by_cases hseen : heartbeatObserved f c ref now = true
  · rw [if_pos hseen] at h
    rcases bind_eq_ok.mp h with ⟨f₁, hinstance, h⟩
    rcases bind_eq_ok.mp h with ⟨f₂, hcomplete, h⟩
    cases h
    rcases updateInstance_ok hinstance with ⟨hexists, rfl⟩
    cases updateClaimed_ok hcomplete
    refine ⟨.move c now rfl ref _ _ _ .confirmed (fun _ => hconfirm) _
      (validateCapacityActionFence_ok hfence) hexists ?_ rfl rfl, rfl⟩
    exact fun i => ⟨rfl, rfl, rfl, rfl, fun _ => rfl⟩
  · rw [if_neg hseen] at h
    cases h
    exact ⟨.quiet rfl rfl, rfl⟩

variable {locked : InstanceId → Bool}

theorem drainTarget_some {i : Instance}
    (h : drainTarget f c locked = some i) :
    (i ∈ f.instances ∧ i.pool = c.pool.id) ∧
      ((i.deleteAction = some c.id ∧ (i.state = .draining ∨ i.state = .deleting)) ∨
        (i.state = .active ∧ ∀ x ∈ f.instances, x.deleteAction = some c.id → x.pool = c.pool.id →
          ¬ (x.state = .draining ∨ x.state = .deleting))) := by
  unfold drainTarget at h
  cases hown : f.instances.find? fun i => i.deleteAction = some c.id && i.pool = c.pool.id &&
      (i.state = .draining || i.state = .deleting) with
  | some x =>
    rw [hown] at h
    cases h
    have hx := find?_some hown
    simp only [Bool.and_eq_true, Bool.or_eq_true, decide_eq_true_eq] at hx
    exact ⟨⟨mem_of_find?_eq_some hown, hx.1.2⟩, .inl ⟨hx.1.1, hx.2⟩⟩
  | none =>
    rw [hown] at h
    rcases mem_filter.mp (argmin_mem h) with ⟨hi, hactive⟩
    simp only [Bool.and_eq_true, decide_eq_true_eq] at hactive
    refine ⟨⟨hi, hactive.1.1⟩, .inr ⟨hactive.1.2, ?_⟩⟩
    intro x hx hdelete hpool hstate
    have hnone := find?_eq_none.mp hown x hx
    simp only [Bool.and_eq_true, Bool.or_eq_true, decide_eq_true_eq] at hnone
    exact hnone ⟨⟨hdelete, hpool⟩, hstate⟩

theorem effect_selectCapacityInstanceForDrain {i : Option Instance}
    (h : selectCapacityInstanceForDrain f c now locked = .ok (f', i)) :
    Effect (some (c, now)) grant confirm f f' ∧ CrewStep op f f' := by
  rcases require_bind_eq_ok.mp h with ⟨hkind, h⟩
  rcases bind_eq_ok.mp h with ⟨⟨⟩, hfence, h⟩
  simp only [Bool.and_eq_true, decide_eq_true_eq] at hkind
  cases htarget : drainTarget f c locked with
  | none =>
    simp only [htarget] at h
    cases h
    exact ⟨.quiet rfl rfl, crewStep_of_eq rfl⟩
  | some x =>
    simp only [htarget] at h
    rcases require_bind_eq_ok.mp h with ⟨hother, h⟩
    cases h
    rcases drainTarget_some htarget with ⟨hx, hcase⟩
    refine ⟨.drain c now rfl x hkind.1 (validateCapacityActionFence_ok hfence) hx hcase ?_ rfl rfl rfl,
      .update _ _ ?_ rfl⟩
    on_goal 2 => exact fun w => ⟨rfl, rfl, nofun⟩
    intro y hy hne hdelete
    simp only [Bool.not_eq_true', any_eq_false, Bool.and_eq_true, decide_eq_true_eq] at hother
    exact hother y hy ⟨hne, hdelete⟩

theorem effect_beginCapacityInstanceDelete {working : Worker → Bool}
    (h : beginCapacityInstanceDelete f c ref now working = .ok f') :
    Effect (some (c, now)) grant confirm f f' ∧ f'.workers = f.workers := by
  rcases bind_eq_ok.mp h with ⟨⟨⟩, hfence, h⟩
  replace h := passed h
  rcases updateInstance_ok h with ⟨hexists, rfl⟩
  refine ⟨.move c now rfl ref _ _ _ .deleting nofun _ (validateCapacityActionFence_ok hfence)
    hexists ?_ rfl rfl, rfl⟩
  exact fun i => ⟨rfl, rfl, rfl, rfl, fun _ => rfl⟩

theorem effect_completeCapacityInstanceDelete
    (h : completeCapacityInstanceDelete f c ref now = .ok f') :
    Effect (some (c, now)) grant confirm f f' ∧ f'.workers = f.workers := by
  rcases bind_eq_ok.mp h with ⟨⟨⟩, hfence, h⟩
  rcases bind_eq_ok.mp h with ⟨f₁, hinstance, hcomplete⟩
  rcases updateInstance_ok hinstance with ⟨hexists, rfl⟩
  cases updateClaimed_ok hcomplete
  refine ⟨.move c now rfl ref _ _ _ .deleted nofun _ (validateCapacityActionFence_ok hfence)
    hexists ?_ rfl rfl, rfl⟩
  exact fun i => ⟨rfl, rfl, rfl, rfl, fun _ => rfl⟩

theorem unmoved (h : Effect claim grant confirm f f' ∧ f'.workers = f.workers) :
    Effect claim grant confirm f f' ∧ CrewStep op f f' ∧ Describes f' none :=
  ⟨h.1, crewStep_of_eq h.2, describes_none⟩

/-- The pools in which a call may ask for a slot more. -/
def Op.grants (s : System) : Op → PoolId → Prop
  | .request pool _ _ _ _ _ _, p => pool = p
  | .advance id _ _ _, p => ∃ pass, s.passes id = some pass ∧ pass.grants p
  | _, _ => False

/-- The pools in which a call may find that an instance works. -/
def Op.confirms : Op → PoolId → Prop
  | .confirm c _ _, p => c.pool.id = p
  | _, _ => False

theorem Op.effect (hkeyed : Keyed Action.id s.fleet.actions) (h : op.run s.fleet = .ok (f', handed)) :
    Effect op.presents (op.grants s) op.confirms s.fleet f' ∧ CrewStep op s.fleet f' ∧
      Describes f' handed := by
  cases op with
  | register name role labels protocol now =>
    cases h
    refine ⟨?_, .register name role labels protocol now rfl, describes_none⟩
    unfold registerWorker
    split
    · exact .quiet rfl rfl
    · exact .quiet rfl rfl
  | prune before leased locked =>
    cases h
    exact ⟨.quiet rfl rfl, .prune before leased locked rfl rfl, describes_none⟩
  | beginPass id policy now | advance id now demand fresh | endPass id =>
    cases h
    exact ⟨.quiet rfl rfl, crewStep_of_eq rfl, describes_none⟩
  | request pool kind requested observed reason now fresh =>
    exact (effect_requestAction rfl h).imp_right (.imp_left crewStep_of_eq)
  | claim owner lease now locked =>
    exact (effect_claimCapacityAction hkeyed h).imp_right (.imp_left crewStep_of_eq)
  | renew c lease now =>
    rcases map_eq_ok.mp h with ⟨f₁, hrun, heq⟩
    cases heq
    replace hrun := passed hrun
    cases updateClaimed_ok hrun
    refine ⟨.hold c now rfl _ ?_ rfl rfl, crewStep_of_eq rfl, describes_none⟩
    exact fun a => ⟨rfl, rfl, rfl, rfl, .inl⟩
  | retry c detail now =>
    rcases map_eq_ok.mp h with ⟨f₁, hrun, heq⟩
    cases heq
    cases updateClaimed_ok hrun
    refine ⟨.hold c now rfl _ ?_ rfl rfl, crewStep_of_eq rfl, describes_none⟩
    exact fun a => ⟨rfl, rfl, rfl, rfl, fun _ => .inr rfl⟩
  | reserve c now fresh token =>
    exact of_map_eq_ok h fun _ hrun => unmoved (effect_reserveCapacityInstance hrun)
  | provisioned c ref remoteStateRef attributes now =>
    exact of_map_eq_ok h fun _ hrun => unmoved (effect_recordCapacityInstanceProvisioned hrun)
  | confirm c ref now =>
    exact of_map_eq_ok h fun _ hrun => unmoved (effect_confirmCapacityInstanceHeartbeat rfl hrun)
  | selectDrain c now locked =>
    exact of_map_eq_ok h fun _ hrun =>
      (effect_selectCapacityInstanceForDrain hrun).imp_right (⟨·, describes_none⟩)
  | beginDelete c ref now working =>
    exact of_map_eq_ok h fun _ hrun => unmoved (effect_beginCapacityInstanceDelete hrun)
  | completeDelete c ref now =>
    exact of_map_eq_ok h fun _ hrun => unmoved (effect_completeCapacityInstanceDelete hrun)

/-- What one step does: an effect on the tables under a claim that has been handed out, and new
claims only for the actions that are there. -/
structure StepEffect (s : System) (op : Op) (s' : System) : Prop where
  effect : Effect op.presents (op.grants s) op.confirms s.fleet s'.fleet
  claims : ∀ c ∈ s'.issued, c ∈ s.issued ∨ ∃ a ∈ s'.fleet.actions, c.describes a
  handed : s'.fleet = s.fleet ∨ ∀ x ∈ op.presents, x.1 ∈ s.issued

theorem stepEffect_refl : StepEffect s op s :=
  ⟨.quiet rfl rfl, fun _ => .inl, .inl rfl⟩

theorem step_effect (s : System) (op : Op) (hkeyed : Keyed Action.id s.fleet.actions) :
    StepEffect s op (step s op) ∧ CrewStep op s.fleet (step s op).fleet := by
  rcases step_cases s op with heq | ⟨f, handed, hrun, hissued, heq⟩ |
    ⟨id, policy, now, p, _, _, heq⟩ | ⟨id, now, demand, fresh, p, f, next, rfl, hp, hrun, heq⟩ |
    ⟨id, _, heq⟩ <;> rw [heq]
  · exact ⟨stepEffect_refl, crewStep_of_eq rfl⟩
  · rcases Op.effect hkeyed hrun with ⟨heffect, hcrew, hdescribes⟩
    refine ⟨⟨heffect, ?_, .inr hissued⟩, hcrew⟩
    intro c hc
    rcases mem_append.mp hc with hc | hc
    · exact .inr (hdescribes c (by simpa using hc))
    · exact .inl hc
  · exact ⟨⟨.quiet rfl rfl, fun _ => .inl, .inl rfl⟩, crewStep_of_eq rfl⟩
  · refine (Pass.effect hkeyed ?_ hrun).imp (⟨·, fun _ => .inl, .inr nofun⟩)
      crewStep_of_eq
    exact fun pool hpool => ⟨p, hp, hpool⟩
  · exact ⟨⟨.quiet rfl rfl, fun _ => .inl, .inl rfl⟩, crewStep_of_eq rfl⟩

/-- A pass after a step was there before, has just begun, or has just taken a statement. -/
theorem step_passes {id : Nat} (h : (step s op).passes id = some p) :
    s.passes id = some p ∨
      (∃ policy now, op = .beginPass id policy now ∧ beginPass s.fleet policy now = .ok p) ∨
      ∃ q now demand fresh f', op = .advance id now demand fresh ∧ s.passes id = some q ∧
        q.advance s.fleet now demand fresh = .ok (f', some p) := by
  rcases step_cases s op with heq | ⟨f, handed, hrun, hissued, heq⟩ |
    ⟨id', policy, now, p', rfl, hrun, heq⟩ |
    ⟨id', now, demand, fresh, q, f, next, rfl, hq, hrun, heq⟩ | ⟨id', rfl, heq⟩ <;> rw [heq] at h
  · exact .inl h
  · exact .inl h
  · simp only [Function.update_apply] at h
    split at h
    · rename_i hid
      cases hid
      cases h
      exact .inr (.inl ⟨policy, now, rfl, hrun⟩)
    · exact .inl h
  · simp only [Function.update_apply] at h
    split at h
    · rename_i hid
      cases hid
      cases h
      exact .inr (.inr ⟨q, now, demand, fresh, f, rfl, hq, hrun⟩)
    · exact .inl h
  · simp only [Function.update_apply] at h
    split at h
    · cases h
    · exact .inl h

end Effects

end PortageEngine.Capacity
