import PortageEngine.Capacity.Ownership

/-!
# The ceiling of a pool

A pass may ask for one more slot while the live executors it counted, together with the claimed
scale-ups, stay below the policy's maximum and below the limit of the provider.  An executor that
misses its heartbeat is not counted, though its instance is still there, and neither is an instance
that becomes active between the count of the executors and the count of the claims; so the ceiling
holds for the instances only where the executors count for them.
-/

namespace PortageEngine.Capacity

open List Library Library.Rows Library.Runs
open Ledger

/-- The instances of a pool that are reserved or created and not yet deleted. -/
def liveInstances (f : Fleet) (pool : PoolId) : Nat :=
  count (fun i => i.pool = pool && i.state.live) f.instances

def activeInstances (f : Fleet) (pool : PoolId) : Nat :=
  count (fun i => i.pool = pool && i.state = .active) f.instances

variable {f f' : Fleet} {a b : Action} {i : Instance} {c : Claim} {now : Time} {pool : PoolId}
  {limit : Nat}

/-! ## Instances and actions -/

/-- The pool keeps within the limit, also when an open scale-up gets its instance. -/
structure Room (f : Fleet) (pool : PoolId) (limit : Nat) : Prop where
  within : liveInstances f pool ≤ limit
  asked : ∀ a ∈ f.actions, a.pool = pool → a.kind = .scaleUp → a.state.isOpen = true →
    f.bound a.id = false → liveInstances f pool < limit

/-- While the open action of a pool has no instance, all live instances of the pool are active. -/
theorem Owned.live_eq_active (h : Owned f)
    (hfree : ∀ a ∈ f.actions, a.pool = pool → a.state.isOpen = true → f.bound a.id = false) :
    liveInstances f pool = activeInstances f pool := by
  refine total_congr ?_
  intro i hi
  by_cases hpool : i.pool = pool
  · have hstate : i.state.live = decide (i.state = .active) := by
      have hidle : ∀ kind : ActionKind, kind.awaits i.state = false := by
        intro kind
        cases hawaits : kind.awaits i.state with
        | false => rfl
        | true =>
          rcases h.awaited hi hawaits with ⟨a, ha, _, howns, hopen⟩
          have hunbound := hfree a ha (howns.pool.trans hpool) hopen
          have hnot := h.unreferenced ha hopen hunbound i hi
          rw [refersTo_iff.mpr ⟨_, howns.names⟩] at hnot
          cases hnot
      have hup := hidle .scaleUp
      have hdown := hidle .scaleDown
      cases hs : i.state <;> simp [hs, ActionKind.awaits, InstanceState.live] at hup hdown ⊢
    rw [hstate]
  · simp [hpool]

/-- Open actions are rewritten, and a scale-up without an instance was one before, or is granted. -/
theorem Room.rewriteActions (h : Room f pool limit) {p : Action → Bool} {g : Action → Action}
    (hg : ∀ a ∈ f.actions, p a = true → (g a).pool = pool → (g a).kind = .scaleUp →
      (g a).state.isOpen = true → f.bound (g a).id = false → liveInstances f pool < limit)
    (hactions : f'.actions = update p g f.actions) (hinstances : f'.instances = f.instances) :
    Room f' pool limit := by
  have hbound : ∀ d, f'.bound d = f.bound d := fun d => by unfold Fleet.bound; rw [hinstances]
  have hlive : liveInstances f' pool = liveInstances f pool := by
    unfold liveInstances
    rw [hinstances]
  refine ⟨hlive ▸ h.within, ?_⟩
  rw [hactions, hlive]
  intro a ha hpool hkind hopen hunbound
  rw [hbound] at hunbound
  rcases mem_update_cases ha with ⟨x, hx, hp, rfl⟩ | ⟨ha, _⟩
  · exact hg x hx hp hpool hkind hopen hunbound
  · exact h.asked a ha hpool hkind hopen hunbound

theorem Room.reserve (h : Room f pool limit) (howned : Owned f) (ha : a ∈ f.actions)
    (hopen : a.state.isOpen = true) (hkind : a.kind = .scaleUp)
    (hi : i.createAction = a.id ∧ i.pool = a.pool ∧ i.state = .provisioning)
    (hnew : ∀ x ∈ f.instances, x.createAction ≠ a.id)
    (hactions : f'.actions = f.actions) (hinstances : f'.instances = i :: f.instances) :
    Room f' pool limit := by
  have hunbound : f.bound a.id = false := by
    refine any_eq_false.mpr ?_
    intro x hx hrefers
    simp only [Bool.and_eq_true] at hrefers
    have hnames := (howned.owns ha hx hrefers.1).names
    rw [hkind] at hnames
    exact hnew x hx (Option.some.inj hnames)
  have hbound : ∀ d, f'.bound d = (i.refersTo d || f.bound d) := by
    intro d
    unfold Fleet.bound
    rw [hinstances, any_cons, hi.2.2]
    simp [InstanceState.live]
  have hlive : liveInstances f' pool = (if i.pool = pool then 1 else 0) + liveInstances f pool := by
    unfold liveInstances Rows.count
    rw [hinstances, total_cons, hi.2.2]
    simp [InstanceState.live]
  by_cases hpool : i.pool = pool
  · have hless := h.asked a ha (hi.2.1.symm.trans hpool) hkind hopen hunbound
    rw [if_pos hpool] at hlive
    refine ⟨by omega, ?_⟩
    -- the pool's one open action has its instance now
    rw [hactions]
    intro b hb hbpool _ hbopen hbfree
    rw [howned.oneOpen b hb a ha (by rw [hbpool, ← hpool, hi.2.1]) hbopen hopen, hbound] at hbfree
    simp [Instance.refersTo, hi.1] at hbfree
  · rw [if_neg hpool, Nat.zero_add] at hlive
    refine ⟨hlive ▸ h.within, ?_⟩
    rw [hactions, hlive]
    intro b hb hbpool hbkind hbopen hbfree
    rw [hbound, Bool.or_eq_false_iff] at hbfree
    exact h.asked b hb hbpool hbkind hbopen hbfree.2

variable {confirm : PoolId → Prop}

theorem Served.live_le (h : Served c now confirm f f') (pool : PoolId) :
    liveInstances f' pool ≤ liveInstances f pool := by
  rcases h with ⟨a, i, g, p, r, q, hacts, _, _, hlive, _, _⟩
  unfold liveInstances
  rw [hacts.instances]
  refine total_update_le ?_
  intro x hx hp
  rw [hacts.selects x hx hp, hacts.same.2]
  by_cases hpool : i.pool = pool
  · simp only [hpool, decide_true, Bool.true_and]
    split <;> omega
  · simp [hpool]

theorem Served.active_le (h : Served c now confirm f f')
    (hconfirm : ¬ confirm pool) : activeInstances f' pool ≤ activeInstances f pool := by
  rcases h with ⟨a, i, g, p, r, q, hacts, _, _, _, hactive, _⟩
  unfold activeInstances
  rw [hacts.instances]
  refine total_update_le ?_
  intro x hx hp
  rw [hacts.selects x hx hp, hacts.same.2]
  by_cases hpool : i.pool = pool
  · have hnot : (g i).state ≠ .active := fun hs => hconfirm (hpool ▸ hactive hs)
    simp [hnot]
  · simp [hpool]

theorem Room.served (h : Room f pool limit) (howned : Owned f)
    (hserved : Served c now confirm f f') : Room f' pool limit := by
  have hle := hserved.live_le pool
  rcases hserved with ⟨a, i, g, p, r, q, hacts, _, _, _, _, _⟩
  refine ⟨hle.trans h.within, ?_⟩
  rw [hacts.actions]
  intro b hb hpool hkind hopen hunbound
  have hnone := any_eq_false.mp hunbound
  refine hle.trans_lt ?_
  rcases mem_update.mp hb with ⟨x, hx, rfl⟩
  by_cases hxa : x = a
  · -- open afterwards, so it has work to do on its instance, which is live
    subst hxa
    exfalso
    cases hawaits : x.kind.awaits (g i).state with
    | false =>
      rw [hacts.done hawaits] at hopen
      cases hopen
    | true =>
      refine hnone (g i) (hacts.mem_instances.mpr (.inl rfl)) ?_
      have hid : (if q x then r x else x).id = x.id := by
        split
        · exact hacts.kept.1
        · rfl
      rw [hid, refersTo_iff.mpr ⟨_, hacts.names.2⟩, live_of_awaits hawaits]
      rfl
  · have hq : q x = false := by
      cases hq : q x with
      | false => rfl
      | true => exact absurd (hacts.rows x hx hq) hxa
    simp only [hq, Bool.false_eq_true, if_false] at hpool hkind hopen hnone
    refine h.asked x hx hpool hkind hopen (any_eq_false.mpr ?_)
    intro y hy hrefers
    simp only [Bool.and_eq_true] at hrefers
    by_cases hyi : y = i
    · have hxpool := (howned.owns hx hy hrefers.1).pool
      rw [hyi, ← hacts.target.2] at hxpool
      exact hxa (howned.oneOpen x hx a hacts.action.1 hxpool hopen hacts.action.2)
    have hp : p y = false := by
      cases hp : p y with
      | false => rfl
      | true => exact absurd (hacts.selects y hy hp) hyi
    refine hnone y (hacts.mem_instances.mpr (.inr ⟨hy, hyi, hp⟩)) ?_
    simp [hrefers]

section Outcome

variable {claim : Option (Claim × Time)} {grant : PoolId → Prop}

theorem Room.effect (h : Room f pool limit) (howned : Owned f)
    (hgrant : grant pool → activeInstances f pool < limit)
    (houtcome : Outcome claim grant confirm f f') : Room f' pool limit := by
  cases houtcome with
  | revised p g hg hactions hinstances =>
    refine h.rewriteActions ?_ hactions hinstances
    intro a ha hpa hpool hkind hopen hunbound
    rcases hg a ha hpa with ⟨hbefore, ⟨hid, hapool, _⟩, ⟨hfree, _, hgranted⟩ | ⟨hakind, _⟩⟩
    · rw [hapool] at hpool
      rw [howned.live_eq_active]
      · exact hgrant (hpool ▸ hgranted hopen hkind)
      intro x hx hxpool hxopen
      rw [howned.oneOpen x hx a ha (hxpool.trans hpool.symm) hxopen hbefore]
      exact hfree
    · exact h.asked a ha (hapool ▸ hpool) (hakind ▸ hkind) hbefore (hid ▸ hunbound)
  | enqueued a hopen hid hgranted hactions hinstances =>
    have hclosed := openAction?_none.mp hopen
    have hbound : ∀ d, f'.bound d = f.bound d := fun d => by unfold Fleet.bound; rw [hinstances]
    have hlive : liveInstances f' pool = liveInstances f pool := by
      unfold liveInstances
      rw [hinstances]
    refine ⟨hlive ▸ h.within, ?_⟩
    rw [hactions, hlive]
    intro b hb hpool hkind hbopen hunbound
    rcases mem_cons.mp hb with hba | hbf
    · subst hba
      rw [howned.live_eq_active]
      · exact hgrant (hpool ▸ hgranted hkind)
      intro x hx hxpool hxopen
      rw [hclosed x hx (hxpool.trans hpool.symm)] at hxopen
      cases hxopen
    · exact h.asked b hbf hpool hkind hbopen (hbound b.id ▸ hunbound)
  | reserved _ _ _ _ _ ha _ hopen hkind hnew hi hactions hinstances =>
    exact h.reserve howned ha hopen hkind ⟨hi.1, hi.2.2⟩ (fun x hx => (hnew x hx).1) hactions
      hinstances
  | served _ _ _ hserved => exact h.served howned hserved

theorem Outcome.active_le (houtcome : Outcome claim grant confirm f f') (hconfirm : ¬ confirm pool) :
    activeInstances f' pool ≤ activeInstances f pool := by
  cases houtcome with
  | revised _ _ _ _ hinstances | enqueued _ _ _ _ _ hinstances =>
    unfold activeInstances
    rw [hinstances]
  | reserved _ _ _ _ _ _ _ _ _ _ hi _ hinstances =>
    unfold activeInstances Rows.count
    rw [hinstances, total_cons, hi.2.2.2]
    simp
  | served _ _ _ hserved => exact hserved.active_le hconfirm

end Outcome

/-! ## Passes -/

/-- The pass may still ask for a slot in the pool. -/
def Pass.awaits (p : Pass) (pool : PoolId) : Bool :=
  match p.stage with
  | .canceling _ => false
  | .allocating todo _ => todo.any (·.pool.id = pool)
  | _ => true

/-- The pass is about to count the executors of the provider. -/
def Pass.counts (p : Pass) (provider : String) : Bool :=
  match p.stage with
  | .counting _ _ (x :: _) => x.1 = provider
  | _ => false

def Stage.statuses : Stage → List PoolStatus
  | .observing _ done => done
  | .canceling todo => todo
  | .pending statuses | .counting statuses _ _ => statuses
  | .allocating todo _ => todo

def Stage.unseen : Stage → List PoolDefinition
  | .observing todo _ => todo
  | _ => []

/-- The budgets leave room above the given number of active instances: `seen` are the limits of the
providers counted so far. -/
structure Affords (policy : Policy) (pool : PoolDefinition) (active : Nat) (budgets : Budgets)
    (seen : List (String × Nat)) : Prop where
  slots : 0 < budgets.scaleUp → active < policy.maxSlots
  providers : List.Forall₂ (fun x y => x.1 = y.1 ∧ (x.1 = pool.provider → 0 < x.2 → active < y.2))
    budgets.providers seen

def Stage.affords (policy : Policy) (pool : PoolDefinition) (active : Nat) : Stage → Prop
  | .counting _ budgets todo =>
    ∃ seen, policy.providerMaxSlots = seen ++ todo ∧ Affords policy pool active budgets seen
  | .allocating _ budgets => Affords policy pool active budgets policy.providerMaxSlots
  | _ => True

/-- A pass under the policy has counted at least the active instances of the pool. -/
structure Sound (policy : Policy) (pool : PoolDefinition) (f : Fleet) (p : Pass) : Prop where
  same : p.policy = policy
  valid : validateAutoscalePolicy policy = .ok ()
  statuses : ∀ s ∈ p.stage.statuses, s.pool ∈ policy.pools
  unseen : ∀ d ∈ p.stage.unseen, d ∈ policy.pools
  counted : p.awaits pool.id = true → activeInstances f pool.id ≤ p.activeSlots
  affords : p.awaits pool.id = true → p.stage.affords policy pool (activeInstances f pool.id)

section Passes

variable {policy : Policy} {pool : PoolDefinition} {p p' : Pass} {budgets : Budgets}
  {active active' : Nat} {seen : List (String × Nat)}

theorem Affords.mono (h : Affords policy pool active budgets seen) (hle : active' ≤ active) :
    Affords policy pool active' budgets seen := by
  refine ⟨fun hpos => hle.trans_lt (h.slots hpos), h.providers.imp ?_⟩
  rintro x y ⟨hkey, hlimit⟩
  exact ⟨hkey, fun hprovider hpos => hle.trans_lt (hlimit hprovider hpos)⟩

theorem Affords.spendUp (h : Affords policy pool active budgets seen) (provider : String) :
    Affords policy pool active (budgets.spendUp provider) seen := by
  constructor
  · intro hpos
    exact h.slots (Nat.lt_of_lt_of_le hpos (Nat.sub_le _ _))
  · refine List.forall₂_map_left_iff.mpr (h.providers.imp ?_)
    rintro x y ⟨hkey, hlimit⟩
    split
    · exact ⟨hkey, fun hprovider hpos => hlimit hprovider (Nat.lt_of_lt_of_le hpos (Nat.sub_le _ _))⟩
    · exact ⟨hkey, hlimit⟩

theorem Affords.provider (h : Affords policy pool active budgets seen)
    (hpos : 0 < budgets.provider pool.provider) : active < (seen.lookup pool.provider).getD 0 := by
  have hlookup := h.providers
  unfold Budgets.provider at hpos
  clear h
  generalize budgets.providers = providers at hlookup hpos
  induction hlookup with
  | nil => cases hpos
  | @cons x y xs ys hxy _ ih =>
    rcases x with ⟨q, v⟩
    rcases y with ⟨q', limit⟩
    rcases hxy with ⟨hkey, hlimit⟩
    cases hkey
    by_cases hq : pool.provider = q
    · subst hq
      simp only [lookup_cons_self, Option.getD_some] at hpos ⊢
      exact hlimit rfl hpos
    · have hne : (pool.provider == q) = false := by simpa using hq
      rw [lookup_cons, hne] at hpos ⊢
      exact ih hpos

theorem Stage.affords_mono {stage : Stage} (h : stage.affords policy pool active)
    (hle : active' ≤ active) : stage.affords policy pool active' := by
  cases stage with
  | observing todo done | canceling todo | pending statuses => trivial
  | counting statuses budgets todo =>
    rcases h with ⟨seen, heq, h⟩
    exact ⟨seen, heq, h.mono hle⟩
  | allocating todo budgets => exact Affords.mono h hle

theorem Sound.mono (h : Sound policy pool f p)
    (hle : p.awaits pool.id = true → activeInstances f' pool.id ≤ activeInstances f pool.id) :
    Sound policy pool f' p where
  same := h.same
  valid := h.valid
  statuses := h.statuses
  unseen := h.unseen
  counted := fun hawaits => (hle hawaits).trans (h.counted hawaits)
  affords := fun hawaits => Stage.affords_mono (h.affords hawaits) (hle hawaits)

theorem nodup_of_validatePools {pools : List PoolDefinition} {ids : List PoolId}
    (h : validatePools policy ids pools = .ok ()) :
    Keyed PoolDefinition.id pools ∧ ∀ d ∈ pools, d.id ∉ ids := by
  induction pools generalizing ids with
  | nil => exact ⟨nodup_nil, nofun⟩
  | cons d pools ih =>
    rcases require_bind_eq_ok.mp h with ⟨hnew, h⟩
    replace h := passed h
    rcases ih h with ⟨hkeyed, hfresh⟩
    refine ⟨hkeyed.cons ?_, ?_⟩
    · intro x hx heq
      exact hfresh x hx (by rw [heq]; exact mem_cons_self)
    · intro x hx
      rcases mem_cons.mp hx with rfl | hx
      · simpa using hnew
      · exact fun hmem => hfresh x hx (mem_cons_of_mem _ hmem)

theorem keyed_of_validateAutoscalePolicy (h : validateAutoscalePolicy policy = .ok ()) :
    Keyed PoolDefinition.id policy.pools := by
  replace h := passed h
  replace h := passed h
  exact (nodup_of_validatePools h).1

theorem Sound.grants (h : Sound policy pool f p) (hpool : pool ∈ policy.pools)
    (hgrants : p.grants pool.id) : activeInstances f pool.id < policy.maxSlots ∧
      activeInstances f pool.id < policy.providerLimit pool.provider := by
  rcases hgrants with ⟨status, todo, budgets, hstage, hid, hslots, hprovider⟩
  have hawaits : p.awaits pool.id = true := by
    unfold Pass.awaits
    rw [hstage]
    simp [hid]
  have hmem : status.pool ∈ policy.pools := h.statuses status (by rw [hstage]; simp [Stage.statuses])
  have hsame : status.pool = pool := (keyed_of_validateAutoscalePolicy h.valid).eq hmem hpool hid
  have haffords := h.affords hawaits
  rw [hstage] at haffords
  rw [hsame] at hprovider
  exact ⟨haffords.slots hslots, haffords.provider hprovider⟩

theorem Sound.begin (h : beginPass f policy now = .ok p)
    (hcount : activeInstances f pool.id ≤ liveExecutors f now none) : Sound policy pool f p := by
  rcases bind_eq_ok.mp h with ⟨⟨⟩, hvalid, h⟩
  cases h
  exact
    { same := rfl
      valid := hvalid
      statuses := nofun
      unseen := fun _ hd => hd
      counted := fun _ => hcount
      affords := fun _ => trivial }

variable {fresh : ActionId}

theorem Affords.of_allocate (h : Affords policy pool active budgets seen) {budgets' : Budgets}
    {status : PoolStatus}
    (hrun : allocatePool f budgets status now fresh = .ok (f', budgets')) :
    Affords policy pool active budgets' seen := by
  unfold allocatePool at hrun
  split at hrun
  · rcases map_eq_ok.mp hrun with ⟨f₁, _, heq⟩
    cases heq
    exact h.spendUp _
  split at hrun
  · rcases map_eq_ok.mp hrun with ⟨f₁, _, heq⟩
    cases heq
    exact ⟨h.slots, h.providers⟩
  · cases hrun
    exact h

theorem Sound.advance (h : Sound policy pool f p) {demand : Demand}
    (hcount : p.counts pool.provider = true →
      activeInstances f pool.id ≤ liveExecutors f now (some (providerLabel pool.provider)))
    (hrun : p.advance f now demand fresh = .ok (f', some p')) : Sound policy pool f p' := by
  rcases h with ⟨hsame, hvalid, hstatuses, hunseen, hcounted, haffords⟩
  have hnone : ∀ d ∈ ([] : List PoolDefinition), d ∈ policy.pools := nofun
  unfold Pass.advance at hrun
  cases hstage : p.stage with
  | observing todo done =>
    simp only [hstage] at hrun hstatuses hunseen
    have hawaits : p.awaits pool.id = true := by unfold Pass.awaits; rw [hstage]
    cases todo with
    | nil =>
      simp only at hrun
      split at hrun <;> cases hrun
      · exact ⟨hsame, hvalid, hstatuses, hnone, fun _ => hcounted hawaits,
          fun _ => trivial⟩
      · refine ⟨hsame, hvalid, hstatuses, hnone, ?_, fun _ => trivial⟩
        nofun
    | cons d todo =>
      cases hrun
      refine ⟨hsame, hvalid, ?_, ?_, fun _ => hcounted hawaits, fun _ => trivial⟩
      · intro s hs
        rcases mem_append.mp hs with hs | hs
        · exact hstatuses s hs
        · rw [mem_singleton.mp hs]
          exact hunseen d mem_cons_self
      · exact fun x hx => hunseen x (mem_cons_of_mem _ hx)
  | canceling todo =>
    simp only [hstage] at hrun hstatuses
    cases todo with
    | nil => cases hrun
    | cons s todo =>
      cases hrun
      refine ⟨hsame, hvalid, ?_, hnone, ?_, fun _ => trivial⟩
      · exact fun x hx => hstatuses x (mem_cons_of_mem _ hx)
      · nofun
  | pending statuses =>
    simp only [hstage] at hrun hstatuses
    have hawaits : p.awaits pool.id = true := by unfold Pass.awaits; rw [hstage]
    cases hrun
    refine ⟨hsame, hvalid, hstatuses, hnone, fun _ => hcounted hawaits, ?_⟩
    intro _
    refine ⟨[], by rw [hsame]; rfl, ?_, .nil⟩
    intro hpos
    have hle := hcounted hawaits
    simp only [hsame] at hpos
    omega
  | counting statuses budgets todo =>
    simp only [hstage] at hrun hstatuses
    have hawaits : p.awaits pool.id = true := by unfold Pass.awaits; rw [hstage]
    have hstaged := haffords hawaits
    rw [hstage] at hstaged
    rcases hstaged with ⟨seen, heq, hold⟩
    cases todo with
    | nil =>
      cases hrun
      refine ⟨hsame, hvalid, ?_, hnone, fun _ => hcounted hawaits, ?_⟩
      · exact fun s hs => hstatuses s ((mem_insertionSort _).mp hs)
      · intro _
        rw [append_nil] at heq
        change Affords policy pool _ budgets policy.providerMaxSlots
        rw [heq]
        exact hold
    | cons x todo =>
      rcases x with ⟨q, limit⟩
      cases hrun
      refine ⟨hsame, hvalid, hstatuses, hnone, fun _ => hcounted hawaits, ?_⟩
      intro _
      refine ⟨seen ++ [(q, limit)], by rw [heq]; simp, hold.slots, ?_⟩
      refine rel_append hold.providers (.cons ⟨rfl, ?_⟩ .nil)
      intro hq hpos
      have hle := hcount (by unfold Pass.counts; rw [hstage]; simpa using hq)
      rw [show q = pool.provider from hq] at hpos
      omega
  | allocating todo budgets =>
    simp only [hstage] at hrun hstatuses
    cases todo with
    | nil => cases hrun
    | cons s todo =>
      rcases bind_eq_ok.mp hrun with ⟨⟨f₁, budgets'⟩, halloc, hrun⟩
      cases hrun
      -- a pass that waits for the pool afterwards waited for it before
      have hbefore : todo.any (·.pool.id = pool.id) = true → p.awaits pool.id = true := by
        intro hany
        unfold Pass.awaits
        rw [hstage]
        exact any_cons.trans (by rw [hany, Bool.or_true])
      refine ⟨hsame, hvalid, ?_, hnone, fun ha => hcounted (hbefore ha), ?_⟩
      · exact fun x hx => hstatuses x (mem_cons_of_mem _ hx)
      · intro ha
        have hstaged := haffords (hbefore ha)
        rw [hstage] at hstaged
        exact Affords.of_allocate hstaged halloc

end Passes

/-! ## Runs -/

/-- The passes run under one policy, and only passes ask for capacity. -/
def Op.under (policy : Policy) : Op → Prop
  | .beginPass _ q _ => q = policy
  | .request _ _ _ _ _ _ _ => False
  | _ => True

/-- The live executors account for the active instances of the pool when a pass counts them, and no
instance of the pool becomes active before a pass is through with the pool. -/
def Counted (pool : PoolDefinition) (s : System) : Op → Prop
  | .beginPass _ _ now => activeInstances s.fleet pool.id ≤ liveExecutors s.fleet now none
  | .advance id now _ _ => ∀ p, s.passes id = some p → p.counts pool.provider = true →
      activeInstances s.fleet pool.id ≤
        liveExecutors s.fleet now (some (providerLabel pool.provider))
  | .confirm c _ _ => c.pool.id = pool.id →
      ∀ id p, s.passes id = some p → p.awaits pool.id = false
  | _ => True

/-- The invariant of the runs under the policy. -/
structure WithinCeiling (policy : Policy) (pool : PoolDefinition) (s : System) : Prop where
  inv : Inv s
  slots : Room s.fleet pool.id policy.maxSlots
  provider : Room s.fleet pool.id (policy.providerLimit pool.provider)
  passes : ∀ id p, s.passes id = some p → Sound policy pool s.fleet p

section Runs

variable {policy : Policy} {pool : PoolDefinition} {s : System} {op : Op}

theorem WithinCeiling.init : WithinCeiling policy pool System.init :=
  ⟨inv_init, ⟨Nat.zero_le _, nofun⟩, ⟨Nat.zero_le _, nofun⟩,
    nofun⟩

theorem WithinCeiling.grants (h : WithinCeiling policy pool s) (hpool : pool ∈ policy.pools)
    (hunder : op.under policy) (hgrants : op.grants s pool.id) :
    activeInstances s.fleet pool.id < policy.maxSlots ∧
      activeInstances s.fleet pool.id < policy.providerLimit pool.provider := by
  cases op with
  | request => exact hunder.elim
  | advance id now demand fresh =>
    rcases hgrants with ⟨p, hp, hgrants⟩
    exact (h.passes id p hp).grants hpool hgrants
  | _ => exact hgrants.elim

/-- A call that confirms an instance of the pool finds no pass that is still to serve the pool. -/
theorem Counted.not_confirms (h : Counted pool s op) {id : Nat} {p : Pass}
    (hp : s.passes id = some p) (hawaits : p.awaits pool.id = true) : ¬ op.confirms pool.id := by
  intro hconfirms
  cases op with
  | confirm c ref now =>
    rw [h hconfirms id p hp] at hawaits
    cases hawaits
  | _ => exact hconfirms.elim

theorem WithinCeiling.step_passes (h : WithinCeiling policy pool s) (hunder : op.under policy)
    (hcounted : Counted pool s op) (id : Nat) (p : Pass) (hp : (step s op).passes id = some p) :
    Sound policy pool (step s op).fleet p := by
  rcases Capacity.step_passes hp with
    hold | ⟨q, now, rfl, hbegin⟩ | ⟨q, now, demand, fresh, f', rfl, hq, hadvance⟩
  · exact (h.passes id p hold).mono fun hawaits =>
      (h.inv.outcome op).active_le (hcounted.not_confirms hold hawaits)
  · have hsame : q = policy := hunder
    rw [hsame] at hbegin
    refine (Sound.begin hbegin hcounted).mono fun _ =>
      (h.inv.outcome _).active_le ?_
    exact fun hfalse => hfalse
  · refine ((h.passes id q hq).advance (hcounted q hq) hadvance).mono fun _ =>
      (h.inv.outcome _).active_le ?_
    exact fun hfalse => hfalse

theorem WithinCeiling.step (h : WithinCeiling policy pool s) (hpool : pool ∈ policy.pools)
    (hunder : op.under policy) (hcounted : Counted pool s op) :
    WithinCeiling policy pool (step s op) := by
  have hslots := h.slots.effect h.inv.owned (fun hg => (h.grants hpool hunder hg).1)
    (h.inv.outcome op)
  have hprovider := h.provider.effect h.inv.owned (fun hg => (h.grants hpool hunder hg).2)
    (h.inv.outcome op)
  exact ⟨h.inv.step op, hslots, hprovider, h.step_passes hunder hcounted⟩

/-- In every run under the policy in which the executors are counted for the active instances, the
pool keeps within the policy's maximum and within the limit of its provider. -/
theorem capacity_within_ceiling (policy : Policy) (pool : PoolDefinition)
    (hpool : pool ∈ policy.pools) (ops : List Op) (hunder : ∀ op ∈ ops, op.under policy)
    (hcounted : Along step (Counted pool) System.init ops) :
    liveInstances (run step System.init ops).fleet pool.id ≤ policy.maxSlots ∧
      liveInstances (run step System.init ops).fleet pool.id ≤
        policy.providerLimit pool.provider := by
  have hinv : WithinCeiling policy pool (run Capacity.step System.init ops) :=
    run_invariant (C := fun s op => Op.under policy op ∧ Counted pool s op)
      (fun _ _ hs hC => hs.step hpool hC.1 hC.2) .init ((along_of_forall hunder).and hcounted)
  exact ⟨hinv.slots.within, hinv.provider.within⟩

end Runs

/-! ## A slot that misses its heartbeat -/

def onePool : PoolDefinition where
  id := "east"
  provider := "cloud"
  executionZone := "zone-a"
  arch := "amd64"
  buildMode := "cloud"
  profileId := "profile"
  imageId := "image"
  imageGeneration := "1"
  selector := [capacityPoolLabel "east"]

def oneSlotPolicy : Policy where
  mode := .actuate
  minSlots := 0
  maxSlots := 1
  targetReady := 1
  cooldown := 0
  scaleDownDelay := 0
  pools := [onePool]
  providerMaxSlots := [("cloud", 1)]

def onePass (now : Time) (fresh : ActionId) : List Op :=
  .beginPass 0 oneSlotPolicy now :: List.replicate 7 (.advance 0 now ⟨0, 1, 0⟩ fresh)

/-- The claim an actuator is handed for a scale-up of the pool. -/
def oneClaim (id : ActionId) (now : Time) : Claim where
  id := id
  pool := onePool
  kind := .scaleUp
  requestedSlots := 1
  observedSlots := 0
  deltaSlots := 1
  reason := "busy=0 schedulable_backlog=1 target_ready_per_slot=1"
  owner := "actuator"
  fence := 1
  leaseExpiresAt := some (now + 60 * microsPerSecond)

/-- A pass asks for a slot, and an actuator reserves an instance for it. -/
def oneScaleUp (id : Nat) (now : Time) : List Op :=
  onePass now id ++ [
    .claim "actuator" (60 * microsPerSecond) now (fun _ => false),
    .reserve (oneClaim id now) now id id]

/-- The instance's slot reports, and the instance becomes active. -/
def oneHeartbeat (id : Nat) (now : Time) : List Op :=
  [.register "slot" .phaseExecutor
      [capacityPoolLabel "east", providerLabel "cloud", capacityInstanceLabel id] 1 now,
    .confirm (oneClaim id now) ⟨id, id, 1⟩ now]

/-- The slot reports once and is silent for a minute.  The next pass counts no executor and asks for
another slot, though the instance is still there. -/
theorem capacity_exceeds_ceiling :
    (∀ op ∈ oneScaleUp 1 0 ++ oneHeartbeat 1 0 ++ oneScaleUp 2 (60 * microsPerSecond),
      op.under oneSlotPolicy) ∧
    oneSlotPolicy.maxSlots < liveInstances (run step System.init
      (oneScaleUp 1 0 ++ oneHeartbeat 1 0 ++ oneScaleUp 2 (60 * microsPerSecond))).fleet "east" := by
  refine ⟨?_, by decide +kernel⟩
  simp [oneScaleUp, onePass, oneHeartbeat, Op.under]

/-- What `Counted` asks of a step, decided for the runs of a single pass. -/
def countedOne (s : System) : Op → Bool
  | .beginPass id _ now =>
    id = 0 && activeInstances s.fleet onePool.id ≤ liveExecutors s.fleet now none
  | .advance _ now _ _ => activeInstances s.fleet onePool.id ≤
      liveExecutors s.fleet now (some (providerLabel onePool.provider))
  | .confirm _ _ _ => (s.passes 0).all (!·.awaits onePool.id)
  | _ => true

theorem counted_of_countedOne {s : System} {op : Op}
    (h : (∀ id p, s.passes id = some p → id = 0) ∧ countedOne s op = true) : Counted onePool s op := by
  cases op with
  | beginPass id policy now =>
    simp only [countedOne, Bool.and_eq_true, decide_eq_true_eq] at h
    exact h.2.2
  | advance id now demand fresh => exact fun _ _ _ => by simpa [countedOne] using h.2
  | confirm c ref now =>
    intro _ id p hp
    cases h.1 id p hp
    simpa [countedOne, hp] using h.2
  | _ => trivial

/-- The first instance of a pool becomes active, and the next pass asks for nothing more. -/
def oneSlotRun : List Op :=
  oneScaleUp 1 0 ++ oneHeartbeat 1 0 ++ onePass (10 * microsPerSecond) 2

theorem capacity_within_ceiling_one :
    activeInstances (run step System.init oneSlotRun).fleet "east" = 1 ∧
      liveInstances (run step System.init oneSlotRun).fleet "east" ≤ 1 ∧
      liveInstances (run step System.init oneSlotRun).fleet "east" ≤ 1 := by
  have hunder : ∀ op ∈ oneSlotRun, op.under oneSlotPolicy := by
    simp [oneSlotRun, oneScaleUp, onePass, oneHeartbeat, Op.under]
  have hcounted : Along step (fun s op => countedOne s op = true) System.init oneSlotRun := by
    decide +kernel
  have hone : ∀ s op, (∀ id p, s.passes id = some p → id = 0) → countedOne s op = true →
      ∀ id p, (step s op).passes id = some p → id = 0 := by
    intro s op hone hop id p hp
    rcases step_passes hp with hp | ⟨policy, now, rfl, _⟩ | ⟨q, now, demand, fresh, f', rfl, hq, _⟩
    · exact hone id p hp
    · exact (by simpa [countedOne] using hop : id = 0 ∧ _).1
    · exact hone id q hq
  have hinit : ∀ id p, System.init.passes id = some p → id = 0 := nofun
  exact ⟨by decide +kernel, capacity_within_ceiling oneSlotPolicy onePool (by decide) oneSlotRun hunder
    ((along_invariant hone hinit hcounted).imp fun _ _ => counted_of_countedOne)⟩

end PortageEngine.Capacity
