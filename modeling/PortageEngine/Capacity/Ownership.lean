import PortageEngine.Capacity.System

/-!
# Which action an instance belongs to

An instance belongs to the action that creates it until its first heartbeat, and to the action that
deletes it from then on.  The invariant `Owned` says that the action an instance waits for is open,
that the other one is completed, and that a pool has one open action at most.  So an actuator that
presents the current claim of an action can only touch that action's own instance.
-/

namespace PortageEngine.Capacity

open List Library Library.Rows Library.Runs
open Ledger

/-! ## Ownership -/

/-- The action of the given kind that an instance names. -/
def Instance.owner? (i : Instance) : ActionKind → Option ActionId
  | .scaleUp => some i.createAction
  | .scaleDown => i.deleteAction

/-- The states of an instance in which an action of the given kind still has work to do. -/
def ActionKind.awaits : ActionKind → InstanceState → Bool
  | .scaleUp, .provisioning | .scaleDown, .draining | .scaleDown, .deleting => true
  | _, _ => false

/-- The action is responsible for the instance: open while it has work to do, completed after. -/
structure Owns (a : Action) (i : Instance) : Prop where
  names : i.owner? a.kind = some a.id
  pool : a.pool = i.pool
  working : a.kind.awaits i.state = true → a.state.isOpen = true
  done : a.kind.awaits i.state = false → a.state = .completed

/-- The action has the instance's next change of state to make. -/
def Action.responsible (a : Action) (i : Instance) : Bool :=
  a.owns i && a.kind.awaits i.state

structure Owned (f : Fleet) : Prop where
  actionKeys : Keyed Action.id f.actions
  instanceKeys : Keyed Instance.id f.instances
  oneOpen : ∀ a ∈ f.actions, ∀ b ∈ f.actions, a.pool = b.pool → a.state.isOpen = true →
    b.state.isOpen = true → a = b
  owner : ∀ i ∈ f.instances, ∀ kind d, i.owner? kind = some d →
    ∃ a ∈ f.actions, a.id = d ∧ a.kind = kind ∧ Owns a i
  onlyOwner : ∀ i ∈ f.instances, ∀ j ∈ f.instances, ∀ kind d, i.owner? kind = some d →
    j.owner? kind = some d → i = j
  leaving : ∀ i ∈ f.instances, ActionKind.scaleDown.awaits i.state = true → i.deleteAction ≠ none
  staying : ∀ i ∈ f.instances, i.state = .provisioning ∨ i.state = .active → i.deleteAction = none

/-- A claim that was handed out describes its action as long as its fence is the current one. -/
structure Held (f : Fleet) (c : Claim) : Prop where
  known : ∃ a ∈ f.actions, a.id = c.id
  agrees : ∀ a ∈ f.actions, a.id = c.id → c.pool.id = a.pool ∧ c.fence ≤ a.fence ∧
    (c.fence = a.fence → a.state = .claimed → c.kind = a.kind)

variable {f f' : Fleet} {a b : Action} {i : Instance} {c : Claim} {now : Time}

theorem refersTo_iff {d : ActionId} : i.refersTo d = true ↔ ∃ kind, i.owner? kind = some d := by
  constructor
  · intro h
    simp only [Instance.refersTo, Bool.or_eq_true, decide_eq_true_eq] at h
    rcases h with h | h
    · exact ⟨.scaleUp, congrArg some h⟩
    · exact ⟨.scaleDown, h⟩
  · rintro ⟨kind, h⟩
    cases kind with
    | scaleUp => simp [Instance.refersTo, Option.some.inj h]
    | scaleDown =>
      have hdelete : i.deleteAction = some d := h
      simp [Instance.refersTo, hdelete]

theorem owns_iff : a.owns i = true ↔ i.owner? a.kind = some a.id := by
  unfold Action.owns
  cases a.kind <;> simp [Instance.owner?]

variable {kind : ActionKind} {from_ to_ : InstanceState} {done : Bool}

theorem live_of_awaits {state : InstanceState} (h : kind.awaits state = true) :
    state.live = true := by
  cases kind <;> cases state <;> first | rfl | cases h

theorem Owned.owns (h : Owned f) (ha : a ∈ f.actions) (hi : i ∈ f.instances)
    (hrefers : i.refersTo a.id = true) : Owns a i := by
  rcases refersTo_iff.mp hrefers with ⟨kind, hkind⟩
  rcases h.owner i hi kind a.id hkind with ⟨b, hb, hid, _, howns⟩
  rwa [h.actionKeys.eq ha hb hid.symm]

theorem Owns.awaits (h : Owns a i) (hopen : a.state.isOpen = true) :
    a.kind.awaits i.state = true := by
  cases hawaits : a.kind.awaits i.state with
  | true => rfl
  | false =>
    rw [h.done hawaits] at hopen
    cases hopen

theorem Owned.unreferenced (h : Owned f) (ha : a ∈ f.actions) (hopen : a.state.isOpen = true)
    (hbound : f.bound a.id = false) : ∀ i ∈ f.instances, i.refersTo a.id = false := by
  intro i hi
  cases hrefers : i.refersTo a.id with
  | false => rfl
  | true =>
    have hlive := live_of_awaits ((h.owns ha hi hrefers).awaits hopen)
    have hnone := any_eq_false.mp hbound i hi
    simp [hrefers, hlive] at hnone

theorem Held.holder (h : Held f c) (ha : a ∈ f.actions) (hcurrent : c.current now a = true) :
    a.id = c.id ∧ a.state = .claimed ∧ a.pool = c.pool.id ∧ a.kind = c.kind := by
  simp only [Claim.current, Bool.and_eq_true, decide_eq_true_eq] at hcurrent
  rcases hcurrent with ⟨⟨⟨⟨hid, hstate⟩, _⟩, hfence⟩, _⟩
  rcases h.agrees a ha hid with ⟨hpool, _, hkind⟩
  exact ⟨hid, hstate, hpool.symm, (hkind hfence.symm hstate).symm⟩

/-! ## Steps -/

variable {p : Action → Bool} {g : Action → Action}

theorem Owned.rewriteActions (h : Owned f)
    (hg : ∀ a ∈ f.actions, p a = true → a.state.isOpen = true ∧ (g a).id = a.id ∧
      (g a).pool = a.pool ∧ ∀ i ∈ f.instances, i.refersTo a.id = true →
        (g a).kind = a.kind ∧ (g a).state.isOpen = true)
    (hactions : f'.actions = update p g f.actions) (hinstances : f'.instances = f.instances) :
    Owned f' := by
  rcases f' with ⟨⟩
  cases hactions
  cases hinstances
  refine ⟨?_, h.instanceKeys, ?_, ?_, h.onlyOwner, h.leaving, h.staying⟩
  · exact h.actionKeys.update_of_mem fun a ha hp => (hg a ha hp).2.1
  · intro a ha b hb hpool haopen hbopen
    rcases mem_update.mp ha with ⟨x, hx, rfl⟩
    rcases mem_update.mp hb with ⟨y, hy, rfl⟩
    have hback : ∀ z ∈ f.actions, (if p z then g z else z).state.isOpen = true →
        z.state.isOpen = true ∧ (if p z then g z else z).pool = z.pool := by
      intro z hz hzopen
      by_cases hp : p z = true
      · exact ⟨(hg z hz hp).1, by rw [if_pos hp]; exact (hg z hz hp).2.2.1⟩
      · rw [if_neg hp] at hzopen ⊢
        exact ⟨hzopen, rfl⟩
    rcases hback x hx haopen with ⟨hxopen, hxpool⟩
    rcases hback y hy hbopen with ⟨hyopen, hypool⟩
    rw [hxpool, hypool] at hpool
    rw [h.oneOpen x hx y hy hpool hxopen hyopen]
  · intro i hi kind d hd
    rcases h.owner i hi kind d hd with ⟨a, ha, rfl, rfl, howns⟩
    refine ⟨if p a then g a else a, mem_update.mpr ⟨a, ha, rfl⟩, ?_⟩
    by_cases hp : p a = true
    · rcases hg a ha hp with ⟨hopen, hid, hpool, hkeep⟩
      rcases hkeep i hi (refersTo_iff.mpr ⟨_, howns.names⟩) with ⟨hkind, hstays⟩
      rw [if_pos hp]
      refine ⟨hid, hkind, ?_, hpool.trans howns.pool, fun _ => hstays, ?_⟩
      · rw [hkind, hid]
        exact howns.names
      · rw [hkind, howns.awaits hopen]
        nofun
    · rw [if_neg hp]
      exact ⟨rfl, rfl, howns⟩

theorem Owned.enqueue (h : Owned f) (hnone : f.openAction? a.pool = none)
    (hid : ∀ b ∈ f.actions, b.id ≠ a.id) (hactions : f'.actions = a :: f.actions)
    (hinstances : f'.instances = f.instances) : Owned f' := by
  have hclosed := openAction?_none.mp hnone
  rcases f' with ⟨⟩
  cases hactions
  cases hinstances
  refine ⟨h.actionKeys.cons hid, h.instanceKeys, ?_, ?_, h.onlyOwner, h.leaving, h.staying⟩
  · intro x hx y hy hpool hxopen hyopen
    rcases mem_cons.mp hx with hxa | hxf
    · rcases mem_cons.mp hy with hya | hyf
      · rw [hxa, hya]
      · rw [hclosed y hyf (by rw [← hpool, hxa])] at hyopen
        cases hyopen
    · rcases mem_cons.mp hy with hya | hyf
      · rw [hclosed x hxf (by rw [hpool, hya])] at hxopen
        cases hxopen
      · exact h.oneOpen x hxf y hyf hpool hxopen hyopen
  · intro i hi kind d hd
    rcases h.owner i hi kind d hd with ⟨b, hb, howner⟩
    exact ⟨b, mem_cons_of_mem _ hb, howner⟩

theorem Owned.reopen_eq (h : Owned f) : reopenBoundCapacityActions f now = f := by
  have hnone : ∀ a ∈ f.actions, reopens f a = false := by
    intro a ha
    cases hreopens : reopens f a with
    | false => rfl
    | true =>
      simp only [reopens, reopenable, Bool.and_eq_true, Bool.or_eq_true, decide_eq_true_eq,
        any_eq_true] at hreopens
      rcases hreopens.1.1 with ⟨hclosed, i, hi, hown, htransition⟩
      have hnames : i.owner? a.kind = some a.id := by
        unfold Action.owns at hown
        cases hkind : a.kind <;> simpa [hkind, Instance.owner?] using hown
      have howns := h.owns ha hi (refersTo_iff.mpr ⟨_, hnames⟩)
      cases hawaits : a.kind.awaits i.state with
      | true =>
        have hopen := howns.working hawaits
        rcases hclosed with hclosed | hclosed <;> rw [hclosed] at hopen <;> cases hopen
      | false =>
        have hdone := howns.done hawaits
        rcases hclosed with hclosed | hclosed <;> rw [hclosed] at hdone <;> cases hdone
  unfold reopenBoundCapacityActions
  rw [update_eq_self hnone]

theorem Owned.reserve (h : Owned f) (ha : a ∈ f.actions) (hstate : a.state.isOpen = true)
    (hkind : a.kind = .scaleUp) (hi : i.createAction = a.id ∧ i.deleteAction = none ∧
      i.pool = a.pool ∧ i.state = .provisioning)
    (hnew : ∀ x ∈ f.instances, x.createAction ≠ a.id ∧ x.id ≠ i.id)
    (hactions : f'.actions = f.actions) (hinstances : f'.instances = i :: f.instances) :
    Owned f' := by
  rcases hi with ⟨hcreate, hdelete, hpool, hprovisioning⟩
  have hfresh : ∀ x ∈ f.instances, ∀ kind d, x.owner? kind = some d → i.owner? kind ≠ some d := by
    intro x hx kind d hd hid
    cases kind with
    | scaleUp =>
      have hxd : x.createAction = d := Option.some.inj hd
      have hxi : i.createAction = d := Option.some.inj hid
      exact (hnew x hx).1 (by rw [hxd, ← hxi, hcreate])
    | scaleDown =>
      have hid' : i.deleteAction = some d := hid
      rw [hdelete] at hid'
      cases hid'
  rcases f' with ⟨⟩
  cases hactions
  cases hinstances
  refine ⟨h.actionKeys, h.instanceKeys.cons fun x hx => (hnew x hx).2, h.oneOpen, ?_, ?_, ?_, ?_⟩
  · intro x hx kind d hd
    rcases mem_cons.mp hx with rfl | hx
    · cases kind with
      | scaleUp =>
        refine ⟨a, ha, ?_, hkind, ?_, hpool.symm, fun _ => hstate, ?_⟩
        · rw [← hcreate]
          exact Option.some.inj hd
        · rw [hkind]
          exact congrArg some hcreate
        · rw [hkind, hprovisioning]
          nofun
      | scaleDown =>
        have hd' : x.deleteAction = some d := hd
        rw [hdelete] at hd'
        cases hd'
    · exact h.owner x hx kind d hd
  · intro x hx y hy kind d hxd hyd
    rcases mem_cons.mp hx with hxi | hxf
    · rcases mem_cons.mp hy with hyi | hyf
      · rw [hxi, hyi]
      · exact absurd (hxi ▸ hxd) (hfresh y hyf kind d hyd)
    · rcases mem_cons.mp hy with hyi | hyf
      · exact absurd (hyi ▸ hyd) (hfresh x hxf kind d hxd)
      · exact h.onlyOwner x hxf y hyf kind d hxd hyd
  · intro x hx hleaving
    rcases mem_cons.mp hx with rfl | hx
    · rw [hprovisioning] at hleaving
      cases hleaving
    · exact h.leaving x hx hleaving
  · intro x hx hstaying
    rcases mem_cons.mp hx with rfl | hx
    · exact hdelete
    · exact h.staying x hx hstaying

/-- The owner of an instance acts on it: the instance's row becomes `g i`, and the action's row
becomes `r a` or stays.  Only what the two rows say of each other changes. -/
structure Acts (f f' : Fleet) (a : Action) (i : Instance) (g : Instance → Instance)
    (p : Instance → Bool) (r : Action → Action) (q : Action → Bool) : Prop where
  action : a ∈ f.actions ∧ a.state.isOpen = true
  target : i ∈ f.instances ∧ a.pool = i.pool
  alone : ∀ x ∈ f.instances, x.refersTo a.id = true → x = i
  selects : ∀ x ∈ f.instances, p x = true → x = i
  instances : f'.instances = update p g f.instances
  same : (g i).id = i.id ∧ (g i).pool = i.pool
  names : p i = true ∧ (g i).owner? a.kind = some a.id
  other : ∀ kind, kind ≠ a.kind → (g i).owner? kind = i.owner? kind ∧
    kind.awaits (g i).state = kind.awaits i.state
  rows : ∀ x ∈ f.actions, q x = true → x = a
  actions : f'.actions = update q r f.actions
  kept : (r a).id = a.id ∧ (r a).pool = a.pool ∧ (r a).kind = a.kind
  working : a.kind.awaits (g i).state = true → (if q a then r a else a).state.isOpen = true
  done : a.kind.awaits (g i).state = false → (if q a then r a else a).state = .completed
  leaving : ActionKind.scaleDown.awaits (g i).state = true → (g i).deleteAction ≠ none
  staying : (g i).state = .provisioning ∨ (g i).state = .active → (g i).deleteAction = none

section Acts

variable {g : Instance → Instance} {p : Instance → Bool} {r : Action → Action} {q : Action → Bool}

theorem Acts.mem_instances (h : Acts f f' a i g p r q) {x : Instance} :
    x ∈ f'.instances ↔ x = g i ∨ (x ∈ f.instances ∧ x ≠ i ∧ p x = false) := by
  rw [h.instances, mem_update]
  constructor
  · rintro ⟨y, hy, rfl⟩
    by_cases hp : p y = true
    · rw [if_pos hp, h.selects y hy hp]
      exact .inl rfl
    rw [if_neg hp]
    refine .inr ⟨hy, ?_, by simpa using hp⟩
    rintro rfl
    exact hp h.names.1
  · rintro (rfl | ⟨hx, _, hp⟩)
    · exact ⟨i, h.target.1, if_pos h.names.1⟩
    · exact ⟨x, hx, by simp [hp]⟩

theorem Acts.mem_actions (h : Acts f f' a i g p r q) (hb : b ∈ f.actions)
    (hne : b ≠ a) : b ∈ f'.actions := by
  rw [h.actions, mem_update]
  refine ⟨b, hb, if_neg ?_⟩
  intro hq
  exact hne (h.rows b hb hq)

theorem Owned.acts (h : Owned f) (hacts : Acts f f' a i g p r q) : Owned f' := by
  have hrow : (if q a then r a else a).id = a.id ∧ (if q a then r a else a).pool = a.pool ∧
      (if q a then r a else a).kind = a.kind := by
    by_cases hq : q a = true
    · rw [if_pos hq]
      exact hacts.kept
    · rw [if_neg hq]
      exact ⟨rfl, rfl, rfl⟩
  have hmem : (if q a then r a else a) ∈ f'.actions := by
    rw [hacts.actions]
    exact mem_update.mpr ⟨a, hacts.action.1, rfl⟩
  -- the rows of the actions keep their keys and pools, and no row is opened
  have hback : ∀ b ∈ f'.actions, ∃ x ∈ f.actions, b.id = x.id ∧ b.pool = x.pool ∧
      (b.state.isOpen = true → x.state.isOpen = true) ∧ b = if q x then r x else x := by
    intro b hb
    rw [hacts.actions] at hb
    rcases mem_update.mp hb with ⟨x, hx, rfl⟩
    by_cases hq : q x = true
    · have hxa := hacts.rows x hx hq
      subst hxa
      rw [if_pos hq] at hrow ⊢
      exact ⟨x, hx, hrow.1, hrow.2.1, fun _ => hacts.action.2, (if_pos hq).symm⟩
    · rw [if_neg hq]
      exact ⟨x, hx, rfl, rfl, id, (if_neg hq).symm⟩
  refine ⟨?_, ?_, ?_, ?_, ?_, ?_, ?_⟩
  · rw [hacts.actions]
    refine h.actionKeys.update_of_mem ?_
    intro x hx hq
    rw [hacts.rows x hx hq]
    exact hacts.kept.1
  · rw [hacts.instances]
    refine h.instanceKeys.update_of_mem ?_
    intro x hx hp
    rw [hacts.selects x hx hp]
    exact hacts.same.1
  · intro b hb b' hb' hpool hopen hopen'
    rcases hback b hb with ⟨x, hx, _, hxpool, hxopen, rfl⟩
    rcases hback b' hb' with ⟨y, hy, _, hypool, hyopen, rfl⟩
    rw [hxpool, hypool] at hpool
    rw [h.oneOpen x hx y hy hpool (hxopen hopen) (hyopen hopen')]
  · intro x hx kind d hd
    rcases hacts.mem_instances.mp hx with rfl | ⟨hx, hne, _⟩
    · by_cases hkind : kind = a.kind
      · subst hkind
        have hda : a.id = d := Option.some.inj (hacts.names.2.symm.trans hd)
        refine ⟨_, hmem, hrow.1.trans hda, hrow.2.2, ?_, ?_, ?_, ?_⟩
        · rw [hrow.2.2, hrow.1]
          exact hacts.names.2
        · rw [hrow.2.1, hacts.same.2]
          exact hacts.target.2
        · rw [hrow.2.2]
          exact hacts.working
        · rw [hrow.2.2]
          exact hacts.done
      · rcases hacts.other kind hkind with ⟨hname, hawaits⟩
        rw [hname] at hd
        rcases h.owner i hacts.target.1 kind d hd with ⟨b, hb, hid, rfl, howns⟩
        have hba : b ≠ a := fun heq => hkind (by rw [heq])
        refine ⟨b, hacts.mem_actions hb hba, hid, rfl, ?_, ?_, ?_, ?_⟩
        · rw [hname]
          exact howns.names
        · rw [hacts.same.2]
          exact howns.pool
        · rw [hawaits]
          exact howns.working
        · rw [hawaits]
          exact howns.done
    · rcases h.owner x hx kind d hd with ⟨b, hb, hid, hkind, howns⟩
      have hba : b ≠ a := by
        rintro rfl
        exact hne (hacts.alone x hx (refersTo_iff.mpr ⟨_, howns.names⟩))
      exact ⟨b, hacts.mem_actions hb hba, hid, hkind, howns⟩
  · -- another instance cannot share an owner with the new row
    have hdistinct : ∀ y ∈ f.instances, y ≠ i → ∀ kind d, y.owner? kind = some d →
        (g i).owner? kind ≠ some d := by
      intro y hy hne kind d hyd hgd
      by_cases hkind : kind = a.kind
      · subst hkind
        have hda : a.id = d := Option.some.inj (hacts.names.2.symm.trans hgd)
        exact hne (hacts.alone y hy (refersTo_iff.mpr ⟨_, hda ▸ hyd⟩))
      · rw [(hacts.other kind hkind).1] at hgd
        exact hne (h.onlyOwner y hy i hacts.target.1 kind d hyd hgd)
    intro x hx y hy kind d hxd hyd
    rcases hacts.mem_instances.mp hx with rfl | ⟨hx, hxi, _⟩
    · rcases hacts.mem_instances.mp hy with rfl | ⟨hy, hyi, _⟩
      · rfl
      · exact absurd hxd (hdistinct y hy hyi kind d hyd)
    · rcases hacts.mem_instances.mp hy with rfl | ⟨hy, hyi, _⟩
      · exact absurd hyd (hdistinct x hx hxi kind d hxd)
      · exact h.onlyOwner x hx y hy kind d hxd hyd
  · intro x hx hleaving
    rcases hacts.mem_instances.mp hx with rfl | ⟨hx, _, _⟩
    · exact hacts.leaving hleaving
    · exact h.leaving x hx hleaving
  · intro x hx hstaying
    rcases hacts.mem_instances.mp hx with rfl | ⟨hx, _, _⟩
    · exact hacts.staying hstaying
    · exact h.staying x hx hstaying

end Acts

theorem update_never : f.actions = update (fun _ => false) id f.actions :=
  (update_eq_self fun _ _ => rfl).symm

theorem Owned.acts_drain (h : Owned f) (ha : a ∈ f.actions) (hopen : a.state.isOpen = true)
    (hkind : a.kind = .scaleDown) (hid : a.id = c.id) (hi : i ∈ f.instances) (hpool : a.pool = i.pool)
    (hstate : i.state = .draining ∨ i.state = .deleting ∨ i.state = .active)
    (hother : ∀ x ∈ f.instances, x.id ≠ i.id → x.deleteAction ≠ some c.id)
    (hactions : f'.actions = f.actions)
    (hinstances : f'.instances = update (fun x => x.id = i.id) (drainRow c) f.instances) :
    Acts f f' a i (drainRow c) (fun x => x.id = i.id) id (fun _ => false) where
  action := ⟨ha, hopen⟩
  target := ⟨hi, hpool⟩
  alone := by
    intro x hx hrefers
    have hnames := (h.owns ha hx hrefers).names
    rw [hkind] at hnames
    have hdelete : x.deleteAction = some c.id := by
      rw [← hid]
      exact hnames
    refine h.instanceKeys.eq hx hi ?_
    by_contra hne
    exact hother x hx hne hdelete
  selects := fun x hx hxi => h.instanceKeys.eq hx hi (by simpa using hxi)
  instances := hinstances
  same := ⟨rfl, rfl⟩
  names := by
    refine ⟨by simp, ?_⟩
    rw [hkind, hid]
    rfl
  other := by
    intro kind hne
    rw [hkind] at hne
    cases kind with
    | scaleDown => exact absurd rfl hne
    | scaleUp =>
      refine ⟨rfl, ?_⟩
      rcases hstate with hs | hs | hs <;> simp [drainRow, hs, ActionKind.awaits]
  rows := nofun
  actions := hactions.trans (update_never)
  kept := ⟨rfl, rfl, rfl⟩
  working := fun _ => hopen
  done := by
    rw [hkind]
    rcases hstate with hs | hs | hs <;> simp [drainRow, hs, ActionKind.awaits]
  leaving := fun _ => Option.some_ne_none _
  staying := by
    rcases hstate with hs | hs | hs <;> simp [drainRow, hs]

theorem Moves.awaited (h : Moves from_ to_ done) :
    ∃ kind : ActionKind, kind.awaits from_ = true := by
  cases h with
  | provisioned | confirmed => exact ⟨.scaleUp, rfl⟩
  | deleting | deleted => exact ⟨.scaleDown, rfl⟩

/-- A move is over for the action exactly if it completes the action, and means nothing to actions
of the other kind. -/
theorem Moves.awaits (h : Moves from_ to_ done) (hkind : kind.awaits from_ = true) :
    kind.awaits to_ = !done ∧ ∀ other, other ≠ kind → other.awaits to_ = other.awaits from_ := by
  cases h <;> cases kind <;> simp [ActionKind.awaits] at hkind ⊢ <;>
    (intro other hne; cases other <;> simp at hne ⊢)

theorem Owned.awaited (h : Owned f) (hi : i ∈ f.instances) (hawaits : kind.awaits i.state = true) :
    ∃ a ∈ f.actions, a.kind = kind ∧ Owns a i ∧ a.state.isOpen = true := by
  have hnamed : ∃ d, i.owner? kind = some d := by
    cases kind with
    | scaleUp => exact ⟨_, rfl⟩
    | scaleDown => exact Option.ne_none_iff_exists'.mp (h.leaving i hi hawaits)
  rcases hnamed with ⟨d, hd⟩
  rcases h.owner i hi kind d hd with ⟨a, ha, _, rfl, howns⟩
  exact ⟨a, ha, rfl, howns, howns.working hawaits⟩

theorem Owned.owner_of_claim (h : Owned f) (ha : a ∈ f.actions) (hopen : a.state.isOpen = true)
    (hi : i ∈ f.instances) (hpool : a.pool = i.pool) (hawaits : kind.awaits i.state = true) :
    a.kind = kind ∧ Owns a i := by
  rcases h.awaited hi hawaits with ⟨b, hb, rfl, howns, hbopen⟩
  have hab := h.oneOpen a ha b hb (hpool.trans howns.pool.symm) hopen hbopen
  subst hab
  exact ⟨rfl, howns⟩

theorem Owned.acts_move (h : Owned f) (ha : a ∈ f.actions) (hopen : a.state.isOpen = true)
    (hi : i ∈ f.instances) (hpool : a.pool = i.pool) {ref : InstanceRef} {g : Instance → Instance}
    (hmoves : Moves from_ to_ done) (his : i.is c ref from_ = true)
    (hrows : ∀ x ∈ f.actions, c.current now x = true → x = a) (hcurrent : c.current now a = true)
    (hg : ∀ i, (g i).id = i.id ∧ (g i).pool = i.pool ∧ (g i).createAction = i.createAction ∧
      (g i).deleteAction = i.deleteAction ∧ (i.state = from_ → (g i).state = to_))
    (hinstances : f'.instances = update (fun i => i.is c ref from_) g f.instances)
    (hactions : f'.actions =
      if done then update (c.current now) completeRow f.actions else f.actions) :
    Acts f f' a i g (fun i => i.is c ref from_) completeRow (fun x => done && c.current now x) := by
  have hstate : i.state = from_ := by
    simp only [Instance.is, Bool.and_eq_true, decide_eq_true_eq] at his
    exact his.2
  have hto : (g i).state = to_ := (hg i).2.2.2.2 hstate
  rcases hmoves.awaited with ⟨kind, hkind⟩
  rcases h.owner_of_claim ha hopen hi hpool (hstate ▸ hkind) with ⟨rfl, howns⟩
  rcases hmoves.awaits hkind with ⟨hdone, hother⟩
  have howner : ∀ kind, (g i).owner? kind = i.owner? kind := by
    intro kind
    cases kind with
    | scaleUp => exact congrArg some (hg i).2.2.1
    | scaleDown => exact (hg i).2.2.2.1
  refine
    ⟨⟨ha, hopen⟩, ⟨hi, hpool⟩, ?_, ?_, hinstances, ⟨(hg i).1, (hg i).2.1⟩,
      ⟨his, (howner _).trans howns.names⟩,
      fun kind hne => ⟨howner kind, by rw [hto, hstate]; exact hother kind hne⟩, ?_, ?_,
      ⟨rfl, rfl, rfl⟩, ?_, ?_, ?_, ?_⟩
  · intro x hx hrefers
    exact h.onlyOwner x hx i hi _ _ (h.owns ha hx hrefers).names howns.names
  · intro x hx hxi
    simp only [Instance.is, Bool.and_eq_true, decide_eq_true_eq] at hxi his
    exact h.instanceKeys.eq hx hi (hxi.1.1.1.1.trans his.1.1.1.1.symm)
  · intro x hx hq
    simp only [Bool.and_eq_true] at hq
    exact hrows x hx hq.2
  · rw [hactions]
    cases done with
    | true => simp
    | false =>
      exact (update_eq_self fun _ _ => rfl).symm
  · rw [hto, hdone]
    intro hnot
    simp only [Bool.not_eq_true'] at hnot
    simp [hnot, hopen]
  · rw [hto, hdone]
    intro hyes
    simp only [Bool.not_eq_false'] at hyes
    simp [hyes, hcurrent, completeRow]
  · rw [hto, (hg i).2.2.2.1]
    intro hleaving
    refine h.leaving i hi ?_
    rw [hstate]
    cases hmoves <;> first | rfl | cases hleaving
  · rw [hto, (hg i).2.2.2.1]
    intro hstaying
    refine h.staying i hi ?_
    rw [hstate]
    cases hmoves <;> simp at hstaying ⊢

/-- The owner of an instance acts on it under its current claim. -/
inductive Served (c : Claim) (now : Time) (confirm : PoolId → Prop) (f f' : Fleet) : Prop
  | intro (a : Action) (i : Instance) (g : Instance → Instance) (p : Instance → Bool)
      (r : Action → Action) (q : Action → Bool) (acts : Acts f f' a i g p r q)
      (current : c.current now a = true)
      (before : (i.state = .active ∧ a.kind = .scaleDown) ∨ a.responsible i = true)
      (live : i.state.live = true)
      (active : (g i).state = .active → confirm i.pool)
      (kept : (r a).state ≠ .canceled)

/-- A change of the row of an open action: the action has no instance and stays unclaimed, or it
keeps its kind and stays open. -/
structure Revises (grant : PoolId → Prop) (f : Fleet) (a a' : Action) : Prop where
  before : a.state.isOpen = true
  same : a'.id = a.id ∧ a'.pool = a.pool ∧ a.fence ≤ a'.fence
  after : (f.bound a.id = false ∧ a'.state ≠ .claimed ∧
      (a'.state.isOpen = true → a'.kind = .scaleUp → grant a.pool)) ∨
    (a'.kind = a.kind ∧ a'.state.isOpen = true ∧ (a'.fence = a.fence → a.state = .claimed))

/-- What a call does to a fleet that keeps the invariant: it revises open actions, files a new one,
gives a scale-up its instance, or acts for the owner of an instance. -/
inductive Outcome (claim : Option (Claim × Time)) (grant confirm : PoolId → Prop) (f f' : Fleet) :
    Prop
  | revised (p : Action → Bool) (g : Action → Action)
      (hg : ∀ a ∈ f.actions, p a = true → Revises grant f a (g a))
      (hactions : f'.actions = update p g f.actions) (hinstances : f'.instances = f.instances)
  | enqueued (a : Action) (hopen : f.openAction? a.pool = none) (hid : ∀ b ∈ f.actions, b.id ≠ a.id)
      (hgrant : a.kind = .scaleUp → grant a.pool)
      (hactions : f'.actions = a :: f.actions) (hinstances : f'.instances = f.instances)
  | reserved (c : Claim) (now : Time) (hclaim : claim = some (c, now)) (a : Action) (i : Instance)
      (ha : a ∈ f.actions) (hcurrent : c.current now a = true) (hopen : a.state.isOpen = true)
      (hkind : a.kind = .scaleUp) (hnew : ∀ x ∈ f.instances, x.createAction ≠ a.id ∧ x.id ≠ i.id)
      (hi : i.createAction = a.id ∧ i.deleteAction = none ∧ i.pool = a.pool ∧
        i.state = .provisioning)
      (hactions : f'.actions = f.actions) (hinstances : f'.instances = i :: f.instances)
  | served (c : Claim) (now : Time) (hclaim : claim = some (c, now))
      (hserved : Served c now confirm f f') (hactions : f'.actions = f.actions ∨
        f'.actions = update (c.current now) completeRow f.actions)

section Outcome

variable {claim : Option (Claim × Time)} {grant confirm : PoolId → Prop}

theorem outcome_of_eq (hactions : f'.actions = f.actions) (hinstances : f'.instances = f.instances) :
    Outcome claim grant confirm f f' :=
  .revised (fun _ => false) id nofun (hactions.trans (update_never)) hinstances

theorem Owned.outcome (h : Owned f) (hheld : ∀ x ∈ claim, Held f x.1)
    (heffect : Effect claim grant confirm f f') : Outcome claim grant confirm f f' := by
  cases heffect with
  | quiet hactions hinstances => exact outcome_of_eq hactions hinstances
  | enqueue a hopen hid _ hgrant hactions hinstances =>
    exact .enqueued a hopen hid hgrant hactions hinstances
  | rewrite p g hp hg hgrant hactions hinstances =>
    refine .revised p g ?_ hactions hinstances
    intro a ha hpa
    rcases hp a ha hpa with ⟨hrequested, hunbound⟩
    rcases hg a with ⟨hid, hpool, hfence, hstate⟩
    refine ⟨by rw [hrequested]; rfl, ⟨hid, hpool, hfence.ge⟩, .inl ⟨hunbound, ?_⟩⟩
    rcases hstate hrequested with hs | hs
    · exact ⟨by simp [hs], fun _ => hgrant a ha hpa hs⟩
    · exact ⟨by simp [hs], by simp [hs, ActionState.isOpen]⟩
  | reopen now heq =>
    rw [heq, h.reopen_eq]
    exact outcome_of_eq rfl rfl
  | take id owner lease now hp hactions hinstances =>
    refine .revised _ (claimRow owner lease now) ?_ hactions hinstances
    intro a ha hid
    refine ⟨?_, ⟨rfl, rfl, Nat.le_succ _⟩, .inr ⟨rfl, rfl, ?_⟩⟩
    · rcases hp a ha (by simpa using hid) with hs | hs <;> rw [hs] <;> rfl
    · exact fun hfence => absurd hfence (Nat.succ_ne_self a.fence)
  | hold c now hclaim g hg hactions hinstances =>
    refine .revised _ g ?_ hactions hinstances
    intro a ha hcurrent
    have hclaimed := ((hheld (c, now) hclaim).holder ha hcurrent).2.1
    rcases hg a with ⟨hid, hpool, hkind, hfence, hstate⟩
    refine ⟨by rw [hclaimed]; rfl, ⟨hid, hpool, hfence.ge⟩, .inr ⟨hkind, ?_, fun _ => hclaimed⟩⟩
    rcases hstate hclaimed with hs | hs <;> rw [hs] <;> rfl
  | reserve c now hclaim i hkind hcurrent hnew hi hactions hinstances =>
    rcases hcurrent with ⟨a, ha, hcurrent⟩
    rcases (hheld (c, now) hclaim).holder ha hcurrent with ⟨hid, hstate, hpool, hakind⟩
    rw [← hid] at hnew hi
    rw [← hpool] at hi
    exact .reserved c now hclaim a i ha hcurrent (by rw [hstate]; rfl) (hakind.trans hkind) hnew hi
      hactions hinstances
  | drain c now hclaim i hkind hcurrent hi hcase hother hactions hinstances =>
    rcases hcurrent with ⟨a, ha, hcurrent⟩
    rcases (hheld (c, now) hclaim).holder ha hcurrent with ⟨hid, hstate, hpool, hakind⟩
    have hdown : a.kind = .scaleDown := hakind.trans hkind
    have hstates : i.state = .draining ∨ i.state = .deleting ∨ i.state = .active := by
      rcases hcase with ⟨_, hs | hs⟩ | ⟨hs, _⟩
      · exact .inl hs
      · exact .inr (.inl hs)
      · exact .inr (.inr hs)
    refine .served c now hclaim (.intro a i _ _ _ _ (h.acts_drain ha (by rw [hstate]; rfl) hdown hid
      hi.1 (hpool.trans hi.2.symm) hstates hother hactions hinstances) hcurrent ?_ ?_ ?_ ?_)
      (.inl hactions)
    · rcases hcase with ⟨hdelete, hs⟩ | ⟨hs, _⟩
      · refine .inr ?_
        simp only [Action.responsible, Bool.and_eq_true, owns_iff, hdown]
        refine ⟨by rw [hid]; exact hdelete, ?_⟩
        rcases hs with hs | hs <;> rw [hs] <;> rfl
      · exact .inl ⟨hs, hdown⟩
    · rcases hstates with hs | hs | hs <;> rw [hs] <;> rfl
    · intro hactive
      simp only [drainRow] at hactive
      split at hactive <;> cases hactive
    · simp [hstate]
  | move c now hclaim ref from_ to_ done hmoves hconfirm g hcurrent hexists hg hinstances hactions =>
    rcases hcurrent with ⟨a, ha, hcurrent⟩
    rcases hexists with ⟨i, hi, his⟩
    have hheld := hheld (c, now) hclaim
    rcases hheld.holder ha hcurrent with ⟨hid, hstate, hpool, _⟩
    have hopen : a.state.isOpen = true := by rw [hstate]; rfl
    have hisRow := his
    simp only [Instance.is, Bool.and_eq_true, decide_eq_true_eq] at hisRow
    have hipool : a.pool = i.pool := hpool.trans hisRow.1.2.symm
    have hrows : ∀ x ∈ f.actions, c.current now x = true → x = a := by
      intro x hx hxcurrent
      exact h.actionKeys.eq hx ha ((hheld.holder hx hxcurrent).1.trans hid.symm)
    rcases hmoves.awaited with ⟨kind, hawaits⟩
    rw [← hisRow.2] at hawaits
    refine .served c now hclaim (.intro a i _ _ _ _ (h.acts_move ha hopen hi hipool hmoves his hrows
      hcurrent hg hinstances hactions) hcurrent (.inr ?_) (live_of_awaits hawaits) ?_ nofun) ?_
    · rcases h.owner_of_claim ha hopen hi hipool hawaits with ⟨rfl, howns⟩
      simp only [Action.responsible, Bool.and_eq_true]
      exact ⟨owns_iff.mpr howns.names, hawaits⟩
    · rw [(hg i).2.2.2.2 hisRow.2, hisRow.1.2]
      exact hconfirm
    · cases done with
      | false => exact .inl hactions
      | true => exact .inr hactions

theorem Owned.effect (h : Owned f) (houtcome : Outcome claim grant confirm f f') : Owned f' := by
  cases houtcome with
  | revised p g hg hactions hinstances =>
    refine h.rewriteActions ?_ hactions hinstances
    intro a ha hpa
    rcases hg a ha hpa with ⟨hopen, ⟨hid, hpool, _⟩, hafter⟩
    refine ⟨hopen, hid, hpool, ?_⟩
    intro i hi hrefers
    rcases hafter with ⟨hunbound, _⟩ | ⟨hkind, hstays, _⟩
    · rw [h.unreferenced ha hopen hunbound i hi] at hrefers
      cases hrefers
    · exact ⟨hkind, hstays⟩
  | enqueued a hopen hid _ hactions hinstances => exact h.enqueue hopen hid hactions hinstances
  | reserved _ _ _ _ _ ha _ hopen hkind hnew hi hactions hinstances =>
    exact h.reserve ha hopen hkind hi hnew hactions hinstances
  | served _ _ _ hserved =>
    rcases hserved with ⟨_, _, _, _, _, _, hacts, _⟩
    exact h.acts hacts

end Outcome

/-! ## Claims -/

theorem Held.update (h : Held f c)
    (hg : ∀ a ∈ f.actions, p a = true → (g a).id = a.id ∧ (g a).pool = a.pool ∧
      a.fence ≤ (g a).fence ∧ ((g a).fence = a.fence → (g a).state = .claimed →
        a.state = .claimed ∧ (g a).kind = a.kind))
    (hactions : f'.actions = update p g f.actions) : Held f' c := by
  rcases h.known with ⟨a, ha, hid⟩
  refine ⟨⟨_, by rw [hactions]; exact mem_update.mpr ⟨a, ha, rfl⟩, ?_⟩, ?_⟩
  · by_cases hp : p a = true
    · rw [if_pos hp, (hg a ha hp).1]
      exact hid
    · rw [if_neg hp]
      exact hid
  · rw [hactions]
    intro x hx hxid
    rcases mem_update_cases hx with ⟨y, hy, hp, rfl⟩ | ⟨hx, _⟩
    · rcases hg y hy hp with ⟨hyid, hypool, hyfence, hykind⟩
      rcases h.agrees y hy (hyid.symm.trans hxid) with ⟨hpool, hfence, hkind⟩
      refine ⟨hpool.trans hypool.symm, hfence.trans hyfence, ?_⟩
      intro heq hclaimed
      have hsame : (g y).fence = y.fence := Nat.le_antisymm (heq ▸ hfence) hyfence
      rcases hykind hsame hclaimed with ⟨hyclaimed, hkept⟩
      exact (hkind (heq.trans hsame) hyclaimed).trans hkept.symm
    · exact h.agrees x hx hxid

theorem Held.of_actions_eq (h : Held f c) (hactions : f'.actions = f.actions) : Held f' c :=
  ⟨hactions ▸ h.known, hactions ▸ h.agrees⟩

theorem Held.effect (h : Held f c) {claim : Option (Claim × Time)} {grant confirm : PoolId → Prop}
    (houtcome : Outcome claim grant confirm f f') : Held f' c := by
  cases houtcome with
  | revised p g hg hactions =>
    refine h.update ?_ hactions
    intro a ha hpa
    rcases hg a ha hpa with ⟨_, ⟨hid, hpool, hfence⟩, hafter⟩
    refine ⟨hid, hpool, hfence, ?_⟩
    intro hsame hclaimed
    rcases hafter with ⟨_, hnot, _⟩ | ⟨hkind, _, hbefore⟩
    · exact absurd hclaimed hnot
    · exact ⟨hbefore hsame, hkind⟩
  | enqueued a _ hid _ hactions =>
    rcases h.known with ⟨b, hb, hbid⟩
    refine ⟨⟨b, by rw [hactions]; exact mem_cons_of_mem _ hb, hbid⟩, ?_⟩
    rw [hactions]
    intro x hx hxid
    rcases mem_cons.mp hx with rfl | hx
    · exact absurd (hbid.trans hxid.symm) (hid b hb)
    · exact h.agrees x hx hxid
  | reserved _ _ _ _ _ _ _ _ _ _ _ hactions => exact h.of_actions_eq hactions
  | served _ _ _ _ hactions =>
    rcases hactions with hactions | hactions
    · exact h.of_actions_eq hactions
    refine h.update ?_ hactions
    intro a _ _
    refine ⟨rfl, rfl, Nat.le_refl _, ?_⟩
    nofun

theorem held_of_describes (howned : Owned f) (ha : a ∈ f.actions) (h : c.describes a) :
    Held f c := by
  rcases h with ⟨hid, hpool, hkind, hfence⟩
  refine ⟨⟨a, ha, hid.symm⟩, ?_⟩
  intro b hb hbid
  rw [howned.actionKeys.eq hb ha (hbid.trans hid)]
  exact ⟨hpool, hfence.le, fun _ _ => hkind⟩

structure Inv (s : System) : Prop where
  owned : Owned s.fleet
  held : ∀ c ∈ s.issued, Held s.fleet c

theorem inv_init : Inv System.init := by
  refine ⟨⟨List.Pairwise.nil, List.Pairwise.nil, ?_, ?_, ?_, ?_, ?_⟩, ?_⟩ <;>
    exact nofun

theorem Inv.outcome {s : System} (h : Inv s) (op : Op) :
    Outcome op.presents (op.grants s) op.confirms s.fleet (step s op).fleet := by
  have hstep := (step_effect s op h.owned.actionKeys).1
  rcases hstep.handed with hsame | hissued
  · rw [hsame]
    exact outcome_of_eq rfl rfl
  · exact h.owned.outcome (fun x hx => h.held x.1 (hissued x hx)) hstep.effect

theorem Inv.step {s : System} (h : Inv s) (op : Op) : Inv (step s op) := by
  have houtcome := h.outcome op
  have howned := h.owned.effect houtcome
  refine ⟨howned, ?_⟩
  intro c hc
  rcases (step_effect s op h.owned.actionKeys).1.claims c hc with hold | ⟨a, ha, hdescribes⟩
  · exact (h.held c hold).effect houtcome
  · exact held_of_describes howned ha hdescribes

theorem inv_run (ops : List Op) : Inv (run Capacity.step System.init ops) :=
  run_induction (fun _ op hs => hs.step op) inv_init

/-- In every state that actuators and reconcilers reach, a call changes one instance at most, and only
for an action of its pool: the call presents the action's current claim, and the action is responsible
for the instance or a scale-down that picks an active one. -/
theorem instances_changed_by_owner (ops : List Op) (op : Op) :
    let s := run step System.init ops
    ∀ i ∈ s.fleet.instances, i ∉ (step s op).fleet.instances →
      (∃ c now, op.presents = some (c, now) ∧ ∃ a ∈ s.fleet.actions, c.current now a = true ∧
        a.pool = i.pool ∧ ((i.state = .active ∧ a.kind = .scaleDown) ∨ a.responsible i = true)) ∧
      ∀ k ∈ s.fleet.instances, k ≠ i → k ∈ (step s op).fleet.instances := by
  intro s i hi hchanged
  cases (inv_run ops).outcome op with
  | revised p g hg hactions hinstances => exact absurd (hinstances ▸ hi) hchanged
  | enqueued a hopen hid hgrant hactions hinstances => exact absurd (hinstances ▸ hi) hchanged
  | reserved c now hclaim a x ha hcurrent hopen hkind hnew hx hactions hinstances =>
    exact absurd (hinstances ▸ mem_cons_of_mem x hi) hchanged
  | served c now hclaim hserved hactions =>
    rcases hserved with ⟨a, x, g, p, r, q, hacts, hcurrent, hbefore, hlive, hactive, hkept⟩
    have hother : ∀ k ∈ s.fleet.instances, k ≠ x → k ∈ (step s op).fleet.instances := by
      intro k hk hne
      refine hacts.mem_instances.mpr (.inr ⟨hk, hne, ?_⟩)
      exact Bool.eq_false_iff.mpr fun hp => hne (hacts.selects k hk hp)
    have hix : i = x := by_contra fun hne => hchanged (hother i hi hne)
    subst hix
    exact ⟨⟨c, now, hclaim, a, hacts.action.1, hcurrent, hacts.target.2, hbefore⟩, hother⟩

end PortageEngine.Capacity
