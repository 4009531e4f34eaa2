import PortageEngine.Capacity.Ownership

/-!
# No stranded capacity

An instance on its way has an action that is open, and a call touches an instance only under the
current claim of the action the instance is left to.  Both follow from the invariant of the
ownership: the claim names the one open action of its pool, and the instance's owner is that action.
-/

namespace PortageEngine.Capacity

open List Library Library.Rows Library.Runs
open Ledger

variable {f f' : Fleet} {a b : Action} {i : Instance} {c : Claim} {now : Time}

/-! ## Who may change what -/

/-- Every pool has one open action at most, and every instance on its way has an action that is
open, or that the next pass reopens. -/
structure Accountable (f : Fleet) : Prop where
  oneOpen : ∀ a ∈ f.actions, ∀ b ∈ f.actions, a.pool = b.pool → a.state.isOpen = true →
    b.state.isOpen = true → a = b
  accounted : ∀ i ∈ f.instances, i.state.inTransition = true →
    ∃ a ∈ f.actions, a.responsible i = true ∧ (a.state.isOpen = true ∨ reopens f a = true)

/-- What a call leaves alone.  An action with a live instance keeps its direction and is not
canceled, the instances that name it are the ones that named it before, no row is lost, and the call
that writes a row holds the current claim of the action the row is left to. -/
structure Guarded (issued : List Claim) (claim : Option (Claim × Time)) (f f' : Fleet) : Prop where
  keeps : ∀ a ∈ f.actions, f.bound a.id = true →
    ∃ a' ∈ f'.actions, a'.id = a.id ∧ a'.pool = a.pool ∧ a'.kind = a.kind ∧ a'.state ≠ .canceled
  named : ∀ a ∈ f.actions, f.bound a.id = true → ∀ i' ∈ f'.instances, i'.refersTo a.id = true →
    ∃ i ∈ f.instances, i.id = i'.id ∧ i.refersTo a.id = true
  stays : ∀ i ∈ f.instances, ∃ i' ∈ f'.instances, i'.id = i.id ∧
    ∀ a ∈ f.actions, i.refersTo a.id = true → i'.refersTo a.id = true
  fenced : ∀ i' ∈ f'.instances, i' ∉ f.instances →
    ∃ c now, claim = some (c, now) ∧ c ∈ issued ∧ ∃ a ∈ f.actions, c.current now a = true ∧
      a.owns i' = true ∧
      ∀ i ∈ f.instances, i.id = i'.id → i.state = .active ∨ a.responsible i = true

theorem awaits_of_inTransition {state : InstanceState} (h : state.inTransition = true) :
    ∃ kind : ActionKind, kind.awaits state = true := by
  cases state with
  | provisioning => exact ⟨.scaleUp, rfl⟩
  | draining | deleting => exact ⟨.scaleDown, rfl⟩
  | _ => cases h

theorem Owned.accountable (h : Owned f) : Accountable f := by
  refine ⟨h.oneOpen, ?_⟩
  intro i hi htransition
  rcases awaits_of_inTransition htransition with ⟨kind, hawaits⟩
  rcases h.awaited hi hawaits with ⟨a, ha, rfl, howns, hopen⟩
  refine ⟨a, ha, ?_, .inl hopen⟩
  simp only [Action.responsible, Bool.and_eq_true]
  exact ⟨owns_iff.mpr howns.names, hawaits⟩

theorem Owned.not_canceled (h : Owned f) (ha : a ∈ f.actions) (hbound : f.bound a.id = true) :
    a.state ≠ .canceled := by
  rcases any_eq_true.mp hbound with ⟨i, hi, hrefers⟩
  simp only [Bool.and_eq_true] at hrefers
  have howns := h.owns ha hi hrefers.1
  intro hcanceled
  cases hawaits : a.kind.awaits i.state with
  | true =>
    have hopen := howns.working hawaits
    rw [hcanceled] at hopen
    cases hopen
  | false =>
    have hdone := howns.done hawaits
    rw [hcanceled] at hdone
    cases hdone

section Guards

variable {issued : List Claim} {claim : Option (Claim × Time)}

theorem guarded_of_instances (hinstances : f'.instances = f.instances)
    (hkeeps : ∀ a ∈ f.actions, f.bound a.id = true →
      ∃ a' ∈ f'.actions, a'.id = a.id ∧ a'.pool = a.pool ∧ a'.kind = a.kind ∧
        a'.state ≠ .canceled) : Guarded issued claim f f' := by
  refine ⟨hkeeps, ?_, ?_, ?_⟩
  · rw [hinstances]
    exact fun a _ _ i hi hrefers => ⟨i, hi, rfl, hrefers⟩
  · rw [hinstances]
    exact fun i hi => ⟨i, hi, rfl, fun _ _ hrefers => hrefers⟩
  · rw [hinstances]
    exact fun i hi hnew => absurd hi hnew

theorem Owned.keeps_of_update (h : Owned f) {p : Action → Bool} {g : Action → Action}
    (hg : ∀ a ∈ f.actions, f.bound a.id = true → p a = true →
      (g a).id = a.id ∧ (g a).pool = a.pool ∧ (g a).kind = a.kind ∧ (g a).state ≠ .canceled)
    (hactions : f'.actions = update p g f.actions) :
    ∀ a ∈ f.actions, f.bound a.id = true →
      ∃ a' ∈ f'.actions, a'.id = a.id ∧ a'.pool = a.pool ∧ a'.kind = a.kind ∧
        a'.state ≠ .canceled := by
  intro a ha hbound
  refine ⟨_, by rw [hactions]; exact mem_update.mpr ⟨a, ha, rfl⟩, ?_⟩
  by_cases hp : p a = true
  · rw [if_pos hp]
    exact hg a ha hbound hp
  · rw [if_neg hp]
    exact ⟨rfl, rfl, rfl, h.not_canceled ha hbound⟩

theorem Owned.keeps_of_eq (h : Owned f) (hactions : f'.actions = f.actions) :
    ∀ a ∈ f.actions, f.bound a.id = true →
      ∃ a' ∈ f'.actions, a'.id = a.id ∧ a'.pool = a.pool ∧ a'.kind = a.kind ∧
        a'.state ≠ .canceled := by
  refine h.keeps_of_update ?_ (hactions.trans (update_never))
  nofun

theorem Owned.guarded_served (h : Owned f) {confirm : PoolId → Prop}
    (hserved : Served c now confirm f f') (hclaim : claim = some (c, now)) (hissued : c ∈ issued) :
    Guarded issued claim f f' := by
  rcases hserved with ⟨a, i, g, p, r, q, hacts, hcurrent, hcase, _, _, hr⟩
  -- whatever the row named in the place where it now names `a` was `a` already
  have hplace : ∀ d, i.owner? a.kind = some d → d = a.id := by
    intro d hd
    rcases hcase with ⟨hactive, hkind⟩ | hresponsible
    · have hnone : i.owner? .scaleDown = none := h.staying i hacts.target.1 (.inr hactive)
      rw [hkind, hnone] at hd
      cases hd
    · simp only [Action.responsible, Bool.and_eq_true] at hresponsible
      rw [owns_iff.mp hresponsible.1] at hd
      exact (Option.some.inj hd).symm
  refine ⟨h.keeps_of_update ?_ hacts.actions, ?_, ?_, ?_⟩
  · intro b hb _ hq
    have hba := hacts.rows b hb hq
    subst hba
    exact ⟨hacts.kept.1, hacts.kept.2.1, hacts.kept.2.2, hr⟩
  · intro b _ hbound x hx hrefers
    rcases hacts.mem_instances.mp hx with rfl | ⟨hx, _, _⟩
    · refine ⟨i, hacts.target.1, hacts.same.1.symm, ?_⟩
      rcases refersTo_iff.mp hrefers with ⟨kind, hkind⟩
      by_cases hsame : kind = a.kind
      · rw [hsame, hacts.names.2] at hkind
        rw [← Option.some.inj hkind] at hbound ⊢
        rcases any_eq_true.mp hbound with ⟨y, hy, hyrefers⟩
        simp only [Bool.and_eq_true] at hyrefers
        rw [hacts.alone y hy hyrefers.1] at hyrefers
        exact hyrefers.1
      · rw [(hacts.other kind hsame).1] at hkind
        exact refersTo_iff.mpr ⟨kind, hkind⟩
    · exact ⟨x, hx, rfl, hrefers⟩
  · intro x hx
    by_cases hxi : x = i
    · refine ⟨g i, hacts.mem_instances.mpr (.inl rfl), by rw [hxi]; exact hacts.same.1, ?_⟩
      intro b _ hrefers
      rw [hxi] at hrefers
      rcases refersTo_iff.mp hrefers with ⟨kind, hkind⟩
      by_cases hsame : kind = a.kind
      · rw [hsame] at hkind
        rw [hplace _ hkind]
        exact refersTo_iff.mpr ⟨_, hacts.names.2⟩
      · refine refersTo_iff.mpr ⟨kind, ?_⟩
        rw [(hacts.other kind hsame).1]
        exact hkind
    · have hp : p x = false := by
        cases hp : p x with
        | false => rfl
        | true => exact absurd (hacts.selects x hx hp) hxi
      exact ⟨x, hacts.mem_instances.mpr (.inr ⟨hx, hxi, hp⟩), rfl, fun _ _ hrefers => hrefers⟩
  · intro x hx hnew
    rcases hacts.mem_instances.mp hx with rfl | ⟨hx, _, _⟩
    · refine ⟨c, now, hclaim, hissued, a, hacts.action.1, hcurrent,
        owns_iff.mpr hacts.names.2, ?_⟩
      intro y hy hid
      rw [h.instanceKeys.eq hy hacts.target.1 (hid.trans hacts.same.1)]
      exact hcase.imp And.left id
    · exact absurd hx hnew

theorem Owned.guarded_reserve (h : Owned f) (ha : a ∈ f.actions)
    (hclaim : claim = some (c, now)) (hissued : c ∈ issued) (hcurrent : c.current now a = true)
    (hkind : a.kind = .scaleUp) (hi : i.createAction = a.id ∧ i.deleteAction = none)
    (hnew : ∀ x ∈ f.instances, x.createAction ≠ a.id ∧ x.id ≠ i.id)
    (hactions : f'.actions = f.actions) (hinstances : f'.instances = i :: f.instances) :
    Guarded issued claim f f' := by
  refine ⟨h.keeps_of_eq hactions, ?_, ?_, ?_⟩
  · rw [hinstances]
    intro b hb hbound x hx hrefers
    rcases mem_cons.mp hx with rfl | hx
    · -- the action has no instance yet
      exfalso
      simp only [Instance.refersTo, hi.1, hi.2, Bool.or_eq_true, decide_eq_true_eq,
        reduceCtorEq, or_false] at hrefers
      rcases any_eq_true.mp hbound with ⟨y, hy, hyrefers⟩
      simp only [Bool.and_eq_true] at hyrefers
      rw [← hrefers] at hyrefers
      have hnames := (h.owns ha hy hyrefers.1).names
      rw [hkind] at hnames
      exact (hnew y hy).1 (Option.some.inj hnames)
    · exact ⟨x, hx, rfl, hrefers⟩
  · rw [hinstances]
    exact fun x hx => ⟨x, mem_cons_of_mem _ hx, rfl, fun _ _ hrefers => hrefers⟩
  · rw [hinstances]
    intro x hx hxnew
    rcases mem_cons.mp hx with rfl | hx
    · refine ⟨c, now, hclaim, hissued, a, ha, hcurrent, ?_, ?_⟩
      · refine owns_iff.mpr ?_
        rw [hkind]
        exact congrArg some hi.1
      · intro y hy hid
        exact absurd hid (hnew y hy).2
    · exact absurd hx hxnew

theorem Owned.guarded (h : Owned f) {grant confirm : PoolId → Prop}
    (hissued : ∀ x ∈ claim, x.1 ∈ issued) (houtcome : Outcome claim grant confirm f f') :
    Guarded issued claim f f' := by
  cases houtcome with
  | revised p g hg hactions hinstances =>
    refine guarded_of_instances hinstances (h.keeps_of_update ?_ hactions)
    intro a ha hbound hpa
    rcases hg a ha hpa with ⟨_, ⟨hid, hpool, _⟩, ⟨hunbound, _⟩ | ⟨hkind, hopen, _⟩⟩
    · rw [hunbound] at hbound
      cases hbound
    refine ⟨hid, hpool, hkind, ?_⟩
    intro hcanceled
    rw [hcanceled] at hopen
    cases hopen
  | enqueued a _ _ _ hactions hinstances =>
    refine guarded_of_instances hinstances ?_
    intro b hb hbound
    refine ⟨b, ?_, rfl, rfl, rfl, h.not_canceled hb hbound⟩
    rw [hactions]
    exact mem_cons_of_mem _ hb
  | reserved c now hclaim a i ha hcurrent _ hkind hnew hi hactions hinstances =>
    exact h.guarded_reserve ha hclaim (hissued (c, now) hclaim) hcurrent hkind ⟨hi.1, hi.2.1⟩ hnew
      hactions hinstances
  | served c now hclaim hserved =>
    exact h.guarded_served hserved hclaim (hissued (c, now) hclaim)

end Guards

/-- In every state that passes and actuators can reach, crashes and restarts at any point included,
every instance on its way has an open action, and every further call respects who owns it. -/
theorem no_stranded_capacity (ops : List Op) :
    Accountable (run step System.init ops).fleet ∧
      ∀ op, Guarded (run step System.init ops).issued op.presents (run step System.init ops).fleet
        (step (run step System.init ops) op).fleet := by
  have hinv := inv_run ops
  refine ⟨hinv.owned.accountable, ?_⟩
  intro op
  rcases (step_effect _ op hinv.owned.actionKeys).1.handed with hsame | hissued
  · rw [hsame]
    exact guarded_of_instances rfl (hinv.owned.keeps_of_eq rfl)
  · exact hinv.owned.guarded hissued (hinv.outcome op)

end PortageEngine.Capacity
