import PortageEngine.Ledger.Storm

/-!
# The locks of the failure-storm gate

The invariant of every interleaving of the statements of `Storm`: each row is drafted by one
transaction at a time, each stage of a transaction has drafted what it stands for, and a drafted
policy row does not end the suspension earlier than the committed one.  Two of the three guarantees
of the gate follow.

* No job is let in while its project is suspended: from its check to its commit an admitting
  transaction holds the policy row, and the suspension has ended before the check.
* The end of a suspension moves earlier only when an operator clears it.
-/

namespace PortageEngine.Ledger

open Library Library.Rows Library.ReadCommitted

/-! ## The locks and the stages -/

/-- What a transaction in each stage has drafted. -/
def Txn.Grounded (jobs : List Job) (s : Storm) (x : Nat) (txn : Txn) : Prop :=
  match txn.stage with
  | .running => True
  | .finished attempt state =>
    ∃ f ∈ s.attempts.own x, f.id = attempt ∧ f.state = state ∧ f.finishedAt = some txn.now
  | .storm attempt project =>
    ∃ f ∈ s.attempts.own x, f.id = attempt ∧ f.finishedAt = some txn.now ∧
      f.ofProject jobs project = true
  | .admitted _ project =>
    ∃ p ∈ s.policies.own x, p.project = project ∧ p.abuseSuspendedUntil.getD 0 ≤ s.clock
  | .replaced project _ => ∃ p ∈ s.policies.own x, p.project = project

structure Storm.Inv (jobs : List Job) (s : Storm) : Prop where
  attempts : s.attempts.Sound (·.id)
  usages : s.usages.Sound (·.attempt)
  policies : s.policies.Sound (·.project)
  /-- A usage record is kept for the project of its attempt. -/
  linked : ∀ u ∈ s.usages.versions, ∀ a ∈ s.attempts.versions, a.id = u.attempt →
    a.ofProject jobs u.project = true
  idle : ∀ x, s.txns x = none → s.attempts.own x = [] ∧ s.policies.own x = []
  /-- A drafted policy row does not end the suspension earlier, unless it clears it. -/
  raised : ∀ x txn, s.txns x = some txn → ∀ p ∈ s.policies.own x,
    txn.stage ≠ .replaced p.project true → ∀ q ∈ s.policies.committed, q.project = p.project →
      q.abuseSuspendedUntil.getD 0 ≤ p.abuseSuspendedUntil.getD 0
  grounded : ∀ x txn, s.txns x = some txn → txn.Grounded jobs s x

variable {s : Storm} {x : Nat} {jobs : List Job}

@[simp] theorem Storm.setTxn_self {txn : Option Txn} :
    (s.setTxn x txn).txns x = txn := by
  simp [Storm.setTxn]

@[simp] theorem Storm.commit_txns {txn : Txn} : (s.commit x txn).txns x = none :=
  Storm.setTxn_self

@[simp] theorem Storm.abort_txns : (s.abort x).txns x = none :=
  Storm.setTxn_self

variable {y : Nat} {p : Policy} {now : Time} {s' : Storm} {st : Statement} {policies : List Policy}
  {project : ProjectId}

theorem Storm.setTxn_of_ne {txn : Option Txn} (h : y ≠ x) :
    (s.setTxn x txn).txns y = s.txns y := by
  simp [Storm.setTxn, h]

theorem le_gated {failures : Nat} :
    p.abuseSuspendedUntil.getD 0 ≤ (p.gated failures now).abuseSuspendedUntil.getD 0 := by
  unfold Policy.gated
  split
  · exact le_max_left _ _
  · exact Nat.le_refl _

variable {txn : Txn}

theorem StatementEffect.others (h : StatementEffect jobs s x txn st s') (hne : y ≠ x) :
    s'.txns y = s.txns y ∧ s'.attempts.own y = s.attempts.own y ∧
      s'.policies.own y = s.policies.own y := by
  cases h with
  | readClock | unsettled | settle => exact ⟨Storm.setTxn_of_ne hne, rfl, rfl⟩
  | finish => exact ⟨Storm.setTxn_of_ne hne, Table.own_write_of_ne hne, rfl⟩
  | gate | letIn | replacePolicy => exact ⟨Storm.setTxn_of_ne hne, rfl, Table.own_write_of_ne hne⟩
  | report | insertSnapshot | insertClaim => exact ⟨rfl, Table.own_write_of_ne hne, rfl⟩
  | commit =>
    exact ⟨Storm.setTxn_of_ne hne, Table.own_commit_of_ne hne, Table.own_commit_of_ne hne⟩
  | abort => exact ⟨Storm.setTxn_of_ne hne, Table.own_abort_of_ne hne, Table.own_abort_of_ne hne⟩

theorem StatementEffect.clock_eq (h : StatementEffect jobs s x txn st s') :
    s'.clock = s.clock := by
  cases h <;> rfl

theorem Txn.Grounded.of_own (h : txn.Grounded jobs s x)
    (hattempts : s'.attempts.own x = s.attempts.own x)
    (hpolicies : s'.policies.own x = s.policies.own x) (hclock : s.clock ≤ s'.clock) :
    txn.Grounded jobs s' x := by
  unfold Txn.Grounded at h ⊢
  rw [hattempts, hpolicies]
  cases hstage : txn.stage with
  | admitted kind project =>
    rw [hstage] at h
    rcases h with ⟨p, hp, hproject, huntil⟩
    exact ⟨p, hp, hproject, huntil.trans hclock⟩
  | _ =>
    rw [hstage] at h
    exact h

namespace Storm.Inv

variable {jobs : List Job} {s s' : Storm} {x : Nat} {txn : Txn} {st : Statement}

theorem init (policies : List Policy) (h : Keyed (·.project) policies) :
    (Storm.init policies).Inv jobs where
  attempts := Table.sound_quiet List.nodup_nil
  usages := Table.sound_quiet List.nodup_nil
  policies := Table.sound_quiet h
  linked := nofun
  idle := fun _ _ => ⟨rfl, rfl⟩
  raised := nofun
  grounded := nofun

theorem keyed_seenPolicies (h : s.Inv jobs) (x : Nat) : Keyed (·.project) (s.seenPolicies x) :=
  h.policies.keyed_view x

theorem keyed_seenAttempts (h : s.Inv jobs) (x : Nat) : Keyed (·.id) (s.seenAttempts x) :=
  h.attempts.keyed_view x

variable {p q : Policy}

theorem seen_raised (h : s.Inv jobs) (hx : s.txns x = some txn) (hp : p ∈ s.seenPolicies x)
    (hstage : txn.stage ≠ .replaced p.project true) (hq : q ∈ s.policies.committed)
    (hproject : q.project = p.project) :
    q.abuseSuspendedUntil.getD 0 ≤ p.abuseSuspendedUntil.getD 0 := by
  rcases h.policies.mem_view.mp hp with hp | ⟨hp, -⟩
  · exact h.raised x txn hx p hp hstage q hq hproject
  · rw [h.policies.keyed.eq hq hp hproject]

theorem committed_of_drafted (h : s.Inv jobs) (hne : y ≠ x) (hp : p ∈ s.policies.own y)
    (hq : q ∈ s.seenPolicies x) (hproject : q.project = p.project) :
    q ∈ s.policies.committed := by
  rcases h.policies.mem_view.mp hq with hq | ⟨hq, -⟩
  · exact absurd (h.policies.own_eq hp hq hproject.symm).1 hne
  · exact hq

theorem raised_write (h : s.Inv jobs) (hx : s.txns x = some txn) {p' : Policy}
    (hp : p ∈ s.seenPolicies x) (hproject : p'.project = p.project) {stage : Stage}
    (hstage : txn.stage = .running ∨ ∃ a, txn.stage = .storm a p.project)
    (hle : stage ≠ .replaced p.project true →
      p.abuseSuspendedUntil.getD 0 ≤ p'.abuseSuspendedUntil.getD 0) {r : Policy}
    (hr : r ∈ (s.policies.write (·.project) x p').own x)
    (hreplaced : stage ≠ .replaced r.project true) (hq : q ∈ s.policies.committed)
    (hqr : q.project = r.project) :
    q.abuseSuspendedUntil.getD 0 ≤ r.abuseSuspendedUntil.getD 0 := by
  have hbefore : ∀ project, txn.stage ≠ .replaced project true := by
    intro project heq
    rcases hstage with hrunning | ⟨a, hstorm⟩
    · rw [heq] at hrunning
      cases hrunning
    · rw [heq] at hstorm
      cases hstorm
  rcases Table.mem_own_write.mp hr with rfl | ⟨hr, -⟩
  · rw [hproject] at hreplaced hqr
    exact (h.seen_raised hx hp (hbefore _) hq hqr).trans (hle hreplaced)
  · exact h.raised x txn hx r hr (hbefore _) q hq hqr

/-- Only a commit changes the committed policy rows: they are those that its transaction saw. -/
theorem committed_policies (heff : StatementEffect jobs s x txn st s') :
    s'.policies.committed = s.policies.committed ∨
      (st = .commit ∧ s'.policies.committed = s.seenPolicies x) := by
  cases heff with
  | commit => exact Or.inr ⟨rfl, rfl⟩
  | _ => exact Or.inl rfl

theorem sound_attempts (h : s.Inv jobs) (heff : StatementEffect jobs s x txn st s') :
    s'.attempts.Sound (·.id) := by
  cases heff with
  | finish _ _ hfree | report _ _ hfree | insertSnapshot _ _ hfree | insertClaim _ _ _ _ _ hfree =>
    exact h.attempts.write hfree
  | commit => exact h.attempts.commit x
  | abort => exact h.attempts.abort x
  | _ => exact h.attempts

theorem sound_usages (h : s.Inv jobs) (heff : StatementEffect jobs s x txn st s') :
    s'.usages.Sound (·.attempt) := by
  cases heff with
  | settle _ _ _ hfree | insertClaim _ _ _ _ _ _ hfree => exact h.usages.write hfree
  | commit => exact h.usages.commit x
  | abort => exact h.usages.abort x
  | _ => exact h.usages

theorem sound_policies (h : s.Inv jobs) (heff : StatementEffect jobs s x txn st s') :
    s'.policies.Sound (·.project) := by
  cases heff with
  | gate _ _ hfree => exact h.policies.write (by simpa using hfree)
  | letIn _ _ _ _ hfree | replacePolicy _ _ hfree => exact h.policies.write hfree
  | commit => exact h.policies.commit x
  | abort => exact h.policies.abort x
  | _ => exact h.policies

theorem linked_write (h : s.Inv jobs) {a a' : Attempt} (ha : a ∈ s.seenAttempts x)
    (hid : a'.id = a.id) (hjob : a'.job = a.job) :
    ∀ u ∈ s.usages.versions, ∀ b ∈ (s.attempts.write (·.id) x a').versions, b.id = u.attempt →
      b.ofProject jobs u.project = true := by
  intro u hu b hb hattempt
  rcases Table.mem_versions_write hb with rfl | hb
  · have hlinked := h.linked u hu a (h.attempts.mem_versions_of_view ha) (hid ▸ hattempt)
    simpa [Attempt.ofProject, hjob] using hlinked
  · exact h.linked u hu b hb hattempt

theorem linked_step (h : s.Inv jobs) (heff : StatementEffect jobs s x txn st s') :
    ∀ u ∈ s'.usages.versions, ∀ a ∈ s'.attempts.versions, a.id = u.attempt →
      a.ofProject jobs u.project = true := by
  cases heff with
  | readClock | unsettled | gate | letIn | replacePolicy => exact h.linked
  | finish _ ha | report _ ha => exact h.linked_write ha rfl rfl
  | settle _ hu =>
    intro u' hu' a ha hattempt
    rcases Table.mem_versions_write hu' with rfl | hu'
    · exact h.linked _ (h.usages.mem_versions_of_view hu) a ha hattempt
    · exact h.linked u' hu' a ha hattempt
  | insertSnapshot _ hfresh =>
    intro u hu b hb hattempt
    simp only [Storm.fresh, Bool.and_eq_true, List.all_eq_true, decide_eq_true_eq] at hfresh
    rcases Table.mem_versions_write hb with rfl | hb
    · exact absurd hattempt.symm (hfresh.2 u hu)
    · exact h.linked u hu b hb hattempt
  | insertClaim _ hfresh _ hown hproject =>
    intro u' hu' b hb hattempt
    simp only [Storm.fresh, Bool.and_eq_true, List.all_eq_true, decide_eq_true_eq] at hfresh
    rcases Table.mem_versions_write hu' with rfl | hold
    · rcases Table.mem_versions_write hb with rfl | hb
      · exact hproject
      · exact absurd (hattempt.trans hown) (hfresh.1 b hb)
    · rcases Table.mem_versions_write hb with rfl | hb
      · exact absurd hattempt.symm (hfresh.2 u' hold)
      · exact h.linked u' hold b hb hattempt
  | commit =>
    intro u hu a ha hattempt
    exact h.linked u (h.usages.mem_versions_commit hu) a (h.attempts.mem_versions_commit ha)
      hattempt
  | abort =>
    intro u hu a ha hattempt
    exact h.linked u (Table.mem_versions_abort hu) a (Table.mem_versions_abort ha) hattempt

theorem idle_step (h : s.Inv jobs) (hx : s.txns x = some txn)
    (heff : StatementEffect jobs s x txn st s') (y : Nat) (hy : s'.txns y = none) :
    s'.attempts.own y = [] ∧ s'.policies.own y = [] := by
  by_cases hne : y = x
  · subst hne
    cases heff with
    | commit => exact ⟨Table.own_commit_self, Table.own_commit_self⟩
    | abort => exact ⟨Table.own_abort_self, Table.own_abort_self⟩
    | report | insertSnapshot | insertClaim =>
      rw [hx] at hy
      cases hy
    | _ => simp at hy
  · rcases heff.others hne with ⟨htxn, hattempts, hpolicies⟩
    rw [hattempts, hpolicies]
    exact h.idle y (htxn ▸ hy)

theorem raised_step (h : s.Inv jobs) (hx : s.txns x = some txn)
    (heff : StatementEffect jobs s x txn st s') (y : Nat) (txn' : Txn)
    (hy : s'.txns y = some txn') (p : Policy) (hp : p ∈ s'.policies.own y)
    (hstage' : txn'.stage ≠ .replaced p.project true) (q : Policy)
    (hq : q ∈ s'.policies.committed) (hproject : q.project = p.project) :
    q.abuseSuspendedUntil.getD 0 ≤ p.abuseSuspendedUntil.getD 0 := by
  by_cases hne : y = x
  · subst hne
    cases heff with
    | readClock hstage | finish hstage | unsettled hstage | settle hstage | report hstage
    | insertSnapshot hstage | insertClaim hstage =>
      exact h.raised y txn hx p hp (by rw [hstage]; simp) q hq hproject
    | gate hstage hseen =>
      rw [Storm.setTxn_self] at hy
      exact h.raised_write hx hseen (Policy.gated_project) (.inr ⟨_, hstage⟩)
        (fun _ => le_gated) hp hstage' hq hproject
    | letIn hstage _ hseen =>
      rw [Storm.setTxn_self] at hy
      exact h.raised_write hx hseen rfl (.inl hstage) (fun _ => Nat.le_refl _) hp hstage' hq
        hproject
    | replacePolicy hstage hseen =>
      rename_i clear p₀ _
      rw [Storm.setTxn_self] at hy
      cases hy
      have hkept : Policy.project { p₀ with
          abuseSuspendedUntil := if clear then none else p₀.abuseSuspendedUntil } =
        p₀.project := rfl
      refine h.raised_write hx hseen hkept (.inl hstage) ?_ hp hstage' hq hproject
      intro hclear
      cases clear with
      | false => exact Nat.le_refl _
      | true => exact absurd rfl hclear
    | commit | abort => simp at hy
  · rcases heff.others hne with ⟨htxn, -, hpolicies⟩
    rw [hpolicies] at hp
    rw [htxn] at hy
    rcases committed_policies heff with hsame | ⟨-, hcommit⟩
    · exact h.raised y txn' hy p hp hstage' q (hsame ▸ hq) hproject
    · rw [hcommit] at hq
      exact h.raised y txn' hy p hp hstage' q (h.committed_of_drafted hne hp hq hproject) hproject

theorem grounded_step (h : s.Inv jobs) (hx : s.txns x = some txn)
    (heff : StatementEffect jobs s x txn st s') (y : Nat) (txn' : Txn)
    (hy : s'.txns y = some txn') : txn'.Grounded jobs s' y := by
  by_cases hne : y = x
  · subst hne
    have hbefore := h.grounded y txn hx
    cases heff with
    | readClock | unsettled | gate =>
      rw [Storm.setTxn_self] at hy
      cases hy
      trivial
    | finish =>
      rw [Storm.setTxn_self] at hy
      cases hy
      exact ⟨_, Table.mem_own_write.mpr (.inl rfl), rfl, rfl, rfl⟩
    | settle hstage hu hattempt =>
      rename_i attempt state u _
      rw [Storm.setTxn_self] at hy
      cases hy
      simp only [Txn.Grounded, hstage] at hbefore
      rcases hbefore with ⟨f, hf, hid, -, hfinished⟩
      by_cases hfailure : state.isFailure = true
      · simp only [Txn.Grounded, hfailure, if_true]
        refine ⟨f, hf, hid, hfinished, ?_⟩
        exact h.linked u (h.usages.mem_versions_of_view hu) f
          (Table.mem_versions.mpr (.inr ⟨y, hf⟩)) (hid.trans hattempt.symm)
      · simp [Txn.Grounded, hfailure]
    | report hstage | insertSnapshot hstage =>
      have heq : txn' = txn := Option.some.inj (hy.symm.trans hx)
      subst heq
      simp only [Txn.Grounded, hstage]
    | letIn _ hclock _ huntil =>
      rw [Storm.setTxn_self] at hy
      cases hy
      exact ⟨_, Table.mem_own_write.mpr (.inl rfl), rfl, huntil.trans hclock⟩
    | insertClaim hstage =>
      have heq : txn' = txn := Option.some.inj (hy.symm.trans hx)
      subst heq
      simp only [Txn.Grounded, hstage] at hbefore ⊢
      exact hbefore
    | replacePolicy =>
      rw [Storm.setTxn_self] at hy
      cases hy
      exact ⟨_, Table.mem_own_write.mpr (.inl rfl), rfl⟩
    | commit | abort => simp at hy
  · rcases heff.others hne with ⟨htxn, hattempts, hpolicies⟩
    rw [htxn] at hy
    exact (h.grounded y txn' hy).of_own hattempts hpolicies (Nat.le_of_eq heff.clock_eq.symm)

theorem statement (h : s.Inv jobs) (hx : s.txns x = some txn)
    (heff : StatementEffect jobs s x txn st s') : s'.Inv jobs where
  attempts := h.sound_attempts heff
  usages := h.sound_usages heff
  policies := h.sound_policies heff
  linked := h.linked_step heff
  idle := h.idle_step hx heff
  raised := h.raised_step hx heff
  grounded := h.grounded_step hx heff

theorem tick (h : s.Inv jobs) (micros : Nat) :
    ({ s with clock := s.clock + micros } : Storm).Inv jobs where
  attempts := h.attempts
  usages := h.usages
  policies := h.policies
  linked := h.linked
  idle := h.idle
  raised := h.raised
  grounded := fun y txn' hy => (h.grounded y txn' hy).of_own rfl rfl (Nat.le_add_right _ _)

theorem begin (h : s.Inv jobs) (hx : s.txns x = none) :
    (s.setTxn x (some ⟨s.clock, .running⟩)).Inv jobs where
  attempts := h.attempts
  usages := h.usages
  policies := h.policies
  linked := h.linked
  idle := by
    intro y hy
    by_cases hne : y = x
    · rw [hne, Storm.setTxn_self] at hy
      cases hy
    · exact h.idle y (Storm.setTxn_of_ne hne ▸ hy)
  raised := by
    intro y txn' hy p hp hstage
    by_cases hne : y = x
    · subst hne
      have hnone : p ∈ s.policies.own y := hp
      rw [(h.idle y hx).2] at hnone
      cases hnone
    · exact h.raised y txn' (Storm.setTxn_of_ne hne ▸ hy) p hp hstage
  grounded := by
    intro y txn' hy
    by_cases hne : y = x
    · rw [hne, Storm.setTxn_self] at hy
      cases hy
      trivial
    · exact (h.grounded y txn' (Storm.setTxn_of_ne hne ▸ hy)).of_own rfl rfl (Nat.le_refl _)

end Storm.Inv

theorem stepStorm_cases (jobs : List Job) (s : Storm) (op : StormOp) :
    stepStorm jobs s op = s ∨
      (∃ micros, op = .tick micros ∧
        stepStorm jobs s op = { s with clock := s.clock + micros }) ∨
      (∃ x, op = .begin x ∧ s.txns x = none ∧
        stepStorm jobs s op = s.setTxn x (some ⟨s.clock, .running⟩)) ∨
      ∃ x st txn, op = .statement x st ∧ s.txns x = some txn ∧
        StatementEffect jobs s x txn st (stepStorm jobs s op) := by
  cases op with
  | tick micros => exact .inr (.inl ⟨micros, rfl, rfl⟩)
  | begin x =>
    cases hx : s.txns x with
    | none => exact .inr (.inr (.inl ⟨x, rfl, hx, by simp [stepStorm, hx]⟩))
    | some txn => exact .inl (by simp [stepStorm, hx])
  | statement x st =>
    cases hx : s.txns x with
    | none => exact .inl (by simp [stepStorm, hx])
    | some txn =>
      cases hrun : st.run jobs s x txn with
      | none => exact .inl (by simp [stepStorm, hx, hrun])
      | some s' =>
        have hstep : stepStorm jobs s (.statement x st) = s' := by
          simp [stepStorm, hx, hrun]
        rw [hstep]
        exact .inr (.inr (.inr ⟨x, st, txn, rfl, hx, st.run_effect hrun⟩))

theorem Storm.Inv.step (h : s.Inv jobs) (op : StormOp) :
    (stepStorm jobs s op).Inv jobs := by
  rcases stepStorm_cases jobs s op with
    heq | ⟨micros, -, heq⟩ | ⟨x, -, hx, heq⟩ | ⟨x, st, txn, -, hx, heff⟩
  · rw [heq]
    exact h
  · rw [heq]
    exact h.tick micros
  · rw [heq]
    exact h.begin hx
  · exact h.statement hx heff

/-! ## Letting jobs in -/

def suspendedUntil (policies : List Policy) (project : ProjectId) : Time :=
  match policies.find? (·.project = project) with
  | some p => p.abuseSuspendedUntil.getD 0
  | none => 0

theorem suspendedUntil_of_mem (hkeyed : Keyed (·.project) policies) (hp : p ∈ policies) :
    suspendedUntil policies p.project = p.abuseSuspendedUntil.getD 0 := by
  unfold suspendedUntil
  rw [hkeyed.find hp]

theorem suspendedUntil_le {t : Time}
    (h : ∀ p ∈ policies, p.project = project → p.abuseSuspendedUntil.getD 0 ≤ t) :
    suspendedUntil policies project ≤ t := by
  unfold suspendedUntil
  cases hfind : policies.find? (·.project = project) with
  | none => exact Nat.zero_le t
  | some p =>
    have hproject : p.project = project := by simpa using List.find?_some hfind
    exact h p (List.mem_of_find?_eq_some hfind) hproject

/-- While a transaction that lets a job in is open, its project is not suspended, neither before nor
after its commit. -/
theorem Storm.Inv.not_suspended (h : s.Inv jobs) {kind : Intake}
    (hx : s.txns x = some ⟨now, .admitted kind project⟩) :
    suspendedUntil s.policies.committed project ≤ s.clock ∧
      suspendedUntil (s.seenPolicies x) project ≤ s.clock := by
  rcases h.grounded x _ hx with ⟨p, hp, rfl, huntil⟩
  constructor
  · refine suspendedUntil_le ?_
    intro q hq hproject
    exact (h.raised x _ hx p hp (by simp) q hq hproject).trans huntil
  · have hseen : p ∈ s.seenPolicies x := h.policies.mem_view.mpr (.inl hp)
    rw [suspendedUntil_of_mem (h.keyed_seenPolicies x) hseen]
    exact huntil

/-- The operation is the commit of an operator's clear. -/
def StormOp.clears (s : Storm) (project : ProjectId) (op : StormOp) : Prop :=
  ∃ x now, op = .statement x .commit ∧ s.txns x = some ⟨now, .replaced project true⟩

theorem Storm.Inv.suspendedUntil_le_step (h : s.Inv jobs) {op : StormOp}
    (hclears : ¬ op.clears s project) :
    suspendedUntil s.policies.committed project ≤
      suspendedUntil (stepStorm jobs s op).policies.committed project := by
  rcases stepStorm_cases jobs s op with
    heq | ⟨micros, -, heq⟩ | ⟨x, -, hx, heq⟩ | ⟨x, st, txn, rfl, hx, heff⟩
  · rw [heq]
  · rw [heq]
  · rw [heq]
    exact Nat.le_refl _
  rcases Storm.Inv.committed_policies heff with hsame | ⟨rfl, hcommit⟩
  · rw [hsame]
  rw [hcommit]
  refine suspendedUntil_le ?_
  rintro q hq rfl
  have hstage : txn.stage ≠ .replaced q.project true := by
    intro hreplaced
    exact hclears ⟨x, txn.now, rfl, hreplaced ▸ hx⟩
  -- the transaction sees the committed row, or its own draft of it
  by_cases hdrafted : ∃ p ∈ s.policies.own x, p.project = q.project
  · rcases hdrafted with ⟨p, hp, hproject⟩
    have hseen : p ∈ s.seenPolicies x := h.policies.mem_view.mpr (.inl hp)
    rw [← hproject, suspendedUntil_of_mem (h.keyed_seenPolicies x) hseen]
    exact h.raised x txn hx p hp (hproject ▸ hstage) q hq hproject.symm
  · have hseen : q ∈ s.seenPolicies x := by
      refine h.policies.mem_view.mpr (.inr ⟨hq, ?_⟩)
      intro p hp hproject
      exact hdrafted ⟨p, hp, hproject⟩
    rw [suspendedUntil_of_mem (h.keyed_seenPolicies x) hseen]

end PortageEngine.Ledger
