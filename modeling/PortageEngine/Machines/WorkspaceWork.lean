import PortageEngine.Library.Outline
import PortageEngine.Machines.Workspace

/-!
# What an operation on a workspace relies on and guarantees

While a `Provision` holds the lock on the lock file that is in the directory, the others leave the
directory, the machines and the fence of the saved context alone.  `Terminate` and the removal of a
recorded workspace take no lock, and a restored executor saves the context without it; they rely on
nobody else doing anything.

The calls are those that meet two conditions (`permitted`): the callback refuses a registration only
while the Terraform state is empty, and the directory is removed only while nobody else has its lock
file open.
-/

namespace PortageEngine.Machines

open List Library Library.Process Library.Process.Env
open Storage (Outcome)

/-! ## Conditions -/

def Site.lockFile (s : Site) : Option Nat :=
  s.workspace.bind Workspace.lockFile

/-- Nobody else has the lock file of the directory open. -/
def Site.unattended (s : Site) (o : Operation) : Bool :=
  s.handles.all fun h => h.ticket = o.ticket || s.lockFile ≠ some h.file

def permitted (c : Outcome) (r : Request) (s : Site) : Bool :=
  decide (r.sender.ticket ∈ s.crashed) ||
    match r.call with
    | .save fence .provisioning => (fence = s.claim && c = .performed) || s.resources.isEmpty
    | .removeAll => s.unattended r.sender
    | _ => true

/-- The condition on starts: what destroys a machine is started under the current claim. -/
def startsCurrent (e : Action) (s : Site) : Bool :=
  match e with
  | .terminate _ fence | .reclaim _ fence => fence = s.claim
  | _ => true

/-- The calls that meet the conditions; at any other call the process dies. -/
def permittedExec (c : Outcome) (r : Request) (s : Site) : Site × Reply :=
  if permitted c r s then siteExec c r s else (s.crash r.sender.ticket, .failed)

/-! ## Assertions -/

def Opened (ticket : Nat) (s : Site) : Prop :=
  ∃ h ∈ s.handles, h.ticket = ticket ∧ s.lockFile = some h.file

def Holds (ticket : Nat) (s : Site) : Prop :=
  ∃ h ∈ s.handles, h.ticket = ticket ∧ s.lockFile = some h.file ∧ h.locked = true

structure SiteInv (s : Site) : Prop where
  kept : ∀ m ∈ s.machines, ∃ w, s.workspace = some w ∧ m ∈ w.resources ∧ .identity ∈ w.files
  fence_le : s.contextFence ≤ s.claim
  clean : s.trespassed = false
  keyed : ∀ h ∈ s.handles, ∀ k ∈ s.handles, h.ticket = k.ticket → h = k
  locks : ∀ h ∈ s.handles, ∀ k ∈ s.handles, h.locked = true → k.locked = true → h.file = k.file →
    h.ticket = k.ticket

/-- Nothing has happened to the operation with this number. -/
structure Undisturbed (ticket : Nat) (s s' : Site) : Prop where
  opened : Opened ticket s → Opened ticket s'
  holds : Holds ticket s → Holds ticket s' ∧ s'.workspace = s.workspace ∧
    s'.contextFence = s.contextFence

structure Advances (s s' : Site) : Prop where
  crashed : ∀ t ∈ s.crashed, t ∈ s'.crashed
  fence : s.contextFence ≤ s'.contextFence

structure Rely (o : Operation) (s s' : Site) : Prop where
  advances : Advances s s'
  shared : o.ticket ∉ s'.crashed → o.task = .provision → Undisturbed o.ticket s s'
  alone : o.task ≠ .provision → s'.workspace = s.workspace ∧ s'.context = s.context

structure Guarantee (o : Operation) (s s' : Site) : Prop where
  advances : Advances s s'
  others : o.task = .provision → ∀ t, t ≠ o.ticket → Undisturbed t s s'

/-- The workspace is the operation's own: it holds the lock, if it is one that takes it. -/
def Turn (o : Operation) (s : Site) : Prop :=
  o.task = .provision → Holds o.ticket s

/-- The current claim holder has not recorded the machine as running since the operation was
registered, or was started. -/
def Harmless (o : Operation) (s : Site) : Prop :=
  (o.task = .provision → s.contextFence = o.fence) ∧
    (o.task ≠ .provision → ∀ i, s.context = some i → i.state = .running → i.fence ≤ o.fence)

/-- It is the operation's turn, and the workspace is as `P` says. -/
def Owns (o : Operation) (P : Option Workspace → Prop) (s : Site) : Prop :=
  Turn o s ∧ P s.workspace

/-- In addition, the operation can harm nobody. -/
def Registered (o : Operation) (P : Option Workspace → Prop) (s : Site) : Prop :=
  Owns o P s ∧ Harmless o s

def Identified (w : Option Workspace) : Prop :=
  ∃ v, w = some v ∧ .identity ∈ v.files

def Vacant (w : Option Workspace) : Prop :=
  ∀ v, w = some v → v.resources = []

/-- The context was saved under the operation's claim or a later one. -/
def Confirmed (o : Operation) (s : Site) : Prop :=
  o.fence ≤ s.contextFence

section Relations

variable {o : Operation} {s s' s'' : Site} {t : Nat}

theorem Advances.refl : Advances s s := ⟨fun _ ht => ht, Nat.le_refl _⟩

theorem Advances.trans (h : Advances s s') (h' : Advances s' s'') : Advances s s'' :=
  ⟨fun t ht => h'.crashed t (h.crashed t ht), h.fence.trans h'.fence⟩

theorem Undisturbed.refl : Undisturbed t s s :=
  ⟨fun h => h, fun h => ⟨h, rfl, rfl⟩⟩

theorem Undisturbed.trans (h : Undisturbed t s s') (h' : Undisturbed t s' s'') :
    Undisturbed t s s'' := by
  refine ⟨fun hopened => h'.opened (h.opened hopened), ?_⟩
  intro hholds
  rcases h.holds hholds with ⟨hholds', hworkspace, hfence⟩
  rcases h'.holds hholds' with ⟨hholds'', hworkspace', hfence'⟩
  exact ⟨hholds'', hworkspace'.trans hworkspace, hfence'.trans hfence⟩

theorem Rely.refl : Rely o s s :=
  ⟨.refl, fun _ _ => .refl, fun _ => ⟨rfl, rfl⟩⟩

theorem Rely.trans (h : Rely o s s') (h' : Rely o s' s'') : Rely o s s'' := by
  refine ⟨h.advances.trans h'.advances, ?_, ?_⟩
  · intro halive htask
    have halive' : o.ticket ∉ s'.crashed := fun hdead => halive (h'.advances.crashed _ hdead)
    exact (h.shared halive' htask).trans (h'.shared halive htask)
  · intro htask
    rcases h.alone htask with ⟨hworkspace, hcontext⟩
    rcases h'.alone htask with ⟨hworkspace', hcontext'⟩
    exact ⟨hworkspace'.trans hworkspace, hcontext'.trans hcontext⟩

theorem Guarantee.refl : Guarantee o s s :=
  ⟨.refl, fun _ _ _ => .refl⟩

theorem Holds.opened (h : Holds t s) : Opened t s := by
  rcases h with ⟨k, hk, hticket, hfile, _⟩
  exact ⟨k, hk, hticket, hfile⟩

theorem SiteInv.eq_of_holds (hinv : SiteInv s) {t' : Nat} (h : Holds t s) (h' : Holds t' s) :
    t = t' := by
  rcases h with ⟨k, hk, rfl, hfile, hlocked⟩
  rcases h' with ⟨k', hk', rfl, hfile', hlocked'⟩
  rw [hfile] at hfile'
  exact hinv.locks k hk k' hk' hlocked hlocked' (Option.some.inj hfile')

theorem Opened.same (hhandles : s'.handles = s.handles) (hlock : s'.lockFile = s.lockFile) :
    Opened t s' ↔ Opened t s := by
  unfold Opened
  rw [hhandles, hlock]

theorem Holds.same (hhandles : s'.handles = s.handles) (hlock : s'.lockFile = s.lockFile) :
    Holds t s' ↔ Holds t s := by
  unfold Holds
  rw [hhandles, hlock]

theorem guarantee_of_turn (hinv : SiteInv s) (hturn : Turn o s) (hhandles : s'.handles = s.handles)
    (hlock : s'.lockFile = s.lockFile) (hadvances : Advances s s') : Guarantee o s s' := by
  refine ⟨hadvances, ?_⟩
  intro htask t ht
  refine ⟨(Opened.same hhandles hlock).mpr, ?_⟩
  intro hholds
  exact absurd (hinv.eq_of_holds hholds (hturn htask)) ht

theorem guarantee_of_same (hhandles : s'.handles = s.handles) (hworkspace : s'.workspace = s.workspace)
    (hfence : s'.contextFence = s.contextFence) (hcrashed : ∀ t ∈ s.crashed, t ∈ s'.crashed) :
    Guarantee o s s' := by
  have hlock : s'.lockFile = s.lockFile := by unfold Site.lockFile; rw [hworkspace]
  refine ⟨⟨hcrashed, hfence.ge⟩, ?_⟩
  intro _ t _
  exact ⟨(Opened.same hhandles hlock).mpr,
    fun hholds => ⟨(Holds.same hhandles hlock).mpr hholds, hworkspace, hfence⟩⟩

end Relations

/-! ## The environment of an operation -/

def siteEnv (o : Operation) : Env Site Request Reply Outcome where
  exec := permittedExec
  inv := SiteInv
  rely := Rely o
  guarantee := Guarantee o
  gone s := o.ticket ∈ s.crashed

section Stability

variable {o : Operation} {P : Option Workspace → Prop}

theorem stable_true : (siteEnv o).Stable fun _ => True :=
  fun _ _ _ _ _ => trivial

theorem stable_opened (htask : o.task = .provision) : (siteEnv o).Stable (Opened o.ticket) :=
  fun _ _ hrely halive h => (hrely.shared halive htask).opened h

theorem stable_owns : (siteEnv o).Stable (Owns o P) := by
  rintro s s' hrely halive ⟨hturn, hP⟩
  by_cases htask : o.task = .provision
  · rcases (hrely.shared halive htask).holds (hturn htask) with ⟨hholds, hworkspace, _⟩
    refine ⟨fun _ => hholds, ?_⟩
    rw [hworkspace]
    exact hP
  · refine ⟨fun h => absurd h htask, ?_⟩
    rw [(hrely.alone htask).1]
    exact hP

theorem stable_registered : (siteEnv o).Stable (Registered o P) := by
  rintro s s' hrely halive ⟨howns, hshared, halone⟩
  refine ⟨stable_owns s s' hrely halive howns, ?_, ?_⟩
  · intro htask
    rw [((hrely.shared halive htask).holds (howns.1 htask)).2.2]
    exact hshared htask
  · intro htask
    rw [(hrely.alone htask).2]
    exact halone htask

theorem stable_confirmed : (siteEnv o).Stable (Confirmed o) :=
  fun _ _ hrely _ h => h.trans hrely.advances.fence

end Stability

/-! ## Calls -/

section Calls

variable {o : Operation} {call : Call} {s s' : Site} {c : Outcome}

/-- A failed registration finds an empty Terraform state. -/
def Call.refusable (call : Call) (s : Site) : Prop :=
  ∀ fence, call = .save fence .provisioning → s.resources = []

theorem inert : (siteEnv o).Inert ⟨o, call⟩ := by
  intro c s hinv hdead
  have heq : (siteEnv o).exec c ⟨o, call⟩ s = (s, .failed) := by
    have hdead' : o.ticket ∈ s.crashed := hdead
    simp [siteEnv, permittedExec, permitted, siteExec, hdead']
  rw [heq]
  exact ⟨.refl, hinv, hdead⟩

theorem SiteInv.closes (hinv : SiteInv s) (ticket : Nat) : SiteInv (s.closes ticket) where
  kept := hinv.kept
  fence_le := hinv.fence_le
  clean := hinv.clean
  keyed h hh k hk := hinv.keyed h (mem_filter.mp hh).1 k (mem_filter.mp hk).1
  locks h hh k hk := hinv.locks h (mem_filter.mp hh).1 k (mem_filter.mp hk).1

theorem SiteInv.crash (hinv : SiteInv s) (ticket : Nat) : SiteInv (s.crash ticket) :=
  { hinv.closes ticket with }

variable {ticket t : Nat} {A B C : Site → Prop}

theorem undisturbed_of_handles (hmem : ∀ h ∈ s.handles, h.ticket = t → h ∈ s'.handles)
    (hlock : ∀ f, s.lockFile = some f → s'.lockFile = some f ∧ s'.workspace = s.workspace)
    (hfence : s'.contextFence = s.contextFence) : Undisturbed t s s' := by
  constructor
  · rintro ⟨h, hh, hticket, hf⟩
    exact ⟨h, hmem h hh hticket, hticket, (hlock _ hf).1⟩
  · rintro ⟨h, hh, hticket, hf, hlocked⟩
    exact ⟨⟨h, hmem h hh hticket, hticket, (hlock _ hf).1, hlocked⟩, (hlock _ hf).2, hfence⟩

theorem undisturbed_of_closed (hclosed : ¬ Opened t s) : Undisturbed t s s' :=
  ⟨fun h => absurd h hclosed, fun h => absurd h.opened hclosed⟩

theorem undisturbed_closes (ht : t ≠ ticket) : Undisturbed t s (s.closes ticket) := by
  refine undisturbed_of_handles ?_ (fun _ hf => ⟨hf, rfl⟩) rfl
  rintro h hh rfl
  exact mem_filter.mpr ⟨hh, by simpa using ht⟩

theorem undisturbed_crash (ht : t ≠ ticket) : Undisturbed t s (s.crash ticket) :=
  ⟨(undisturbed_closes ht).opened, (undisturbed_closes ht).holds⟩

theorem guarantee_crash : Guarantee o s (s.crash o.ticket) :=
  ⟨⟨fun _ ht => mem_cons_of_mem _ ht, Nat.le_refl _⟩, fun _ _ ht => undisturbed_crash ht⟩

/-- How a call of a live process goes: it dies, nothing happens, or the call is performed, whatever
the answer. -/
theorem permittedExec_cases (halive : o.ticket ∉ s.crashed) (hlookup : call ≠ .lookup) :
    permittedExec c ⟨o, call⟩ s = (s.crash o.ticket, .failed) ∨
      (call = .removeAll → s.unattended o = true) ∧
      (permittedExec c ⟨o, call⟩ s = (s, .failed) ∧ call.refusable s ∨
        ∃ s', s.perform o call = some s' ∧ (permittedExec c ⟨o, call⟩ s = (s', .done) ∨
          permittedExec c ⟨o, call⟩ s = (s', .failed) ∧ call.refusable s)) := by
  unfold permittedExec
  by_cases hok : permitted c ⟨o, call⟩ s = true
  · rw [if_pos hok]
    simp only [permitted, halive, decide_false, Bool.false_or] at hok
    refine .inr ⟨?_, ?_⟩
    · rintro rfl
      exact hok
    have hrefused : ∀ fence, call = .save fence .provisioning →
        ¬ (fence = s.claim ∧ c = .performed) → s.resources = [] := by
      rintro fence rfl hnot
      simp only [Bool.or_eq_true, Bool.and_eq_true, decide_eq_true_eq] at hok
      exact isEmpty_iff.mp (hok.resolve_left hnot)
    simp only [siteExec, halive, if_false, hlookup]
    cases hperform : s.perform o call with
    | none =>
      refine .inl ⟨rfl, ?_⟩
      intro fence hcall
      refine hrefused fence hcall ?_
      rintro ⟨rfl, _⟩
      simp [hcall, Site.perform] at hperform
    | some s' =>
      dsimp only
      by_cases hcertain : call.certain = true
      · rw [if_pos hcertain]
        exact .inr ⟨s', rfl, .inl rfl⟩
      rw [if_neg hcertain]
      cases c with
      | performed => exact .inr ⟨s', rfl, .inl rfl⟩
      | lost =>
        refine .inr ⟨s', rfl, .inr ⟨rfl, ?_⟩⟩
        exact fun fence hcall => hrefused fence hcall (by simp)
      | failed =>
        refine .inl ⟨rfl, ?_⟩
        exact fun fence hcall => hrefused fence hcall (by simp)
  · rw [if_neg hok]
    exact .inl rfl

/-- `B` after an answer and `C` after a failure. -/
def Replies (B C : Site → Prop) : Reply → Site → Prop
  | .failed => C
  | _ => B

/-- The rule for calls: say what happens if the call is performed, and what is known if it fails. -/
theorem spec_call (hlookup : call ≠ .lookup) (hstable : (siteEnv o).Stable A)
    (hperform : ∀ s s', SiteInv s → A s → (call = .removeAll → s.unattended o = true) →
      s.perform o call = some s' → Guarantee o s s' ∧ SiteInv s' ∧ B s' ∧ (call.refusable s → C s'))
    (hfail : ∀ s, A s → call.refusable s → C s) :
    (siteEnv o).Spec A (Prog.ask ⟨o, call⟩) (Replies B C) := by
  refine Env.ask hstable (inert) ?_ fun _ _ hrely hdead => hrely.advances.crashed _ hdead
  intro c s hinv halive hA
  change Guarantee o s (permittedExec c ⟨o, call⟩ s).1 ∧ SiteInv (permittedExec c ⟨o, call⟩ s).1 ∧
    (siteEnv o).Fact (Replies B C (permittedExec c ⟨o, call⟩ s).2) (permittedExec c ⟨o, call⟩ s).1
  rcases permittedExec_cases (c := c) halive hlookup with heq | ⟨hunattended, hcases⟩
  · rw [heq]
    exact ⟨guarantee_crash, hinv.crash _, .inl (mem_cons_self)⟩
  rcases hcases with ⟨heq, hrefusable⟩ | ⟨s', hs', heq | ⟨heq, hrefusable⟩⟩
  · rw [heq]
    exact ⟨.refl, hinv, .inr (hfail s hA hrefusable)⟩
  · rcases hperform s s' hinv hA hunattended hs' with ⟨hG, hI, hB, _⟩
    rw [heq]
    exact ⟨hG, hI, .inr hB⟩
  · rcases hperform s s' hinv hA hunattended hs' with ⟨hG, hI, _, hC⟩
    rw [heq]
    exact ⟨hG, hI, .inr (hC hrefusable)⟩

theorem triple_demand {message : String} (h : (siteEnv o).Spec A (Prog.ask ⟨o, call⟩) (Replies B C)) :
    (siteEnv o).Triple A (o.demand call message) (fun _ => B) C := by
  refine Spec.bind h ?_
  intro reply
  cases reply with
  | _ => exact Spec.pure fun _ hs => hs

theorem spec_attempt (h : (siteEnv o).Spec A (Prog.ask ⟨o, call⟩) (Replies B B)) :
    (siteEnv o).Spec A (o.attempt call) fun _ => B := by
  refine Spec.bind h ?_
  intro reply
  cases reply with
  | _ => exact Spec.pure fun _ hs => hs

theorem Replies.imp {B' C' : Site → Prop} (hB : ∀ s, B s → B' s) (hC : ∀ s, C s → C' s)
    (reply : Reply) (s : Site) (h : Replies B C reply s) : Replies B' C' reply s := by
  cases reply with
  | failed => exact hC s h
  | done | «instance» lifecycle => exact hB s h

end Calls

/-! ## What each call does -/

section Effects

variable {o : Operation} {call : Call} {s s' : Site} {w : Workspace} {t : Nat}
  {P P' : Option Workspace → Prop}

/-- The calls that change nothing but what a replica tracks. -/
def Call.quiet : Call → Bool
  | .stat | .init | .track | .untrack | .stage _ | .finishCleanup _ => true
  | _ => false

theorem perform_quiet (hquiet : call.quiet = true) (hs : s.perform o call = some s') :
    ∃ instances, s' = { s with instances := instances } := by
  cases call with
  | stat | init =>
    rcases Option.map_eq_some_iff.mp hs with ⟨_, _, rfl⟩
    exact ⟨s.instances, rfl⟩
  | track | untrack | stage | finishCleanup =>
    cases hs
    exact ⟨_, rfl⟩
  | _ => cases hquiet

variable {A C B : Site → Prop} {machines : List Nat} {created fence : Nat} {v : Workspace}
  {state : InstanceState}

theorem spec_quiet (hquiet : call.quiet = true) (hstable : (siteEnv o).Stable A)
    (hA : ∀ s instances, A s → A { s with instances := instances }) :
    (siteEnv o).Spec A (Prog.ask ⟨o, call⟩) (Replies A A) := by
  refine spec_call ?_ hstable ?_ fun _ h _ => h
  · rintro rfl
    cases hquiet
  intro s s' hinv h _ hs
  rcases perform_quiet hquiet hs with ⟨instances, rfl⟩
  exact ⟨guarantee_of_same rfl rfl rfl fun _ ht => ht, { hinv with }, hA s _ h, fun _ => hA s _ h⟩

theorem triple_quiet {message : String} (hquiet : call.quiet = true)
    (hstable : (siteEnv o).Stable A) (hA : ∀ s instances, A s → A { s with instances := instances })
    (hC : ∀ s, A s → C s) : (siteEnv o).Triple A (o.demand call message) (fun _ => A) C :=
  (triple_demand (spec_quiet hquiet hstable hA)).imp (fun _ h => h) (fun _ _ h => h) hC

theorem spec_close (hstable : (siteEnv o).Stable A) (hA : ∀ s, A s → A (s.closes o.ticket)) :
    (siteEnv o).Spec A (Prog.ask ⟨o, .close⟩) (Replies A A) := by
  refine spec_call nofun hstable ?_ fun _ h _ => h
  intro s s' hinv h _ hs
  cases hs
  refine ⟨⟨⟨fun _ ht => ht, Nat.le_refl _⟩, fun _ t ht => undisturbed_closes ht⟩, hinv.closes _,
    hA s h, fun _ => hA s h⟩

/-! ### The lock -/

theorem spec_mkdirAll :
    (siteEnv o).Spec (fun _ => True) (Prog.ask ⟨o, .mkdirAll⟩)
      (Replies (fun _ => True) fun _ => True) := by
  refine spec_call nofun stable_true ?_ fun _ _ _ => trivial
  intro s s' hinv _ _ hs
  cases hs
  cases hw : s.workspace with
  | some w =>
    refine ⟨guarantee_of_same rfl hw.symm rfl fun _ ht => ht, ?_, trivial, fun _ => trivial⟩
    exact { hinv with kept := hw ▸ hinv.kept }
  | none =>
    -- there is no lock file to be held, and there is no machine
    have hlock : s.lockFile = none := by simp [Site.lockFile, hw]
    refine ⟨⟨⟨fun _ ht => ht, Nat.le_refl _⟩, ?_⟩, { hinv with kept := ?_ }, trivial,
      fun _ => trivial⟩
    · intro _ t _
      refine undisturbed_of_closed ?_
      rintro ⟨h, _, _, hfile⟩
      rw [hlock] at hfile
      cases hfile
    · intro m hm
      rcases hinv.kept m hm with ⟨w, hw', _⟩
      rw [hw] at hw'
      cases hw'

theorem opens_eq (hw : s.workspace = some w) : ∃ file,
    (s.opens o w).handles = ⟨o.ticket, file, false⟩ :: s.handles.filter (·.ticket ≠ o.ticket) ∧
    (s.opens o w).workspace = some { w with lockFile := some file } ∧
    (∀ f, w.lockFile = some f → f = file) ∧
    (s.opens o w).machines = s.machines ∧ (s.opens o w).context = s.context ∧
    (s.opens o w).claim = s.claim ∧ (s.opens o w).trespassed = s.trespassed ∧
    (s.opens o w).crashed = s.crashed := by
  unfold Site.opens
  cases hlock : w.lockFile with
  | some file =>
    refine ⟨file, rfl, ?_, fun f hf => (Option.some.inj hf).symm, rfl, rfl, rfl, rfl, rfl⟩
    change s.workspace = _
    rw [← hlock]
    exact hw
  | none => exact ⟨s.opened, rfl, rfl, nofun, rfl, rfl, rfl, rfl, rfl⟩

variable {handles : List Handle}

/-- The handles stay in order when an operation gets one that nobody else has locked. -/
theorem SiteInv.own (hinv : SiteInv s) (own : Handle) (hticket : own.ticket = o.ticket)
    (hfree : own.locked = true → ∀ k ∈ s.handles, k.ticket ≠ o.ticket → k.file = own.file →
      k.locked = false)
    (hold : ∀ k ∈ handles, k = own ∨ k ∈ s.handles ∧ k.ticket ≠ o.ticket) :
    (∀ h ∈ handles, ∀ k ∈ handles, h.ticket = k.ticket → h = k) ∧
      ∀ h ∈ handles, ∀ k ∈ handles, h.locked = true → k.locked = true → h.file = k.file →
        h.ticket = k.ticket := by
  have hkeyed := hinv.keyed
  have hlocks := hinv.locks
  constructor <;> grind

theorem SiteInv.kept_in (hinv : SiteInv s) (hw : s.workspace = some w) {m : Nat}
    (hm : m ∈ s.machines) : m ∈ w.resources ∧ .identity ∈ w.files := by
  rcases hinv.kept m hm with ⟨_, hw', hkept⟩
  cases hw.symm.trans hw'
  exact hkept

theorem SiteInv.opens (hinv : SiteInv s) (hw : s.workspace = some w) : SiteInv (s.opens o w) := by
  rcases opens_eq (o := o) hw with
    ⟨file, hhandles, hworkspace, _, hmachines, hcontext, hclaim, htrespassed, _⟩
  have hold : ∀ h ∈ (s.opens o w).handles, h = ⟨o.ticket, file, false⟩ ∨
      h ∈ s.handles ∧ h.ticket ≠ o.ticket := by
    rw [hhandles]
    simp
  have hordered := hinv.own ⟨o.ticket, file, false⟩ rfl nofun hold
  refine ⟨?_, ?_, htrespassed.trans hinv.clean, hordered.1, hordered.2⟩
  · intro m hm
    rw [hmachines] at hm
    exact ⟨_, hworkspace, hinv.kept_in hw hm⟩
  · unfold Site.contextFence
    rw [hcontext, hclaim]
    exact hinv.fence_le

theorem guarantee_opens (hw : s.workspace = some w) : Guarantee o s (s.opens o w) := by
  rcases opens_eq (o := o) hw with ⟨file, hhandles, hworkspace, hsame, _, hcontext, _, _, hcrashed⟩
  have hfence : (s.opens o w).contextFence = s.contextFence := by
    unfold Site.contextFence
    rw [hcontext]
  -- if somebody has the lock file open, it is the one that is opened now
  have hlock : ∀ f, s.lockFile = some f → (s.opens o w).lockFile = some f ∧
      (s.opens o w).workspace = s.workspace := by
    intro f hf
    have hfile : w.lockFile = some f := by simpa [Site.lockFile, hw] using hf
    cases hsame f hfile
    refine ⟨by simp [Site.lockFile, hworkspace], ?_⟩
    rw [hworkspace, hw, ← hfile]
  refine ⟨⟨fun t ht => hcrashed ▸ ht, hfence.ge⟩, ?_⟩
  intro _ t ht
  refine undisturbed_of_handles ?_ hlock hfence
  rintro h hh rfl
  rw [hhandles]
  exact mem_cons_of_mem _ (mem_filter.mpr ⟨hh, by simpa using ht⟩)

theorem spec_openLock (hstable : (siteEnv o).Stable A)
    (hB : ∀ s w, A s → s.workspace = some w → B (s.opens o w)) :
    (siteEnv o).Spec A (Prog.ask ⟨o, .openLock⟩) (Replies B fun _ => True) := by
  refine spec_call nofun hstable ?_ fun _ _ _ => trivial
  intro s s' hinv h _ hs
  rcases Option.map_eq_some_iff.mp hs with ⟨w, hw, rfl⟩
  exact ⟨guarantee_opens hw, hinv.opens hw, hB s w h hw, fun _ => trivial⟩

theorem opened_opens (hw : s.workspace = some w) : Opened o.ticket (s.opens o w) := by
  rcases opens_eq (o := o) hw with ⟨file, hhandles, hworkspace, _⟩
  refine ⟨⟨o.ticket, file, false⟩, ?_, rfl, ?_⟩
  · rw [hhandles]
    exact mem_cons_self
  · simp [Site.lockFile, hworkspace]

theorem locks_eq (hs : s.locks o = some s') : ∃ h ∈ s.handles, h.ticket = o.ticket ∧
    (∀ k ∈ s.handles, k.ticket ≠ o.ticket → k.file = h.file → k.locked = false) ∧
    s' = { s with
      handles := s.handles.map fun k => if k.ticket = o.ticket then { k with locked := true } else k } := by
  rcases Option.bind_eq_some_iff.mp hs with ⟨h, hh, hs⟩
  have hmem := mem_of_find?_eq_some hh
  have hticket : h.ticket = o.ticket := by simpa using find?_some hh
  by_cases hany : (s.handles.any fun k => k.ticket ≠ o.ticket && k.file = h.file && k.locked) = true
  · rw [if_pos hany] at hs
    cases hs
  rw [if_neg hany] at hs
  refine ⟨h, hmem, hticket, ?_, (Option.some.inj hs).symm⟩
  intro k hk hne hfile
  by_contra hlocked
  refine hany (any_eq_true.mpr ⟨k, hk, ?_⟩)
  simpa [hne, hfile] using hlocked

theorem guarantee_locks (hs : s.locks o = some s') : Guarantee o s s' := by
  rcases locks_eq hs with ⟨_, _, _, _, rfl⟩
  refine ⟨⟨fun _ ht => ht, Nat.le_refl _⟩, ?_⟩
  intro _ t ht
  refine undisturbed_of_handles ?_ (fun _ hf => ⟨hf, rfl⟩) rfl
  rintro h hh rfl
  exact mem_map.mpr ⟨h, hh, if_neg ht⟩

theorem SiteInv.locked (hinv : SiteInv s) (hs : s.locks o = some s') : SiteInv s' := by
  rcases locks_eq hs with ⟨h, hh, hticket, hfree, rfl⟩
  -- a handle of the operation is the one that it has opened
  have hold : ∀ k ∈ s.handles.map (fun k => if k.ticket = o.ticket then { k with locked := true } else k),
      k = { h with locked := true } ∨ k ∈ s.handles ∧ k.ticket ≠ o.ticket := by
    intro k hk
    rcases mem_map.mp hk with ⟨l, hl, rfl⟩
    by_cases hlticket : l.ticket = o.ticket
    · rw [if_pos hlticket, hinv.keyed l hl h hh (hlticket.trans hticket.symm)]
      exact .inl rfl
    · rw [if_neg hlticket]
      exact .inr ⟨hl, hlticket⟩
  have hordered := hinv.own { h with locked := true } hticket (fun _ => hfree) hold
  exact ⟨hinv.kept, hinv.fence_le, hinv.clean, hordered.1, hordered.2⟩

theorem spec_flock (hstable : (siteEnv o).Stable A)
    (hB : ∀ s handles, A s → handles = s.handles.map (fun k =>
      if k.ticket = o.ticket then { k with locked := true } else k) → B { s with handles := handles }) :
    (siteEnv o).Spec A (Prog.ask ⟨o, .flock⟩) (Replies B fun _ => True) := by
  refine spec_call nofun hstable ?_ fun _ _ _ => trivial
  intro s s' hinv h _ hs
  refine ⟨guarantee_locks hs, hinv.locked hs, ?_, fun _ => trivial⟩
  rcases locks_eq hs with ⟨_, _, _, _, rfl⟩
  exact hB s _ h rfl

theorem Opened.locked (h : Opened o.ticket s)
    (heq : handles = s.handles.map fun k =>
      if k.ticket = o.ticket then { k with locked := true } else k) :
    Holds o.ticket { s with handles := handles } := by
  subst heq
  rcases h with ⟨h, hh, hticket, hfile⟩
  exact ⟨{ h with locked := true }, mem_map.mpr ⟨h, hh, if_pos hticket⟩, hticket, hfile, rfl⟩

/-! ### The workspace -/

theorem Owns.change (h : Owns o P s) (hw : s.workspace = some w) (hlock : v.lockFile = w.lockFile)
    (hP : P' (some v)) :
    Owns o P' { s with workspace := some v, machines := machines, created := created } := by
  refine ⟨?_, hP⟩
  intro htask
  rcases h.1 htask with ⟨k, hk, hticket, hfile, hlocked⟩
  refine ⟨k, hk, hticket, ?_, hlocked⟩
  simpa [Site.lockFile, hw, hlock] using hfile

theorem guarantee_change (hinv : SiteInv s) (h : Owns o P s) (hw : s.workspace = some w)
    {trespassed : Bool} (hlock : v.lockFile = w.lockFile) :
    Guarantee o s { s with
      workspace := some v, machines := machines, created := created, trespassed := trespassed } := by
  refine guarantee_of_turn hinv h.1 rfl ?_ ⟨fun _ ht => ht, Nat.le_refl _⟩
  simp [Site.lockFile, hw, hlock]

theorem spec_write {file : WorkspaceFile}
    (hP : ∀ w, P (some w) → P' (some { w with files := file :: w.files })) :
    (siteEnv o).Spec (Owns o P) (Prog.ask ⟨o, .write file⟩) (Replies (Owns o P') fun _ => True) := by
  refine spec_call nofun stable_owns ?_ fun _ _ _ => trivial
  intro s s' hinv h _ hs
  rcases Option.map_eq_some_iff.mp hs with ⟨w, hw, rfl⟩
  refine ⟨guarantee_change hinv h hw rfl, { hinv with kept := ?_ }, ?_, fun _ => trivial⟩
  · intro m hm
    exact ⟨_, rfl, (hinv.kept_in hw hm).imp_right (mem_cons_of_mem _)⟩
  · exact h.change hw rfl (hP w (hw ▸ h.2))

theorem guarantee_removeAll (hunattended : s.unattended o = true) (hcrashed : s'.crashed = s.crashed)
    (hcontext : s'.contextFence = s.contextFence) : Guarantee o s s' := by
  refine ⟨⟨fun t ht => hcrashed ▸ ht, hcontext.ge⟩, ?_⟩
  intro _ t ht
  refine undisturbed_of_closed ?_
  rintro ⟨h, hh, rfl, hfile⟩
  have hall := all_eq_true.mp hunattended h hh
  simp [ht, hfile] at hall

theorem SiteInv.machines_eq_nil (hinv : SiteInv s) (hvacant : Vacant s.workspace) :
    s.machines = [] := by
  rw [eq_nil_iff_forall_not_mem]
  intro m hm
  rcases hinv.kept m hm with ⟨w, hw, hm', _⟩
  rw [hvacant w hw] at hm'
  cases hm'

theorem vacant_iff : Vacant s.workspace ↔ s.resources = [] := by
  unfold Vacant Site.resources
  cases s.workspace with
  | none | some w => simp

theorem spec_removeAll (hC : ∀ s, Owns o Vacant s → C s) (hC' : ∀ s trespassed, Owns o Vacant s →
      C { s with workspace := none, trespassed := trespassed }) :
    (siteEnv o).Spec (Owns o Vacant) (Prog.ask ⟨o, .removeAll⟩) (Replies C C) := by
  refine spec_call nofun stable_owns ?_ fun s h _ => hC s h
  intro s s' hinv h hunattended hs
  cases hs
  have hresources : s.resources = [] := vacant_iff.mp h.2
  have hmachines : s.machines = [] := hinv.machines_eq_nil h.2
  refine ⟨guarantee_removeAll (hunattended rfl) rfl rfl, ?_, hC' s _ h, fun _ => hC' s _ h⟩
  refine { hinv with kept := ?_, clean := ?_ }
  · intro m hm
    change m ∈ s.machines at hm
    rw [hmachines] at hm
    cases hm
  · simp [Site.note, hinv.clean, hresources]

/-! ### Terraform -/

theorem applied_eq : ∃ machines created resources,
    s.applied w = { s with
      machines := machines, created := created, workspace := some { w with resources := resources } } ∧
    (s.workspace = some w → (∀ m ∈ s.machines, m ∈ w.resources) → ∀ m ∈ machines, m ∈ resources) := by
  unfold Site.applied
  cases hkept : w.resources.filter (· ∈ s.machines) with
  | nil =>
    refine ⟨_, _, _, rfl, ?_⟩
    intro _ hall m hm
    rcases mem_cons.mp hm with rfl | hm
    · exact mem_singleton_self _
    have hmem : m ∈ w.resources.filter (· ∈ s.machines) :=
      mem_filter.mpr ⟨hall m hm, by simpa using hm⟩
    rw [hkept] at hmem
    cases hmem
  | cons k ks =>
    refine ⟨s.machines, s.created, k :: ks, rfl, ?_⟩
    intro _ hall m hm
    rw [← hkept]
    exact mem_filter.mpr ⟨hall m hm, by simpa using hm⟩

theorem spec_apply :
    (siteEnv o).Spec (Registered o Identified) (Prog.ask ⟨o, .apply⟩)
      (Replies (Registered o Identified) (Registered o Identified)) := by
  refine spec_call nofun stable_registered ?_ fun _ h _ => h
  intro s s' hinv h _ hs
  rcases Option.bind_eq_some_iff.mp hs with ⟨w, hw, hs⟩
  by_cases hmain : .main ∈ w.files
  · rw [if_pos hmain] at hs
    cases hs
    rcases h.1.2 with ⟨w', hw', hid⟩
    rw [hw] at hw'
    cases hw'
    have hall : ∀ m ∈ s.machines, m ∈ w.resources := fun m hm => (hinv.kept_in hw hm).1
    rcases applied_eq with ⟨machines, created, resources, heq, hmem⟩
    rw [heq]
    have hregistered : Registered o Identified { s with
        machines := machines, created := created,
        workspace := some { w with resources := resources } } :=
      ⟨h.1.change hw rfl ⟨_, rfl, hid⟩, h.2⟩
    refine ⟨guarantee_change hinv h.1 hw rfl, { hinv with kept := ?_ }, hregistered,
      fun _ => hregistered⟩
    intro m hm
    exact ⟨_, rfl, hmem hw hall m hm, hid⟩
  · rw [if_neg hmain] at hs
    cases hs

theorem Harmless.note (h : Harmless o s) (hclean : s.trespassed = false) (hit : Bool) :
    s.note o hit = s := by
  have hnot : (hit && decide (o.fence < s.claim) && s.recordedRunning) = false := by
    rw [Bool.eq_false_iff]
    intro htrue
    simp only [Bool.and_eq_true, decide_eq_true_eq, Site.recordedRunning] at htrue
    rcases htrue with ⟨⟨_, hlt⟩, hcontext⟩
    by_cases htask : o.task = .provision
    · have hfence := h.1 htask
      simp only [Site.contextFence, hcontext, Option.map_some, Option.getD_some] at hfence
      omega
    · have hle : s.claim ≤ o.fence := h.2 htask _ hcontext rfl
      omega
  unfold Site.note
  rw [hnot, hclean, Bool.or_false, ← hclean]

theorem spec_destroy :
    (siteEnv o).Spec (Registered o P) (Prog.ask ⟨o, .destroy⟩)
      (Replies (Registered o Vacant) (Registered o fun _ => True)) := by
  refine spec_call nofun stable_registered ?_ fun _ h _ => ⟨⟨h.1.1, trivial⟩, h.2⟩
  intro s s' hinv h _ hs
  rcases Option.map_eq_some_iff.mp hs with ⟨w, hw, rfl⟩
  rw [h.2.note hinv.clean]
  have howns : Owns o Vacant (s.destroyed w) := by
    refine h.1.change hw rfl ?_
    rintro v hv
    cases hv
    rfl
  refine ⟨guarantee_change hinv h.1 hw rfl, { hinv with kept := ?_ }, ⟨howns, h.2⟩,
    fun _ => ⟨⟨howns.1, trivial⟩, h.2⟩⟩
  intro m hm
  rcases mem_filter.mp hm with ⟨hm, hnot⟩
  simp [(hinv.kept_in hw hm).1] at hnot

theorem spec_ensureAbsent :
    (siteEnv o).Spec (Registered o Vacant) (Prog.ask ⟨o, .ensureAbsent⟩)
      (Replies (Registered o Vacant) (Registered o fun _ => True)) := by
  refine spec_call nofun stable_registered ?_ fun _ h _ => ⟨⟨h.1.1, trivial⟩, h.2⟩
  intro s s' hinv h _ hs
  have hmachines : s.machines = [] := hinv.machines_eq_nil h.1.2
  have hsame : s' = s := by
    simp only [Site.perform, hmachines, length_nil, Nat.zero_le, if_true,
      h.2.note hinv.clean] at hs
    split at hs
    · exact (Option.some.inj hs).symm
    · rw [← hmachines] at hs
      exact (Option.some.inj hs).symm
  subst hsame
  exact ⟨.refl, hinv, h, fun _ => ⟨⟨h.1.1, trivial⟩, h.2⟩⟩

/-! ### The phase context -/

theorem perform_save (hs : s.perform o (.save fence state) = some s') :
    fence = s.claim ∧ s' = { s with context := some ⟨s.claim, state⟩ } := by
  by_cases hfence : fence = s.claim
  · simp only [Site.perform, hfence, if_true] at hs
    exact ⟨hfence, (Option.some.inj hs).symm⟩
  · simp [Site.perform, hfence] at hs

theorem SiteInv.save (hinv : SiteInv s) (state : InstanceState) :
    SiteInv { s with context := some ⟨s.claim, state⟩ } :=
  { hinv with fence_le := Nat.le_refl _ }

theorem guarantee_save (hinv : SiteInv s) (hturn : Turn o s) :
    Guarantee o s { s with context := some ⟨s.claim, state⟩ } :=
  guarantee_of_turn hinv hturn rfl rfl ⟨fun _ ht => ht, hinv.fence_le⟩

theorem spec_register (htask : o.task = .provision) :
    (siteEnv o).Spec (Owns o P) (Prog.ask ⟨o, .save o.fence .provisioning⟩)
      (Replies (Registered o P) (Owns o Vacant)) := by
  refine spec_call nofun stable_owns ?_ ?_
  · intro s s' hinv h _ hs
    rcases perform_save hs with ⟨hfence, rfl⟩
    refine ⟨guarantee_save hinv h.1, hinv.save _, ⟨h, ?_, ?_⟩, ?_⟩
    · exact fun _ => hfence.symm
    · exact fun hne => absurd htask hne
    · exact fun hrefusable => ⟨h.1, vacant_iff.mpr (hrefusable _ rfl)⟩
  · exact fun s h hrefusable => ⟨h.1, vacant_iff.mpr (hrefusable _ rfl)⟩

/-- A later call of the callback: of the operation itself, or not to say that the machine is running. -/
theorem spec_save (hfence : o.task = .provision → fence = o.fence)
    (hstate : o.task ≠ .provision → state ≠ .running) :
    (siteEnv o).Spec (Registered o P) (Prog.ask ⟨o, .save fence state⟩)
      (Replies (Registered o P) (Registered o P)) := by
  refine spec_call nofun stable_registered ?_ fun _ h _ => h
  intro s s' hinv h _ hs
  rcases perform_save hs with ⟨hclaim, rfl⟩
  have hregistered : Registered o P { s with context := some ⟨s.claim, state⟩ } := by
    refine ⟨h.1, ?_, ?_⟩
    · exact fun htask => hclaim.symm.trans (hfence htask)
    · intro htask i hi hrunning
      cases hi
      exact absurd hrunning (hstate htask)
  exact ⟨guarantee_save hinv h.1.1, hinv.save _, hregistered, fun _ => hregistered⟩

/-- The last step of `executeProvisionPhase` is made without the lock, but the context is already one
of this claim. -/
theorem spec_confirm :
    (siteEnv o).Spec (Confirmed o) (Prog.ask ⟨o, .save o.fence state⟩)
      (Replies (fun _ => True) fun _ => True) := by
  refine spec_call nofun stable_confirmed ?_ fun _ _ _ => trivial
  intro s s' hinv h _ hs
  rcases perform_save hs with ⟨hclaim, rfl⟩
  have hfence : s.claim = s.contextFence := Nat.le_antisymm (hclaim ▸ h) hinv.fence_le
  exact ⟨guarantee_of_same rfl rfl hfence fun _ ht => ht, hinv.save _, trivial, fun _ => trivial⟩

end Effects

end PortageEngine.Machines
