import PortageEngine.Ledger.WorkHeld
import PortageEngine.Capacity.Ceiling
import PortageEngine.Capacity.Crew

/-!
# Draining an instance

A scale-down marks the slots of an instance as draining, waits until none of them holds work, and
then lets the provider delete the instance.  The scheduler gives no work to a draining slot, but a
registration makes a slot active whose row is not there, whatever has become of its instance; and a
claim that skips the registration decides by a row it read before.

The system here is the capacity layer and the ledger over the same worker rows.  `reported` is what
each slot itself says: the labels of its last registration, whether or not its row is still there.
-/

namespace PortageEngine.Capacity

open List Library Library.Rows Library.Runs
open Library.Decimal (trimSpace)
open Ledger

/-! ## The system -/

structure DrainSystem where
  capacity : System
  scheduler : FairSystem
  reads : List WorkerRow
  reported : Worker → List Label

def DrainSystem.init (policies : List Ledger.Policy) (tables : FairTables) : DrainSystem where
  capacity := .init
  scheduler := { system := .init policies, tables := tables }
  reads := []
  reported := fun _ => []

def DrainSystem.fleet (s : DrainSystem) : Fleet :=
  s.capacity.fleet

def DrainSystem.ledger (s : DrainSystem) : Ledger :=
  s.scheduler.system.ledger

/-- One transaction.  `ClaimNext` registers its worker, or relies on a registration in the last
seconds and reads the row first; `ClaimPhaseWork` always registers. -/
inductive DrainOp
  | capacity (op : Op)
  | ledger (op : Ledger.Op)
  | readWorker (name : Worker)
  | poll (p : Poll) (labels : List Label) (protocol : Nat) (now : Time)
  | pollCached (p : Poll) (row : WorkerRow)
  | pollPhase (p : PhasePoll) (labels : List Label) (protocol : Nat) (now : Time)

/-- A capacity call sees the leases and phase claims of the ledger. -/
def Op.observing (l : Ledger) : Op → Op
  | .prune before _ locked => .prune before (fun w => l.leases.any (·.owner = w)) locked
  | .beginDelete c ref now _ => .beginDelete c ref now (holdsWork l now)
  | op => op

variable {c : Op} {s : DrainSystem}

theorem observing_eq_register {l : Ledger} {name : Worker} {role : Role}
    {labels : List Label} {protocol : Nat} {now : Time}
    (h : c.observing l = .register name role labels protocol now) :
    c = .register name role labels protocol now := by
  cases c <;> first | exact h | cases h

theorem observing_eq_prune {l : Ledger} {before : Time} {leased locked : Worker → Bool}
    (h : c.observing l = .prune before leased locked) :
    (∃ unseen, c = .prune before unseen locked) ∧ leased = fun w => l.leases.any (·.owner = w) := by
  cases c with
  | prune before' unseen locked' =>
    cases h
    exact ⟨⟨unseen, rfl⟩, rfl⟩
  | _ => cases h

/-- A slot registers, in the rows and by its own account. -/
def DrainSystem.register (s : DrainSystem) (name : Worker) (role : Role) (labels : List Label)
    (protocol : Nat) (now : Time) : DrainSystem :=
  { s with
    capacity := { s.capacity with
      fleet := registerWorker s.fleet name role labels protocol now }
    reported := Function.update s.reported name labels }

/-- `RenewPhaseWork` is a heartbeat of the executor as well, and needs its row. -/
def DrainSystem.renewPhase (s : DrainSystem) (c : Ledger.PhaseClaim) (lease now : Time) :
    DrainSystem :=
  let own := fun w : WorkerRow => w.name = c.claimOwner && w.role = .phaseExecutor
  if s.fleet.workers.any own then
    { s with
      capacity := { s.capacity with
        fleet := { s.fleet with
          workers := update own (fun w => { w with lastSeenAt := now }) s.fleet.workers } }
      scheduler := { s.scheduler with
        system := Ledger.step s.scheduler.system (.renewPhase c lease now) } }
  else s

def stepDrain (s : DrainSystem) : DrainOp → DrainSystem
  | .capacity (.register name role labels protocol now) => s.register name role labels protocol now
  | .capacity op => { s with capacity := step s.capacity (op.observing s.ledger) }
  | .ledger (.renewPhase c lease now) => s.renewPhase c lease now
  | .ledger op =>
    if op.claims then s
    else { s with scheduler := { s.scheduler with system := Ledger.step s.scheduler.system op } }
  | .readWorker name => { s with reads := (s.fleet.worker? name).toList ++ s.reads }
  | .poll p labels protocol now =>
    let s' := s.register p.claim.worker .admission labels protocol now
    match s'.fleet.worker? p.claim.worker with
    | none => s
    | some row =>
      match Ledger.poll s.scheduler.tables s.ledger { p with executor := row.toExecutor } with
      | .error _ => s
      | .ok r => { s' with
          scheduler := {
            system := { s.scheduler.system with ledger := r.ledger }, tables := r.tables } }
  | .pollCached p row =>
    -- the lease refers to the worker's row
    if s.reads.contains row && row.name = p.claim.worker &&
        s.fleet.workers.any (·.name = row.name) then
      match Ledger.poll s.scheduler.tables s.ledger { p with executor := row.toExecutor } with
      | .error _ => s
      | .ok r => { s with
          scheduler := {
            system := { s.scheduler.system with ledger := r.ledger }, tables := r.tables } }
    else s
  | .pollPhase p labels protocol now =>
    let s' := s.register (trimSpace p.call.owner) .phaseExecutor labels protocol now
    match s'.fleet.worker? (trimSpace p.call.owner) with
    | none => s
    | some row =>
      match Ledger.pollPhase s.scheduler.tables s.ledger
          { p with executor := row.toExecutor } with
      | .error _ => s
      | .ok r => { s' with
          scheduler := {
            system := {
              ledger := r.ledger, issued := r.claim.toList ++ s.scheduler.system.issued }
            tables := r.tables } }

/-! ## What is claimed of it -/

/-- The slot says that it runs on the instance. -/
def DrainSystem.runsOn (s : DrainSystem) (i : InstanceId) (name : Worker) : Bool :=
  (s.reported name).contains (capacityInstanceLabel i)

/-- No slot of the instance holds a lease or a phase claim beyond `t`. -/
def Idle (s : DrainSystem) (i : InstanceId) (t : Time) : Prop :=
  ∀ name, s.runsOn i name = true → holdsWork s.ledger t name = false

/-- A slot that registers for the instance while it is leaving has a draining row that says so. -/
def DrainSystem.mayRegister (s : DrainSystem) (i : InstanceId) (name : Worker)
    (labels : List Label) : Bool :=
  !(s.fleet.leaving i && labels.contains (capacityInstanceLabel i)) ||
    s.fleet.workers.any fun w =>
      w.name = name && w.labels.contains (capacityInstanceLabel i) && !w.active

/-- The condition on the transactions: registrations as above, no slot of the instance is pruned
that has a phase in hand, and no claim of such a slot relies on a row that has changed since. -/
def kept (i : InstanceId) (s : DrainSystem) : DrainOp → Bool
  | .capacity (.register name _ labels _ _) => s.mayRegister i name labels
  | .capacity (.prune before _ locked) => s.fleet.workers.all fun w =>
    !(w.labels.contains (capacityInstanceLabel i) && w.lastSeenAt < before && !locked w.name) ||
      !(s.ledger.items.any fun k => k.state = .claimed && k.claimOwner = w.name)
  | .poll p labels _ _ => s.mayRegister i p.claim.worker labels
  | .pollCached _ row =>
    !(s.fleet.leaving i && s.runsOn i row.name) || s.fleet.workers.contains row
  | .pollPhase p labels _ _ => s.mayRegister i (trimSpace p.call.owner) labels
  | _ => true

def DrainOp.renewsAt : DrainOp → Option Time
  | .ledger op => op.renewsAt
  | _ => none

/-! ## Steps -/

/-- Everything a transaction can do to slots and to the work they hold. -/
inductive DrainStep (s : DrainSystem) (op : DrainOp) (s' : DrainSystem) : Prop
  | quiet (hcapacity : s'.capacity = s.capacity) (hledger : s'.ledger = s.ledger)
      (hreported : s'.reported = s.reported)
  | call (c : Op) (hop : op = .capacity c)
      (hcrew : ∀ name role labels protocol now, c ≠ .register name role labels protocol now)
      (hcapacity : s'.capacity = step s.capacity (c.observing s.ledger))
      (hledger : s'.ledger = s.ledger) (hreported : s'.reported = s.reported)
  | register (name : Worker) (role : Role) (labels : List Label) (protocol : Nat) (now : Time)
      (hmay : ∀ i, kept i s op = true → s.mayRegister i name labels = true)
      (hcapacity : s'.capacity = (s.register name role labels protocol now).capacity)
      (hreported : s'.reported = Function.update s.reported name labels) (taker : Option Worker)
      (htaker : ∀ w, taker = some w → w = name ∧
        ∃ row ∈ s'.fleet.workers, row.name = name ∧ row.active = true)
      (hhold : HoldStep none taker s.ledger s'.ledger)
  | cached (p : Poll) (row : WorkerRow) (hop : op = .pollCached p row)
      (hrow : ∃ w ∈ s.fleet.workers, w.name = row.name) (hcapacity : s'.capacity = s.capacity)
      (hreported : s'.reported = s.reported)
      (hhold : HoldStep none (if row.active then some row.name else none) s.ledger s'.ledger)
  | work (p : WorkerRow → Bool) (g : WorkerRow → WorkerRow)
      (hg : ∀ w, (g w).name = w.name ∧ (g w).labels = w.labels ∧ (g w).active = w.active)
      (hcapacity : s'.capacity = { s.capacity with
        fleet := { s.fleet with workers := update p g s.fleet.workers } })
      (hreported : s'.reported = s.reported)
      (hhold : HoldStep op.renewsAt none s.ledger s'.ledger)

theorem update_no_workers :
    s.capacity = { s.capacity with
      fleet := { s.fleet with workers := update (fun _ => false) id s.fleet.workers } } := by
  rw [update_eq_self fun _ _ => rfl]
  rfl

theorem stepDrain_call
    (hcrew : ∀ name role labels protocol now, c ≠ .register name role labels protocol now) :
    stepDrain s (.capacity c) = { s with capacity := step s.capacity (c.observing s.ledger) } := by
  cases c <;> first | rfl | exact absurd rfl (hcrew _ _ _ _ _)

theorem stepDrain_ledger {op : Ledger.Op}
    (hrenew : ∀ c lease now, op ≠ .renewPhase c lease now) :
    stepDrain s (.ledger op) = if op.claims then s else
      { s with scheduler := { s.scheduler with system := Ledger.step s.scheduler.system op } } := by
  cases op <;> first | rfl | exact absurd rfl (hrenew _ _ _)

theorem drainStep (s : DrainSystem) (op : DrainOp) : DrainStep s op (stepDrain s op) := by
  cases op with
  | capacity c =>
    by_cases hregister : ∃ name role labels protocol now,
        c = .register name role labels protocol now
    · rcases hregister with ⟨name, role, labels, protocol, now, rfl⟩
      refine .register name role labels protocol now (fun _ h => h) rfl rfl none ?_
        (Ledger.holdStep_refl)
      nofun
    · have hcrew : ∀ name role labels protocol now,
          c ≠ .register name role labels protocol now :=
        fun _ _ _ _ _ heq => hregister ⟨_, _, _, _, _, heq⟩
      rw [stepDrain_call hcrew]
      exact .call c rfl hcrew rfl rfl rfl
  | ledger op =>
    by_cases hrenew : ∃ c lease now, op = .renewPhase c lease now
    · rcases hrenew with ⟨c, lease, now, rfl⟩
      simp only [stepDrain, DrainSystem.renewPhase]
      split
      · exact .work _ (fun w => { w with lastSeenAt := now }) (fun _ => ⟨rfl, rfl, rfl⟩) rfl rfl
          (Ledger.holdStep_step s.scheduler.system _)
      · exact .quiet rfl rfl rfl
    · rw [stepDrain_ledger fun _ _ _ heq => hrenew ⟨_, _, _, heq⟩]
      by_cases hclaims : op.claims = true
      · rw [if_pos hclaims]
        exact .quiet rfl rfl rfl
      rw [if_neg hclaims]
      refine .work (fun _ => false) id (fun _ => ⟨rfl, rfl, rfl⟩) (update_no_workers) rfl ?_
      have hhold := Ledger.holdStep_step s.scheduler.system op
      rw [Ledger.taker_of_not_claims (by simpa using hclaims)] at hhold
      exact hhold
  | readWorker name => exact .quiet rfl rfl rfl
  | poll p labels protocol now =>
    simp only [stepDrain]
    split
    · exact .quiet rfl rfl rfl
    rename_i row hrow
    split
    · exact .quiet rfl rfl rfl
    rename_i r hpoll
    exact .register p.claim.worker .admission labels protocol now (fun _ h => h) rfl rfl _
      (taker_of_worker? hrow) (Ledger.holdStep_poll hpoll)
  | pollCached p row =>
    simp only [stepDrain]
    split
    · rename_i hguard
      simp only [Bool.and_eq_true, decide_eq_true_eq, any_eq_true] at hguard
      rcases hguard with ⟨⟨_, hname⟩, w, hw, hwname⟩
      split
      · exact .quiet rfl rfl rfl
      rename_i r hpoll
      have hhold := Ledger.holdStep_poll hpoll
      rw [← hname] at hhold
      exact .cached p row rfl ⟨w, hw, hwname⟩ rfl rfl hhold
    · exact .quiet rfl rfl rfl
  | pollPhase p labels protocol now =>
    simp only [stepDrain]
    split
    · exact .quiet rfl rfl rfl
    rename_i row hrow
    split
    · exact .quiet rfl rfl rfl
    rename_i r hpoll
    exact .register (trimSpace p.call.owner) .phaseExecutor labels protocol now (fun _ h => h)
      rfl rfl _ (taker_of_worker? hrow) (Ledger.holdStep_pollPhase hpoll)

/-! ## The invariant -/

/-- The rows say what the slots report, a slot of the instance without a row holds no work, and once
the instance is leaving its slots are draining. -/
structure Tracked (i : InstanceId) (s : DrainSystem) : Prop where
  inv : Inv s.capacity
  keys : Keyed WorkerRow.name s.fleet.workers
  labels : ∀ w ∈ s.fleet.workers, w.labels = s.reported w.name
  absent : ∀ name, s.runsOn i name = true → (∀ w ∈ s.fleet.workers, w.name ≠ name) →
    ∀ t, ¬ HoldsUntil s.ledger name t
  draining : s.fleet.leaving i = true → ∀ w ∈ s.fleet.workers,
    w.labels.contains (capacityInstanceLabel i) = true → w.active = false

section Tracked

variable {i : InstanceId} {s s' : DrainSystem} {op : DrainOp}

theorem tracked_init {policies : List Ledger.Policy} {tables : FairTables} :
    Tracked i (.init policies tables) where
  inv := inv_init
  keys := nodup_nil
  labels := nofun
  absent := nofun
  draining := nofun

theorem Inv.of_rows {s s' : System} (h : Inv s) (hactions : s'.fleet.actions = s.fleet.actions)
    (hinstances : s'.fleet.instances = s.fleet.instances) (hissued : s'.issued = s.issued) :
    Inv s' := by
  constructor
  · exact h.owned.rewriteActions (p := fun _ => false) (g := id) nofun
      (hactions.trans (update_never)) hinstances
  · rw [hissued]
    exact fun c hc => (h.held c hc).of_actions_eq hactions

theorem Tracked.row_of_holds (h : Tracked i s) {name : Worker} (hruns : s.runsOn i name = true)
    {t : Time} (hhold : HoldsUntil s.ledger name t) : ∃ w ∈ s.fleet.workers, w.name = name := by
  by_contra hnone
  refine h.absent name hruns ?_ t hhold
  intro w hw hname
  exact hnone ⟨w, hw, hname⟩

theorem Tracked.draining_row (h : Tracked i s) (hleaving : s.fleet.leaving i = true)
    {w : WorkerRow} (hw : w ∈ s.fleet.workers) (hruns : s.runsOn i w.name = true) :
    w.active = false := by
  refine h.draining hleaving w hw ?_
  rw [h.labels w hw]
  exact hruns

variable {p : WorkerRow → Bool} {g : WorkerRow → WorkerRow} {renewsAt : Option Time}
  {taker : Option Worker}

/-- A step that keeps the rows' names and labels, makes no row active, drains the rows of an instance
that starts to leave, and hands nothing to a slot without a row. -/
theorem Tracked.rows (h : Tracked i s) (hinv : Inv s'.capacity)
    (hg : ∀ w, (g w).name = w.name ∧ (g w).labels = w.labels ∧
      ((g w).active = true → w.active = true))
    (hworkers : s'.fleet.workers = update p g s.fleet.workers)
    (hleaving : s'.fleet.leaving i = true → s.fleet.leaving i = true ∨
      ∀ w ∈ s'.fleet.workers, w.labels.contains (capacityInstanceLabel i) = true → w.active = false)
    (hreported : s'.reported = s.reported)
    (htaker : ∀ w, taker = some w → ∃ row ∈ s.fleet.workers, row.name = w)
    (hhold : HoldStep renewsAt taker s.ledger s'.ledger) : Tracked i s' := by
  have hback : ∀ w' ∈ s'.fleet.workers, ∃ w ∈ s.fleet.workers, w'.name = w.name ∧
      w'.labels = w.labels ∧ (w'.active = true → w.active = true) := by
    rw [hworkers]
    intro w' hw'
    rcases mem_update_cases hw' with ⟨w, hw, _, rfl⟩ | ⟨hw', _⟩
    · exact ⟨w, hw, hg w⟩
    · exact ⟨w', hw', rfl, rfl, id⟩
  refine ⟨hinv, by rw [hworkers]; exact h.keys.update fun w => (hg w).1, ?_, ?_, ?_⟩
  · intro w' hw'
    rcases hback w' hw' with ⟨w, hw, hname, hlabels, _⟩
    rw [hreported, hname, hlabels]
    exact h.labels w hw
  · intro name hon hnone t hholds
    have hbefore : s.runsOn i name = true := by
      unfold DrainSystem.runsOn at hon ⊢
      rwa [hreported] at hon
    have hgone : ∀ w ∈ s.fleet.workers, w.name ≠ name := by
      intro w hw hname
      refine hnone _ (by rw [hworkers]; exact mem_update.mpr ⟨w, hw, rfl⟩) ?_
      split
      · rw [(hg w).1]
        exact hname
      · exact hname
    rcases hhold name t hholds with hholds | ⟨_, t₀, _, hholds, _⟩ | htaken
    · exact h.absent name hbefore hgone t hholds
    · exact h.absent name hbefore hgone t₀ hholds
    · rcases htaker name htaken with ⟨row, hrow, hname⟩
      exact hgone row hrow hname
  · intro hl w' hw' hon
    rcases hleaving hl with hbefore | hdrained
    · rcases hback w' hw' with ⟨w, hw, _, hlabels, hactive⟩
      have hdraining := h.draining hbefore w hw (hlabels ▸ hon)
      by_contra hw'active
      rw [hactive (by simpa using hw'active)] at hdraining
      cases hdraining
    · exact hdrained w' hw' hon

theorem Tracked.call (h : Tracked i s) {c : Op}
    (hcrew : ∀ name role labels protocol now, c ≠ .register name role labels protocol now)
    (hkept : kept i s (.capacity c) = true)
    (hcapacity : s'.capacity = step s.capacity (c.observing s.ledger))
    (hledger : s'.ledger = s.ledger) (hreported : s'.reported = s.reported) : Tracked i s' := by
  have hfleet : s'.fleet = (step s.capacity (c.observing s.ledger)).fleet :=
    congrArg System.fleet hcapacity
  have hinv : Inv s'.capacity := hcapacity ▸ h.inv.step _
  rcases step_effect s.capacity (c.observing s.ledger) h.inv.owned.actionKeys with
    ⟨⟨heffect, _, _⟩, hcases⟩
  rw [← hfleet] at hcases heffect
  cases hcases with
  | register name role labels protocol now hop =>
    exact absurd (observing_eq_register hop) (hcrew _ _ _ _ _)
  | update p g hg hworkers =>
    have hhold : HoldStep none none s.ledger s'.ledger := by
      rw [hledger]
      exact Ledger.holdStep_refl
    exact h.rows hinv hg hworkers (leaving_starts heffect) hreported (by intro _ hw; cases hw) hhold
  | prune before leased locked hop hpruned =>
    rcases observing_eq_prune hop with ⟨⟨unseen, rfl⟩, rfl⟩
    have hworkers : s'.fleet.workers = delete (fun w => w.lastSeenAt < before &&
        !(s.ledger.leases.any (·.owner = w.name)) && !locked w.name) s.fleet.workers := by
      rw [hpruned]
      rfl
    have hleaving : s'.fleet.leaving i = s.fleet.leaving i := by
      rw [hpruned]
      rfl
    refine ⟨hinv, by rw [hworkers]; exact h.keys.delete, ?_, ?_, ?_⟩
    · rw [hworkers, hreported]
      exact fun w hw => h.labels w (mem_delete.mp hw).1
    · rw [hledger]
      intro name hon hnone t hhold
      have hon : s.runsOn i name = true := by
        unfold DrainSystem.runsOn at hon ⊢
        rwa [hreported] at hon
      -- the slot's row has just been pruned: no lease names it, and it has no phase in hand
      rcases h.row_of_holds hon hhold with ⟨w, hw, hname⟩
      have hgone : ¬ w ∈ s'.fleet.workers := fun hmem => hnone w hmem hname
      rw [hworkers, mem_delete] at hgone
      have hselected : (decide (w.lastSeenAt < before) &&
          !(s.ledger.leases.any (·.owner = w.name)) && !locked w.name) = true := by
        by_contra hnot
        exact hgone ⟨hw, by simpa using hnot⟩
      simp only [Bool.and_eq_true, decide_eq_true_eq, Bool.not_eq_true'] at hselected
      have hlabel : w.labels.contains (capacityInstanceLabel i) = true := by
        rw [h.labels w hw, hname]
        exact hon
      have hidle := all_eq_true.mp hkept w hw
      simp only [hlabel, hselected.1.1, hselected.2, decide_true, Bool.true_and, Bool.not_false,
        Bool.not_true, Bool.false_or, Bool.not_eq_true', any_eq_false, Bool.and_eq_true,
        decide_eq_true_eq, not_and] at hidle
      rcases hhold with ⟨x, hx, howner, _⟩ | ⟨k, hk, hstate, howner, _⟩
      · have hleased := any_eq_false.mp hselected.1.2 x hx
        simp [howner, hname] at hleased
      · exact hidle k hk hstate (howner.trans hname.symm)
    · rw [hleaving, hworkers]
      exact fun hl w hw => h.draining hl w (mem_delete.mp hw).1

theorem Tracked.register (h : Tracked i s) {name : Worker} {role : Role} {labels : List Label}
    {protocol : Nat} {now : Time} (hmay : s.mayRegister i name labels = true)
    (hcapacity : s'.capacity = (s.register name role labels protocol now).capacity)
    (hreported : s'.reported = Function.update s.reported name labels)
    (htaker : ∀ w, taker = some w → w = name)
    (hhold : HoldStep none taker s.ledger s'.ledger) : Tracked i s' := by
  have hfleet : s'.fleet = registerWorker s.fleet name role labels protocol now :=
    congrArg System.fleet hcapacity
  have hrest := registerWorker_rest s.fleet name role labels protocol now
  refine ⟨?_, by rw [hfleet]; exact keyed_registerWorker h.keys, ?_, ?_, ?_⟩
  · rw [hcapacity]
    exact h.inv.of_rows hrest.1 hrest.2 rfl
  · rw [hfleet, hreported]
    intro w hw
    rcases mem_registerWorker hw with ⟨hname, hw⟩ | ⟨hname, hlabels, _⟩
    · rw [Function.update_of_ne hname]
      exact h.labels w hw
    · rw [hname, hlabels, Function.update_self]
  · intro other hon hnone t hholds
    have hother : other ≠ name := by
      rintro rfl
      rcases name_mem_registerWorker s.fleet other role labels protocol now with ⟨w, hw, hwname⟩
      exact hnone w (hfleet ▸ hw) hwname
    have hbefore : s.runsOn i other = true := by
      unfold DrainSystem.runsOn at hon ⊢
      rwa [hreported, Function.update_of_ne hother] at hon
    rcases hhold other t hholds with hholds | ⟨_, _, hnever, _⟩ | htaken
    · refine h.absent other hbefore ?_ t hholds
      intro w hw hwname
      rcases names_registerWorker name role labels protocol now hw with ⟨w', hw', hw'name⟩
      exact hnone w' (hfleet ▸ hw') (hw'name.trans hwname)
    · cases hnever
    · exact hother (htaker other htaken)
  · have hleaving : s'.fleet.leaving i = s.fleet.leaving i := by
      unfold Fleet.leaving
      rw [hfleet, hrest.2]
    rw [hleaving, hfleet]
    intro hl w hw hon
    rcases mem_registerWorker hw with ⟨_, hw⟩ | ⟨hname, hlabels, hactive⟩
    · exact h.draining hl w hw hon
    -- the registration found a draining row of the instance, and keeps its state
    rw [hlabels] at hon
    simp only [DrainSystem.mayRegister, hl, hon, Bool.and_self, Bool.not_true, Bool.false_or,
      any_eq_true, Bool.and_eq_true, decide_eq_true_eq, Bool.not_eq_true'] at hmay
    rcases hmay with ⟨row, hrow, ⟨hrowname, _⟩, hinactive⟩
    rw [hactive row hrow hrowname h.keys]
    exact hinactive

/-- A step that leaves the rows' names, labels and states alone, and hands nothing to a slot without
a row. -/
theorem Tracked.work (h : Tracked i s)
    (hg : ∀ w, (g w).name = w.name ∧ (g w).labels = w.labels ∧ (g w).active = w.active)
    (hcapacity : s'.capacity = { s.capacity with
      fleet := { s.fleet with workers := update p g s.fleet.workers } })
    (hreported : s'.reported = s.reported)
    (htaker : ∀ w, taker = some w → ∃ row ∈ s.fleet.workers, row.name = w)
    (hhold : HoldStep renewsAt taker s.ledger s'.ledger) : Tracked i s' := by
  have hfleet : s'.fleet = { s.fleet with workers := update p g s.fleet.workers } :=
    congrArg System.fleet hcapacity
  have hinv : Inv s'.capacity := by
    rw [hcapacity]
    exact h.inv.of_rows rfl rfl rfl
  have hleaving : s'.fleet.leaving i = s.fleet.leaving i := by
    rw [hfleet]
    rfl
  refine h.rows hinv (fun w => ⟨(hg w).1, (hg w).2.1, fun hw => (hg w).2.2 ▸ hw⟩) (by rw [hfleet])
    (fun hl => .inl (hleaving ▸ hl)) hreported htaker hhold

theorem Tracked.step (h : Tracked i s) (hkept : kept i s op = true) :
    Tracked i (stepDrain s op) := by
  cases drainStep s op with
  | quiet hcapacity hledger hreported =>
    have hhold : HoldStep none none s.ledger (stepDrain s op).ledger := by
      rw [hledger]
      exact Ledger.holdStep_refl
    refine h.work (fun _ => ⟨rfl, rfl, rfl⟩) (hcapacity.trans (update_no_workers)) hreported
      ?_ hhold
    nofun
  | call c hop hcrew hcapacity hledger hreported =>
    subst hop
    exact h.call hcrew hkept hcapacity hledger hreported
  | register name role labels protocol now hmay hcapacity hreported taker htaker hhold =>
    exact h.register (hmay i hkept) hcapacity hreported (fun w hw => (htaker w hw).1) hhold
  | cached p row _ hrow hcapacity hreported hhold =>
    refine h.work (fun _ => ⟨rfl, rfl, rfl⟩) (hcapacity.trans (update_no_workers)) hreported
      ?_ hhold
    intro w hw
    split at hw
    · rw [← Option.some.inj hw]
      exact hrow
    · cases hw
  | work p g hg hcapacity hreported hhold =>
    refine h.work hg hcapacity hreported ?_ hhold
    nofun

end Tracked

/-! ## Idle instances -/

/-- From some time on the instance is leaving and its slots hold nothing beyond that time. -/
structure Vacated (i : InstanceId) (now : Time) (s : DrainSystem) : Prop where
  tracked : Tracked i s
  leaving : s.fleet.leaving i = true
  idle : ∀ name, s.runsOn i name = true → ∀ t, HoldsUntil s.ledger name t → t ≤ now

section Vacated

variable {i : InstanceId} {s s' : DrainSystem} {op : DrainOp} {now : Time}

theorem leaving_stepDrain (h : Tracked i s) (hleaving : s.fleet.leaving i = true) (op : DrainOp) :
    (stepDrain s op).fleet.leaving i = true := by
  have hsame : (stepDrain s op).fleet.instances = s.fleet.instances →
      (stepDrain s op).fleet.leaving i = true := by
    intro hinstances
    unfold Fleet.leaving at hleaving ⊢
    rw [hinstances]
    exact hleaving
  cases drainStep s op with
  | quiet hcapacity | cached _ _ _ _ hcapacity =>
    exact hsame (by unfold DrainSystem.fleet; rw [hcapacity])
  | call c hop _ hcapacity =>
    have heffect := (step_effect _ (c.observing s.ledger) h.inv.owned.actionKeys).1.effect
    rw [← hcapacity] at heffect
    exact leaving_stays heffect hleaving
  | register name role labels protocol now _ hcapacity =>
    refine hsame ?_
    unfold DrainSystem.fleet
    rw [hcapacity]
    exact (registerWorker_rest _ _ _ _ _ _).2
  | work p g _ hcapacity =>
    refine hsame ?_
    unfold DrainSystem.fleet
    rw [hcapacity]
    rfl

theorem runsOn_of_step (h : Tracked i s) (hleaving : s.fleet.leaving i = true)
    (hkept : kept i s op = true) {name : Worker} (hon : (stepDrain s op).runsOn i name = true) :
    s.runsOn i name = true := by
  have hsame : (stepDrain s op).reported = s.reported → s.runsOn i name = true := by
    intro hreported
    unfold DrainSystem.runsOn at hon ⊢
    rwa [hreported] at hon
  cases drainStep s op with
  | quiet _ _ hreported | call _ _ _ _ _ hreported | cached _ _ _ _ _ hreported _
  | work _ _ _ _ hreported => exact hsame hreported
  | register slot role labels protocol at_ hmay _ hreported =>
    unfold DrainSystem.runsOn at hon ⊢
    rw [hreported] at hon
    by_cases hname : name = slot
    · subst hname
      rw [Function.update_self] at hon
      have hrow := hmay i hkept
      simp only [DrainSystem.mayRegister, hleaving, hon, Bool.and_self, Bool.not_true,
        Bool.false_or, any_eq_true, Bool.and_eq_true, decide_eq_true_eq] at hrow
      rcases hrow with ⟨w, hw, ⟨hwname, hlabel⟩, _⟩
      rw [h.labels w hw, hwname] at hlabel
      exact hlabel
    · rwa [Function.update_of_ne hname] at hon

theorem Vacated.step (h : Vacated i now s) (hkept : kept i s op = true)
    (hclock : ∀ t, op.renewsAt = some t → now ≤ t) : Vacated i now (stepDrain s op) := by
  have htracked := h.tracked.step hkept
  have hleaving := leaving_stepDrain h.tracked h.leaving op
  refine ⟨htracked, hleaving, ?_⟩
  intro name hon t hholds
  have hbefore := runsOn_of_step h.tracked h.leaving hkept hon
  cases drainStep s op with
  | quiet _ hledger | call _ _ _ _ hledger => exact h.idle name hbefore t (hledger ▸ hholds)
  | register slot role labels protocol at_ _ _ _ taker htaker hhold =>
    rcases hhold name t hholds with hholds | ⟨_, _, hnever, _⟩ | htaken
    · exact h.idle name hbefore t hholds
    · cases hnever
    · rcases htaker name htaken with ⟨rfl, row, hrow, hname, hactive⟩
      rw [htracked.draining_row hleaving hrow (hname ▸ hon)] at hactive
      cases hactive
  | cached p row hop _ _ _ hhold =>
    subst hop
    rcases hhold name t hholds with hholds | ⟨_, _, hnever, _⟩ | htaken
    · exact h.idle name hbefore t hholds
    · cases hnever
    split at htaken
    · rename_i hactive
      have hname : row.name = name := Option.some.inj htaken
      simp only [kept, h.leaving, hname, hbefore, Bool.and_self, Bool.not_true, Bool.false_or,
        contains_iff_mem] at hkept
      rw [h.tracked.draining_row h.leaving hkept (hname ▸ hbefore)] at hactive
      cases hactive
    · cases htaken
  | work _ _ _ _ _ hhold =>
    rcases hhold name t hholds with hholds | ⟨at_, t₀, hrenews, hholds, hlive⟩ | hnever
    · exact h.idle name hbefore t hholds
    · have hle := h.idle name hbefore t₀ hholds
      exact absurd (hlive.trans_le hle) (Nat.not_lt.mpr (hclock at_ hrenews))
    · cases hnever

/-- `BeginCapacityInstanceDelete` commits for a claim that was handed out. -/
def DrainSystem.begins (s : DrainSystem) (c : Claim) (ref : InstanceRef) (now : Time) : Bool :=
  s.capacity.issued.contains c &&
    (beginCapacityInstanceDelete s.fleet c ref now (holdsWork s.ledger now)).isOk

theorem Tracked.vacated {c : Claim} {ref : InstanceRef} {working : Worker → Bool}
    (h : Tracked ref.id s) (hbegins : s.begins c ref now = true) :
    Vacated ref.id now (stepDrain s (.capacity (.beginDelete c ref now working))) := by
  have htracked : Tracked ref.id (stepDrain s (.capacity (.beginDelete c ref now working))) :=
    h.step rfl
  simp only [DrainSystem.begins, Bool.and_eq_true, contains_iff_mem] at hbegins
  cases hrun : beginCapacityInstanceDelete s.fleet c ref now (holdsWork s.ledger now) with
  | error e =>
    rw [hrun] at hbegins
    cases hbegins.2
  | ok f =>
    have hstep : stepDrain s (.capacity (.beginDelete c ref now working)) =
        { s with capacity := { s.capacity with fleet := f } } := by
      have hcall : beginCapacityInstanceDelete s.capacity.fleet c ref now
          (holdsWork s.ledger now) = .ok f := hrun
      simp [stepDrain, Capacity.step, Op.observing, Op.presents, Op.runPass, Op.run, hbegins.1,
        hcall]
    replace hrun := passed hrun
    rcases require_bind_eq_ok.mp hrun with ⟨hdrained, hrun⟩
    rcases updateInstance_ok hrun with ⟨⟨x, hx, his⟩, rfl⟩
    refine ⟨htracked, ?_, ?_⟩
    · rw [hstep]
      refine leaving_iff.mpr ⟨_, mem_update.mpr ⟨x, hx, rfl⟩, ?_⟩
      rw [if_pos his]
      simp only [Instance.is, Bool.and_eq_true, decide_eq_true_eq] at his
      exact ⟨his.1.1.1.1, .inr (.inl rfl)⟩
    · intro name hon t hholds
      rcases h.row_of_holds hon hholds with ⟨w, hw, rfl⟩
      simp only [capacityInstanceDrained, Bool.and_eq_true, all_eq_true] at hdrained
      have hlabel : w.labels.contains (capacityInstanceLabel ref.id) = true := by
        rw [h.labels w hw]
        exact hon
      have hfree := hdrained.1 w hw
      rw [hlabel, Bool.not_eq_true'] at hfree
      exact Ledger.holdsWork_eq_false.mp hfree t hholds

/-- Drain safety: from the moment the deletion of an instance begins, no slot that runs on it holds a
live lease or phase claim, and none is given one. -/
theorem drained_instance_idle (policies : List Ledger.Policy) (tables : FairTables)
    (before later : List DrainOp) (c : Claim) (ref : InstanceRef) (now : Time)
    (working : Worker → Bool)
    (hbegins : (run stepDrain (.init policies tables) before).begins c ref now = true)
    (hkept : Along stepDrain (fun s op => kept ref.id s op = true) (.init policies tables)
      (before ++ .capacity (.beginDelete c ref now working) :: later))
    (hclock : ∀ op ∈ later, ∀ t, op.renewsAt = some t → now ≤ t) (t : Time) (ht : now ≤ t) :
    Idle (run stepDrain (.init policies tables)
      (before ++ .capacity (.beginDelete c ref now working) :: later)) ref.id t := by
  rcases along_append.mp hkept with ⟨hkeptBefore, hkeptAfter⟩
  have htracked : Tracked ref.id (run stepDrain (.init policies tables) before) :=
    run_invariant (fun _ _ hs hk => hs.step hk) (tracked_init) hkeptBefore
  have hvacated : Vacated ref.id now (run stepDrain (.init policies tables)
      (before ++ .capacity (.beginDelete c ref now working) :: later)) := by
    rw [run_append, run_cons]
    exact run_invariant (C := fun s op => kept ref.id s op = true ∧
        ∀ t, op.renewsAt = some t → now ≤ t)
      (fun _ _ hs hC => hs.step hC.1 hC.2) (htracked.vacated hbegins)
      (hkeptAfter.2.and (along_of_forall hclock))
  intro name hon
  exact Ledger.holdsWork_eq_false.mpr fun t₀ hholds => (hvacated.idle name hon t₀ hholds).trans ht

end Vacated

/-! ## A slot that reports late -/

/-- One project, and jobs that any executor may take. -/
def openTables : FairTables where
  shares := [{
    project := 1, priorityWeight := 1, starvationThresholdSeconds := 3600, positive := by decide }]
  fairness := []
  keyed := nodup_nil
  traits := fun _ => ⟨0, [], 0⟩
  itemCapabilities := fun _ => []

/-- Ten seconds after the instance became active. -/
def drainTime : Time := 10 * microsPerSecond

def slotLabels : List Label :=
  [capacityPoolLabel "east", providerLabel "cloud", capacityInstanceLabel 1]

/-- A control-plane replica admits the job and cuts it over to phase executors. -/
def admitJob : List DrainOp :=
  [.ledger (Ledger.exampleCreate 7 0),
    .poll {
      claim := Ledger.exampleClaimCall 7 1 drainTime
      executor := { active := true, lastSeenAt := 0, protocol := 1, labels := [] }
      rankedAt := drainTime
      lockedProjects := fun _ => false
      lockedJobs := fun _ => false } ["phase:provision"] 1 drainTime,
    .ledger (.activate (Ledger.exampleStatus 7 1 .claimed drainTime) drainTime)]

def askForWork (slot : Worker) : DrainOp :=
  .pollPhase {
    call := { owner := slot, lease := 60 * microsPerSecond, item := 110, now := drainTime }
    executor := { active := true, lastSeenAt := 0, protocol := 1, labels := [] }
    phases := []
    readySince := fun _ => none
    lockedProjects := fun _ => false } slotLabels 1 drainTime

def scaleDownClaim : Claim where
  id := 2
  pool := onePool
  kind := .scaleDown
  requestedSlots := 0
  observedSlots := 1
  deltaSlots := 1
  reason := "busy=0 schedulable_backlog=0 target_ready_per_slot=1"
  owner := "actuator"
  fence := 1
  leaseExpiresAt := some (drainTime + 60 * microsPerSecond)

/-- The pool gets its instance; a later pass finds it idle, and an actuator selects it. -/
def selectForDrain : List DrainOp :=
  (oneScaleUp 1 0 ++ oneHeartbeat 1 0).map .capacity ++ admitJob ++
    (Op.beginPass 0 oneSlotPolicy drainTime ::
      (List.replicate 7 (.advance 0 drainTime ⟨0, 0, 0⟩ 2) ++
        [.claim "actuator" (60 * microsPerSecond) drainTime (fun _ => false),
          .selectDrain scaleDownClaim drainTime (fun _ => false)])).map .capacity

def beginDeletion : DrainOp :=
  .capacity (.beginDelete scaleDownClaim ⟨1, 1, 1⟩ drainTime fun _ => false)

/-- A second slot of the instance registers for the first time after the deletion has begun, and is
given a phase. -/
theorem drained_instance_gets_work :
    (run stepDrain (.init [Ledger.examplePolicy] openTables) selectForDrain).begins scaleDownClaim
        ⟨1, 1, 1⟩ drainTime = true ∧
      ¬ Idle (run stepDrain (.init [Ledger.examplePolicy] openTables)
        (selectForDrain ++ [beginDeletion, askForWork "slot-2"])) 1 drainTime := by
  refine ⟨by decide +kernel, ?_⟩
  intro hidle
  have hnone := hidle "slot-2" (by decide +kernel)
  have hsome : holdsWork (run stepDrain (.init [Ledger.examplePolicy] openTables)
      (selectForDrain ++ [beginDeletion, askForWork "slot-2"])).ledger drainTime "slot-2" = true := by
    decide +kernel
  exact absurd (hsome.symm.trans hnone) (by decide)

/-- The slot whose row is draining asks in vain. -/
theorem drained_instance_idle_slot :
    Idle (run stepDrain (.init [Ledger.examplePolicy] openTables)
      (selectForDrain ++ [beginDeletion, askForWork "slot"])) 1 drainTime := by
  refine drained_instance_idle [Ledger.examplePolicy] openTables selectForDrain [askForWork "slot"]
    scaleDownClaim ⟨1, 1, 1⟩ drainTime (fun _ => false) (by decide +kernel) (by decide +kernel) ?_
    drainTime (Nat.le_refl _)
  intro op hop t ht
  rw [mem_singleton.mp hop] at ht
  cases ht

end PortageEngine.Capacity
