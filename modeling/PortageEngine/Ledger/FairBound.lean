import PortageEngine.Library.FairShare
import PortageEngine.Ledger.Fairness

/-!
# Weighted fairness

Of two projects that wait in a queue, neither starved and neither with a phase to replay, only the
one with the smaller virtual runtime is served.  So their virtual runtimes stay within one dispatch
step of each other, and so do the numbers of their dispatches, each times its project's step.
-/

namespace PortageEngine.Ledger

open List Library
open Library.Rows
open Library.Runs

/-! ## Rows of the fairness table -/

def FairTables.row? (t : FairTables) (project : ProjectId) : Option Fairness :=
  t.fairness.find? (·.project = project)

def FairTables.stepOf (t : FairTables) (project : ProjectId) : Nat :=
  (t.share? project).elim 0 Share.dispatchStep

variable {project k i j : ProjectId} {f g f' : Fairness} {t t' : FairTables}
  {kind other : DispatchKind} {x selected : Selection} {xs : List Selection} {γ : Type}
  {s : FairSystem} {op : FairOp}

variable {policies : List Policy} {oldest : ProjectId → Option Time}

theorem find?_ensureFairnessRows {admission phase : Nat}
    {rows : List Fairness} (h : rows.find? (·.project = project) = some f) :
    (policies.foldl (ensureFairnessRow admission phase) rows).find? (·.project = project) =
      some f := by
  induction policies generalizing rows with
  | nil => exact h
  | cons p policies ih =>
    refine ih ?_
    unfold ensureFairnessRow
    split
    · exact h
    · rw [find?_append, h]
      rfl

theorem row?_ensure (h : t.row? project = some f) :
    (ensureProjectFairnessRows t policies).row? project = some f :=
  find?_ensureFairnessRows h

theorem row?_record {share : Share} (hshare : t.share? k = some share) (project : ProjectId) :
    (recordFairDispatch t kind k).row? project =
      (t.row? project).map fun f =>
        if f.project = k then f.serve kind share.dispatchStep else f := by
  have hfind := @find?_update _ _ (fun f : Fairness => decide (f.project = k)) _ t.fairness
    Fairness.project _ (Fairness.serve_project kind share.dispatchStep) project
  simp only [decide_eq_true_eq] at hfind
  unfold recordFairDispatch
  rw [hshare]
  exact hfind

theorem Fairness.serve_vruntime (kind : DispatchKind) (step : Nat) (f : Fairness) :
    (f.serve kind step).vruntime kind = f.vruntime kind + step ∧
      (f.serve kind step).dispatches kind = f.dispatches kind + 1 := by
  cases kind <;> exact ⟨rfl, rfl⟩

theorem Fairness.serve_other (h : other ≠ kind) (step : Nat) (f : Fairness) :
    (f.serve kind step).vruntime other = f.vruntime other ∧
      (f.serve kind step).dispatches other = f.dispatches other := by
  cases kind <;> cases other <;> first | exact absurd rfl h | exact ⟨rfl, rfl⟩

/-! ## Candidates -/

/-- The candidates stand for rows of the table, each project for one. -/
structure Ranked (kind : DispatchKind) (t : FairTables) (xs : List Selection) : Prop where
  row : ∀ x ∈ xs, ∃ f, t.row? x.project = some f ∧ x.vruntimeBefore = f.vruntime kind
  share : ∀ x ∈ xs, ∃ share, t.share? x.project = some share
  single : ∀ x ∈ xs, ∀ y ∈ xs, x.project = y.project → x = y

theorem selection?_some {replay : ProjectId → Bool} {now : Time}
    (h : selection? kind t oldest replay now f = some x) :
    x.project = f.project ∧ x.vruntimeBefore = f.vruntime kind ∧
      ∃ share, t.share? f.project = some share := by
  simp only [selection?, Option.bind_eq_bind, Option.bind_eq_some_iff, Option.pure_def] at h
  rcases h with ⟨share, hshare, oldestAt, _, hx⟩
  cases hx
  exact ⟨rfl, rfl, share, hshare⟩

theorem ranked_fairCandidates {replay locked : ProjectId → Bool} {now : Time} :
    Ranked kind t (fairCandidates kind t oldest replay locked now) := by
  have hrow : ∀ x ∈ fairCandidates kind t oldest replay locked now, ∃ f ∈ t.fairness,
      selection? kind t oldest replay now f = some x := by
    intro x hx
    rcases mem_filterMap.mp hx with ⟨f, hf, hselection⟩
    exact ⟨f, (mem_filter.mp hf).1, hselection⟩
  refine ⟨?_, ?_, ?_⟩
  · intro x hx
    rcases hrow x hx with ⟨f, hf, hselection⟩
    rcases selection?_some hselection with ⟨hproject, hvruntime, _⟩
    refine ⟨f, ?_, hvruntime⟩
    rw [hproject]
    exact t.keyed.find hf
  · intro x hx
    rcases hrow x hx with ⟨f, _, hselection⟩
    rcases selection?_some hselection with ⟨hproject, _, hshare⟩
    rw [hproject]
    exact hshare
  · intro x hx y hy hxy
    rcases hrow x hx with ⟨f, hf, hfx⟩
    rcases hrow y hy with ⟨g, hg, hgy⟩
    have hfg : f.project = g.project :=
      (selection?_some hfx).1.symm.trans (hxy.trans (selection?_some hgy).1)
    rw [t.keyed.eq hf hg hfg, hgy] at hfx
    exact (Option.some.inj hfx).symm

/-- The project waits its turn: it is a candidate, but neither starved nor with a phase to replay. -/
def Waiting (xs : List Selection) (project : ProjectId) : Prop :=
  ∃ x ∈ xs, x.project = project ∧ x.starved = false ∧ x.hasReplay = false

theorem vruntime_le_of_rank_le {y : Selection} (hx : x.starved = false ∧ x.hasReplay = false)
    (hy : y.starved = false ∧ y.hasReplay = false) (h : x.rank ≤ y.rank) :
    x.vruntimeBefore ≤ y.vruntimeBefore := by
  unfold Selection.rank at h
  simp only [hx.1, hx.2, hy.1, hy.2, Bool.false_eq_true, if_false, Prod.Lex.toLex_le_toLex,
    Nat.lt_irrefl, false_or, true_and] at h
  rcases h with h | ⟨h, _⟩
  · exact Nat.le_of_lt h
  · exact Nat.le_of_eq h

theorem Ranked.in_turn (h : Ranked kind t xs) (hselected : selected ∈ xs.argmin Selection.rank)
    (hi : Waiting xs i) (hj : Waiting xs j) (hproject : selected.project = i)
    (hf : t.row? i = some f) (hg : t.row? j = some g) :
    f.vruntime kind ≤ g.vruntime kind := by
  rcases hi with ⟨x, hx, hxi, hxflags⟩
  rcases hj with ⟨y, hy, hyj, hyflags⟩
  have hmem := argmin_mem hselected
  have hsame : selected = x := h.single selected hmem x hx (hproject.trans hxi.symm)
  rcases h.row x hx with ⟨f', hf', hxv⟩
  rcases h.row y hy with ⟨g', hg', hyv⟩
  rw [hxi, hf] at hf'
  rw [hyj, hg] at hg'
  rw [Option.some.inj hf', Option.some.inj hg', ← hxv, ← hyv]
  refine vruntime_le_of_rank_le hxflags hyflags ?_
  rw [← hsame]
  exact le_of_mem_argmin hy hselected

/-! ## What one step does to the fairness table -/

/-- The projects that a poll chooses from, with the queue it serves. -/
def FairOp.candidates (s : FairSystem) : FairOp → Option (DispatchKind × List Selection)
  | .ledger _ => none
  | .poll p =>
    let l := p.recovered s.system.ledger
    some (.admission, admissionCandidates (ensureProjectFairnessRows s.tables l.policies) l p)
  | .pollPhase p =>
    let l := reclaimExpired s.system.ledger p.call.now
    some (.phase, phaseCandidates
      (ensureProjectFairnessRows s.tables s.system.ledger.policies) l p)

def FairOp.dispatched (s : FairSystem) : FairOp → Option (DispatchKind × ProjectId)
  | .ledger _ => none
  | .poll p => (Ledger.poll s.tables s.system.ledger p).toOption.bind fun r =>
    r.dispatched.map fun k => (.admission, k)
  | .pollPhase p => (Ledger.pollPhase s.tables s.system.ledger p).toOption.bind fun r =>
    r.dispatched.map fun k => (.phase, k)

/-- The step serves nobody; rows may be added. -/
def Unserved (t t' : FairTables) : Prop :=
  t' = t ∨ ∃ policies, t' = ensureProjectFairnessRows t policies

/-- The step serves the first of its candidates. -/
structure Serves (s : FairSystem) (op : FairOp) (kind : DispatchKind) (k : ProjectId) : Prop where
  dispatched : op.dispatched s = some (kind, k)
  first : ∃ xs selected policies, op.candidates s = some (kind, xs) ∧
    selected ∈ xs.argmin Selection.rank ∧ selected.project = k ∧
    Ranked kind (ensureProjectFairnessRows s.tables policies) xs ∧
    (stepFair s op).tables = recordFairDispatch (ensureProjectFairnessRows s.tables policies) kind k

/-- A poll ends without a dispatch, or with that of the selected project. -/
def Ends {γ : Type} (kind : DispatchKind) (t : FairTables) (xs : List Selection)
    (r : PollResult γ) : Prop :=
  (r.dispatched = none ∧ r.tables = t) ∨
    ∃ selected ∈ xs.argmin Selection.rank, r.dispatched = some selected.project ∧
      r.tables = recordFairDispatch t kind selected.project

theorem ends_finish (hselected : xs.argmin Selection.rank = some selected) {r : Ledger × Option γ} :
    Ends kind t xs (PollResult.finish kind t selected.project r) := by
  rcases r with ⟨l, none | claim⟩
  · exact .inl ⟨rfl, rfl⟩
  · exact .inr ⟨selected, hselected, rfl, rfl⟩

theorem step_of_ends {run : Except LedgerError (PollResult γ)}
    (h : ∀ r, run = .ok r → Ends kind (ensureProjectFairnessRows s.tables policies) xs r)
    (htables : (stepFair s op).tables = (run.toOption.map PollResult.tables).getD s.tables)
    (hdispatched : op.dispatched s = run.toOption.bind fun r => r.dispatched.map fun k => (kind, k))
    (hxs : op.candidates s = some (kind, xs))
    (hranked : Ranked kind (ensureProjectFairnessRows s.tables policies) xs) :
    (op.dispatched s = none ∧ Unserved s.tables (stepFair s op).tables) ∨
      ∃ kind k, Serves s op kind k := by
  cases hrun : run with
  | error e =>
    rw [hrun] at htables hdispatched
    exact .inl ⟨hdispatched, .inl htables⟩
  | ok r =>
    rw [hrun] at htables hdispatched
    rcases h r hrun with ⟨hnone, hr⟩ | ⟨selected, hselected, hsome, hr⟩
    · refine .inl ⟨by simp [hdispatched, Except.toOption, hnone], .inr ⟨policies, ?_⟩⟩
      exact htables.trans hr
    · refine .inr ⟨kind, selected.project, by simp [hdispatched, Except.toOption, hsome], ?_⟩
      exact ⟨xs, selected, policies, hxs, hselected, rfl, hranked, htables.trans hr⟩

theorem stepFair_cases (s : FairSystem) (op : FairOp) :
    (op.dispatched s = none ∧ Unserved s.tables (stepFair s op).tables) ∨
      ∃ kind k, Serves s op kind k := by
  cases op with
  | ledger op =>
    refine .inl ⟨rfl, .inl ?_⟩
    simp only [stepFair]
    split
    · rfl
    · rfl
  | poll p =>
    refine step_of_ends ?_ ?_ rfl rfl
      (ranked_fairCandidates)
    · intro r hpoll
      rcases poll_ok hpoll with ⟨rfl, _⟩ | ⟨selected, j, result, hselected, _, _, rfl⟩
      · exact .inl ⟨rfl, rfl⟩
      · exact ends_finish hselected
    · simp only [stepFair]
      cases Ledger.poll s.tables s.system.ledger p <;> rfl
  | pollPhase p =>
    refine step_of_ends ?_ ?_ rfl rfl
      (ranked_fairCandidates)
    · intro r hpoll
      rcases pollPhase_ok hpoll with rfl | ⟨selected, result, hselected, _, rfl⟩
      · exact .inl ⟨rfl, rfl⟩
      · exact ends_finish hselected
    · simp only [stepFair]
      cases Ledger.pollPhase s.tables s.system.ledger p <;> rfl

theorem Unserved.row? (h : Unserved t t') (hf : t.row? project = some f) :
    t'.row? project = some f := by
  rcases h with rfl | ⟨policies, rfl⟩
  · exact hf
  · exact row?_ensure hf

theorem Unserved.share? (h : Unserved t t') (project : ProjectId) :
    t'.share? project = t.share? project := by
  rcases h with rfl | ⟨policies, rfl⟩
  · rfl
  · rfl

theorem Serves.row? (h : Serves s op kind k) (hf : s.tables.row? project = some f) :
    (stepFair s op).tables.row? project =
      some (if project = k then f.serve kind (s.tables.stepOf k) else f) := by
  rcases h.first with ⟨xs, selected, policies, _, hselected, hproject, hranked, htables⟩
  rcases hranked.share selected (argmin_mem hselected) with ⟨share, hshare⟩
  rw [hproject] at hshare
  have hstep : s.tables.stepOf k = share.dispatchStep := by
    have hshare' : s.tables.share? k = some share := hshare
    simp [FairTables.stepOf, hshare']
  have hname : f.project = project := by simpa using find?_some hf
  rw [htables, row?_record hshare, row?_ensure hf, hstep, ← hname]
  rfl

theorem shares_step (s : FairSystem) (op : FairOp) :
    (stepFair s op).tables.stepOf = s.tables.stepOf := by
  funext project
  rcases stepFair_cases s op with ⟨_, hunserved⟩ | ⟨kind, k, hserves⟩
  · simp only [FairTables.stepOf, hunserved.share?]
  rcases hserves.first with ⟨_, _, policies, _, _, _, _, htables⟩
  rw [htables]
  unfold recordFairDispatch
  split <;> rfl

/-! ## Runs -/

/-- Both projects wait their turn whenever the queue is polled. -/
def Contend (kind : DispatchKind) (i j : ProjectId) (s : FairSystem) (op : FairOp) : Prop :=
  ∀ xs, op.candidates s = some (kind, xs) → Waiting xs i ∧ Waiting xs j

theorem contend_poll {p : Poll} (h : let l := p.recovered s.system.ledger
      let xs := admissionCandidates (ensureProjectFairnessRows s.tables l.policies) l p
      Waiting xs i ∧ Waiting xs j) : Contend .admission i j s (.poll p) := by
  intro xs hxs
  simp only [FairOp.candidates, Option.some.injEq, Prod.mk.injEq, true_and] at hxs
  rw [← hxs]
  exact h

/-- The row of a project after `n` dispatches. -/
structure Served (kind : DispatchKind) (step n : Nat) (f f' : Fairness) : Prop where
  vruntime : f'.vruntime kind = f.vruntime kind + n * step
  dispatches : f'.dispatches kind = f.dispatches kind + n

theorem Served.more {step n : Nat} (h : Served kind step n f f') :
    Served kind step (if other = kind then n + 1 else n) f (f'.serve other step) := by
  by_cases hkind : other = kind
  · subst hkind
    rcases f'.serve_vruntime other step with ⟨hv, hd⟩
    rw [if_pos rfl]
    refine ⟨?_, by rw [hd, h.dispatches]; rfl⟩
    rw [hv, h.vruntime]
    ring
  · rcases f'.serve_other (Ne.symm hkind) step with ⟨hv, hd⟩
    rw [if_neg hkind]
    exact ⟨hv.trans h.vruntime, hd.trans h.dispatches⟩

/-- The virtual runtime of a project; zero without a row. -/
def FairTables.vruntime (t : FairTables) (kind : DispatchKind) (project : ProjectId) : Nat :=
  (t.row? project).elim 0 fun f => f.vruntime kind

theorem vruntime_of_row? (h : t.row? project = some f) :
    t.vruntime kind project = f.vruntime kind := by
  simp [FairTables.vruntime, h]

/-- Serving `k` from the queue advances its virtual time; another queue's dispatch does not. -/
theorem Serves.vruntime (h : Serves s op other k) (hf : s.tables.row? project = some f) :
    (stepFair s op).tables.vruntime kind project =
      if other = kind then FairShare.serve s.tables.stepOf (s.tables.vruntime kind) k project
      else s.tables.vruntime kind project := by
  rw [vruntime_of_row? (h.row? hf), vruntime_of_row? hf]
  by_cases hkind : other = kind
  · subst hkind
    rw [if_pos rfl]
    by_cases hproject : project = k
    · subst hproject
      rw [if_pos rfl, FairShare.serve_self, vruntime_of_row? hf]
      exact (f.serve_vruntime other _).1
    · rw [if_neg hproject, FairShare.serve_other _ _ hproject, vruntime_of_row? hf]
  · rw [if_neg hkind]
    by_cases hproject : project = k
    · rw [if_pos hproject]
      exact (f.serve_other (Ne.symm hkind) _).1
    · rw [if_neg hproject]

theorem Serves.in_turn (h : Serves s op kind k) (hop : Contend kind i j s op)
    (hf : s.tables.row? i = some f) (hg : s.tables.row? j = some g) :
    FairShare.InTurn (s.tables.vruntime kind) i j k := by
  rcases h.first with ⟨xs, selected, policies, hxs, hselected, hproject, hranked, _⟩
  rcases hop xs hxs with ⟨hi, hj⟩
  rw [FairShare.InTurn, vruntime_of_row? hf, vruntime_of_row? hg]
  constructor
  · intro hki
    exact hranked.in_turn hselected hi hj (hproject.trans hki) (row?_ensure hf) (row?_ensure hg)
  · intro hkj
    exact hranked.in_turn hselected hj hi (hproject.trans hkj) (row?_ensure hg) (row?_ensure hf)

/-- What a run keeps for two projects that started level. -/
structure Level (kind : DispatchKind) (step : ProjectId → Nat) (i j : ProjectId) (f g : Fairness)
    (s : FairSystem) : Prop where
  steps : s.tables.stepOf = step
  left : ∃ f' m, s.tables.row? i = some f' ∧ Served kind (step i) m f f'
  right : ∃ g' n, s.tables.row? j = some g' ∧ Served kind (step j) n g g'
  close : FairShare.Close step (s.tables.vruntime kind) i j

theorem served_step {m : Nat} (hf : s.tables.row? i = some f')
    (hfm : Served kind (s.tables.stepOf i) m f f') :
    ∃ f' m, (stepFair s op).tables.row? i = some f' ∧ Served kind (s.tables.stepOf i) m f f' := by
  rcases stepFair_cases s op with ⟨_, hunserved⟩ | ⟨other, k, hserves⟩
  · exact ⟨f', m, hunserved.row? hf, hfm⟩
  have hrow := hserves.row? hf
  by_cases hik : i = k
  · subst hik
    rw [if_pos rfl] at hrow
    exact ⟨_, _, hrow, hfm.more⟩
  · rw [if_neg hik] at hrow
    exact ⟨_, _, hrow, hfm⟩

theorem Level.step {step : ProjectId → Nat} (h : Level kind step i j f g s)
    (hop : Contend kind i j s op) : Level kind step i j f g (stepFair s op) := by
  rcases h with ⟨rfl, ⟨f', m, hf, hfm⟩, ⟨g', n, hg, hgn⟩, hclose⟩
  refine ⟨shares_step s op, served_step hf hfm, served_step hg hgn, ?_⟩
  rcases stepFair_cases s op with ⟨_, hunserved⟩ | ⟨other, k, hserves⟩
  · refine hclose.congr ?_ ?_
    · rw [vruntime_of_row? (hunserved.row? hf), vruntime_of_row? hf]
    · rw [vruntime_of_row? (hunserved.row? hg), vruntime_of_row? hg]
  by_cases hkind : other = kind
  · subst hkind
    refine (hclose.serve (hserves.in_turn hop hf hg)).congr ?_ ?_
    · rw [hserves.vruntime hf, if_pos rfl]
    · rw [hserves.vruntime hg, if_pos rfl]
  · refine hclose.congr ?_ ?_
    · rw [hserves.vruntime hf, if_neg hkind]
    · rw [hserves.vruntime hg, if_neg hkind]

/-- Weighted fairness.  A step that dispatches nobody leaves every row alone.  Two projects that
start level and wait their turn at every poll of the queue stay within the larger of their steps,
and so do their numbers of dispatches, each times its project's step. -/
theorem weighted_fairness :
    (∀ (s : FairSystem) (op : FairOp), op.dispatched s = none →
      ∀ project f, s.tables.row? project = some f →
        (stepFair s op).tables.row? project = some f) ∧
    ∀ (kind : DispatchKind) (s : FairSystem) (ops : List FairOp) (i j : ProjectId) (f g : Fairness),
      s.tables.row? i = some f → s.tables.row? j = some g → f.vruntime kind = g.vruntime kind →
      Along stepFair (Contend kind i j) s ops →
      let gap := max (s.tables.stepOf i) (s.tables.stepOf j)
      ∃ f' g' m n, (run stepFair s ops).tables.row? i = some f' ∧
        (run stepFair s ops).tables.row? j = some g' ∧
        f'.vruntime kind ≤ g'.vruntime kind + gap ∧ g'.vruntime kind ≤ f'.vruntime kind + gap ∧
        f'.dispatches kind = f.dispatches kind + m ∧ g'.dispatches kind = g.dispatches kind + n ∧
        m * s.tables.stepOf i ≤ n * s.tables.stepOf j + gap ∧
        n * s.tables.stepOf j ≤ m * s.tables.stepOf i + gap := by
  constructor
  · intro s op hnone project f hf
    rcases stepFair_cases s op with ⟨_, hunserved⟩ | ⟨kind, k, hserves⟩
    · exact hunserved.row? hf
    · rw [hserves.dispatched] at hnone
      cases hnone
  · intro kind s ops i j f g hf hg hlevel halong gap
    have hstart : Level kind s.tables.stepOf i j f g s := by
      refine ⟨rfl, ⟨f, 0, hf, by simp, rfl⟩, ⟨g, 0, hg, by simp, rfl⟩, ?_⟩
      refine FairShare.close_of_eq ?_
      rw [vruntime_of_row? hf, vruntime_of_row? hg, hlevel]
    have hend := run_invariant (fun _ _ h hop => Level.step h hop) hstart halong
    rcases hend.left with ⟨f', m, hf', hfm⟩
    rcases hend.right with ⟨g', n, hg', hgn⟩
    have hgap := hend.close.le_max
    rw [vruntime_of_row? hf', vruntime_of_row? hg'] at hgap
    refine ⟨f', g', m, n, hf', hg', hgap.1, hgap.2, hfm.dispatches, hgn.dispatches, ?_, ?_⟩
    · have h := hgap.1
      rw [hfm.vruntime, hgn.vruntime] at h
      omega
    · have h := hgap.2
      rw [hfm.vruntime, hgn.vruntime] at h
      omega

/-! ## Two projects -/

/-- A project with room for several builds at a time. -/
def fairPolicy (project : ProjectId) : Policy :=
  { examplePolicy with project := project, maxActiveJobs := 10, maxClaimed := 10 }

def fairShare (project : ProjectId) : Share where
  project := project
  priorityWeight := 100
  starvationThresholdSeconds := 300
  positive := by decide

def fairRow (project : ProjectId) : Fairness where
  project := project
  admissionVruntime := 0
  phaseVruntime := 0
  admissionDispatches := 0
  phaseDispatches := 0

def fairTables : FairTables where
  shares := [fairShare 1, fairShare 2]
  fairness := [fairRow 1, fairRow 2]
  keyed := (by decide : [1, 2].Nodup)
  traits := fun _ => { minimumExecutorProtocol := 1, requiredCapabilities := [], priority := 0 }
  itemCapabilities := fun _ => []

def submit (project : ProjectId) (job : JobId) (now : Time) : FairOp :=
  .ledger (.create { exampleCreateCall job now with project := project })

def pollAt (attempt : AttemptId) (now : Time) : Poll where
  claim := exampleClaimCall 0 attempt now
  executor := { active := true, lastSeenAt := now, protocol := 1, labels := [] }
  rankedAt := now
  lockedProjects := fun _ => false
  lockedJobs := fun _ => false

/-- Two projects, the first with jobs one to three, the second with job four. -/
def twoProjects (first second : Time) : FairSystem :=
  run stepFair { system := System.init [fairPolicy 1, fairPolicy 2], tables := fairTables }
    [submit 1 1 first, submit 1 2 first, submit 1 3 first, submit 2 4 second]

/-- Both projects have a job that the executor may take and their quotas admit. -/
def bothAdmissible (s : FairSystem) (op : FairOp) : Bool :=
  match op with
  | .poll p =>
    let l := p.recovered s.system.ledger
    let t := ensureProjectFairnessRows s.tables l.policies
    [1, 2].all fun project => (admissionCandidates t l p).any (·.project = project) &&
      admissible t l p project
  | _ => true

def threePolls (now : Time) : List FairOp :=
  [.poll (pollAt 1 now), .poll (pollAt 2 (now + 1)), .poll (pollAt 3 (now + 2))]

/-- The first two of three polls serve the two projects in turn. -/
theorem weighted_fairness_two :
    let s := twoProjects 0 1
    let s' := run stepFair s ((threePolls 2000000).take 2)
    s.tables.row? 1 = some (fairRow 1) ∧ s.tables.row? 2 = some (fairRow 2) ∧
      Along stepFair (Contend .admission 1 2) s ((threePolls 2000000).take 2) ∧
      ∃ f' g' m n, s'.tables.row? 1 = some f' ∧ s'.tables.row? 2 = some g' ∧
        f'.vruntime .admission ≤ g'.vruntime .admission + 10 ∧
        g'.vruntime .admission ≤ f'.vruntime .admission + 10 ∧
        f'.dispatches .admission = 0 + m ∧ g'.dispatches .admission = 0 + n ∧
        m * 10 ≤ n * 10 + 10 ∧ n * 10 ≤ m * 10 + 10 := by
  intro s s'
  have hfirst : s.tables.row? 1 = some (fairRow 1) := by decide +kernel
  have hsecond : s.tables.row? 2 = some (fairRow 2) := by decide +kernel
  have hcontend : Along stepFair (Contend .admission 1 2) s ((threePolls 2000000).take 2) := by
    refine ⟨contend_poll ?_, contend_poll ?_, trivial⟩
    · unfold Waiting
      decide +kernel
    · unfold Waiting
      decide +kernel
  exact ⟨hfirst, hsecond, hcontend, weighted_fairness.2 .admission s ((threePolls 2000000).take 2) 1
    2 (fairRow 1) (fairRow 2) hfirst hsecond rfl hcontend⟩

/-- A starved project is served again and again, whatever its virtual runtime: after three polls,
each of which could have served either project, they are three steps apart. -/
theorem starved_project_gets_ahead :
    let s := twoProjects 0 400000000
    Along stepFair (fun s op => bothAdmissible s op = true) s (threePolls 401000000) ∧
      s.tables.vruntime .admission 1 = s.tables.vruntime .admission 2 ∧
      ¬ ((run stepFair s (threePolls 401000000)).tables.vruntime .admission 1 ≤
        (run stepFair s (threePolls 401000000)).tables.vruntime .admission 2 +
          max (s.tables.stepOf 1) (s.tables.stepOf 2)) := by
  decide +kernel

end PortageEngine.Ledger
