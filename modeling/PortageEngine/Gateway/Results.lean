import PortageEngine.Gateway.Effects

/-!
# One result for each command

A command is queued, delivered under a fence that each delivery advances, and ends completed, failed
or canceled.  `CommandStep` lists what a call can make of a command.  A command that has ended keeps
its result: only the repetition of the report that ended it is accepted, and that may write the same
JSON value in another way.
-/

namespace PortageEngine.Gateway

open List Library Library.Rows Library.Runs
open Ledger

variable {ext : Externals} {t t' : Tables} {op : GatewayOp} {c c' : Command} {i : Identity}

/-! ## What a call does to a command -/

inductive CommandStep (ext : Externals) (t : Tables) (op : GatewayOp) (c : Command) : Command → Prop
  | kept : CommandStep ext t op c c
  | requeued (l : Ledger) (i : Identity) (lease : Time) (candidate : CommandId) (now : Time)
      (hop : op = .claimCommand l i lease candidate now) (hstate : c.state = .delivered) :
      CommandStep ext t op c c.requeue
  | delivered (l : Ledger) (i : Identity) (lease : Time) (candidate : CommandId) (now : Time)
      (hop : op = .claimCommand l i lease candidate now)
      (hstate : c.state = .queued ∨ c.state = .delivered) (expires : Time) :
      CommandStep ext t op c (c.deliver expires)
  | finished (l : Ledger) (i : Identity) (k : Completion) (now : Time) (response : Option Jsonb)
      (hop : op = .completeCommand l i k now) (hresponse : k.response ext.jsonb = .ok response)
      (haccepts : acceptsCompletion l t i k response now c = true) :
      CommandStep ext t op c (c.finish k response)
  | canceled (reason : String) (hop : op.revokes = true) (hstate : c.pending = true) :
      CommandStep ext t op c (c.cancel reason)

inductive NewCommand (t : Tables) : Command → Prop
  | mk (s : Session) (hs : s ∈ t.sessions) (task : Task) (request : Jsonb)
      (hfresh : ∀ c ∈ t.commands, c.id ≠ task.id) : NewCommand t (newCommand s task request)

theorem expired_delivered {now : Time} (h : c.expired i now = true) :
    c.state = .delivered := by
  simp only [Command.expired, Bool.and_eq_true, decide_eq_true_eq] at h
  exact h.1.2

variable {candidate : CommandId}

theorem evolves_requeue {lease now : Time} {l : Ledger} :
    Evolves (CommandStep ext t (.claimCommand l i lease candidate now)) (NewCommand t) t.commands
      (update (fun c => c.expired i now) Command.requeue t.commands) := by
  refine evolves_update (fun _ => .kept) ?_
  intro c _ hexpired
  exact .requeued l i lease candidate now rfl (expired_delivered hexpired)

/-- Both updates: a queued command is delivered, which may have been queued again just before. -/
theorem evolves_deliver {lease now : Time} {l : Ledger}
    (hkeyed : Keyed Command.id t.commands) {chosen : Command}
    (hchosen : chosen ∈ update (fun c => c.expired i now) Command.requeue t.commands)
    (hqueued : chosen.state = .queued) :
    Evolves (CommandStep ext t (.claimCommand l i lease candidate now)) (NewCommand t) t.commands
      (update (fun k => k.id = chosen.id) (Command.deliver (now + lease))
        (update (fun c => c.expired i now) Command.requeue t.commands)) := by
  have hkeyed' : Keyed Command.id (update (fun c => c.expired i now) Command.requeue t.commands) :=
    hkeyed.update fun _ => rfl
  unfold update at hchosen hkeyed' ⊢
  rw [map_map]
  have hrow : ∀ c ∈ t.commands, CommandStep ext t (.claimCommand l i lease candidate now) c
      (((fun k => if decide (k.id = chosen.id) = true then k.deliver (now + lease) else k) ∘
        fun c => if c.expired i now = true then c.requeue else c) c) := by
    intro c hc
    have hmem := mem_map_of_mem (f := fun c : Command =>
      if c.expired i now = true then c.requeue else c) hc
    rw [Function.comp_apply]
    by_cases hexpired : c.expired i now = true
    · have hdelivered := expired_delivered hexpired
      rw [if_pos hexpired] at hmem ⊢
      by_cases hid : c.requeue.id = chosen.id
      · rw [if_pos (decide_eq_true hid)]
        exact .delivered l i lease candidate now rfl (.inr hdelivered) _
      · rw [if_neg (by simpa using hid)]
        exact .requeued l i lease candidate now rfl hdelivered
    · rw [if_neg hexpired] at hmem ⊢
      by_cases hid : c.id = chosen.id
      · rw [if_pos (decide_eq_true hid)]
        refine .delivered l i lease candidate now rfl (.inl ?_) _
        rw [hkeyed'.eq hmem hchosen hid]
        exact hqueued
      · rw [if_neg (by simpa using hid)]
        exact .kept
  refine ⟨fun c hc => ⟨_, mem_map_of_mem hc, hrow c hc⟩, ?_⟩
  intro c' hc'
  rcases mem_map.mp hc' with ⟨c, hc, rfl⟩
  exact .inl ⟨c, hc, hrow c hc⟩

theorem evolves_commands (hkeyed : Keyed Command.id t.commands) (h : GatewayStep ext t op t') :
    Evolves (CommandStep ext t op) (NewCommand t) t.commands t'.commands := by
  have hsame : Evolves (CommandStep ext t op) (NewCommand t) t.commands t.commands :=
    Evolves.refl fun _ => .kept
  have hcancel : ∀ (p : Command → Bool) (reason : String), op.revokes = true →
      Evolves (CommandStep ext t op) (NewCommand t) t.commands
        (update (fun c => p c && c.pending) (Command.cancel reason) t.commands) := by
    intro p reason hop
    refine evolves_update (fun _ => .kept) ?_
    intro c _ hp
    exact .canceled reason hop (Bool.and_eq_true _ _ ▸ hp).2
  cases h with
  | revoked op hop certificate session command upload reason => exact hcancel command reason hop
  | issuerRevoked fingerprint reason name session command upload text =>
    exact hcancel command text rfl
  | enqueued l i task now s hs request hfresh => exact hsame.cons (.mk s hs task request hfresh)
  | requeued l i lease candidate now => exact evolves_requeue
  | delivered l i lease candidate now c hc hqueued => exact evolves_deliver hkeyed hc hqueued
  | finished l i k now response hresponse =>
    refine evolves_update (fun _ => .kept) ?_
    intro c _ haccepts
    exact .finished l i k now response rfl hresponse haccepts
  | _ => exact hsame

theorem keyed_commands (hkeyed : Keyed Command.id t.commands) (h : GatewayStep ext t op t') :
    Keyed Command.id t'.commands := by
  cases h with
  | revoked | issuerRevoked | requeued | finished => exact hkeyed.update fun _ => rfl
  | delivered l i lease candidate now c hc hqueued =>
    have hrequeued : Keyed Command.id
        (update (fun c => c.expired i now) Command.requeue t.commands) :=
      hkeyed.update fun _ => rfl
    exact hrequeued.update fun _ => rfl
  | enqueued l i task now s hs request hfresh => exact hkeyed.cons hfresh
  | _ => exact hkeyed

/-! ## Sessions -/

structure SessionStep (s s' : Session) : Prop where
  workerId : s'.workerId = s.workerId
  job : s'.job = s.job
  attempt : s'.attempt = s.attempt
  fence : s'.fence = s.fence

theorem sessionStep_refl (s : Session) : SessionStep s s :=
  ⟨rfl, rfl, rfl, rfl⟩

theorem sessionStep_trans {s₁ s₂ s₃ : Session} (h : SessionStep s₁ s₂) (h' : SessionStep s₂ s₃) :
    SessionStep s₁ s₃ :=
  ⟨h'.workerId.trans h.workerId, h'.job.trans h.job, h'.attempt.trans h.attempt,
    h'.fence.trans h.fence⟩

theorem session_next (h : GatewayStep ext t op t') {s : Session} (hs : s ∈ t.sessions) :
    ∃ s' ∈ t'.sessions, SessionStep s s' := by
  have hupdate : ∀ (p : Session → Bool) (f : Session → Session), (∀ s, SessionStep s (f s)) →
      ∃ s' ∈ update p f t.sessions, SessionStep s s' := by
    intro p f hf
    have hevolves : Evolves SessionStep (fun _ => True) t.sessions (update p f t.sessions) :=
      evolves_update sessionStep_refl fun s _ _ => hf s
    exact hevolves.next s hs
  cases h with
  | sessionAdded => exact ⟨s, mem_cons_of_mem _ hs, sessionStep_refl s⟩
  | sessionActive | certified | revoked | issuerRevoked =>
    exact hupdate _ _ fun _ => ⟨rfl, rfl, rfl, rfl⟩
  | _ => exact ⟨s, hs, sessionStep_refl s⟩

/-! ## Along a run -/

/-- The session that a command was enqueued for. -/
def Command.sessionIn (c : Command) (t : Tables) : Prop :=
  ∃ s ∈ t.sessions, s.workerId = c.workerId ∧ s.job = c.job ∧ s.attempt = c.attempt

structure CommandInv (t : Tables) : Prop where
  keyed : Keyed Command.id t.commands
  settled : ∀ c ∈ t.commands, c.state.terminal = true → c.leaseExpiresAt = none
  sessions : ∀ c ∈ t.commands, c.sessionIn t

theorem commandInv_empty : CommandInv Tables.empty := by
  refine ⟨nodup_nil, ?_, ?_⟩
  all_goals exact fun _ h => absurd h not_mem_nil

theorem completion_terminal {k : Completion} : k.state.terminal = true := by
  unfold Completion.state
  split <;> rfl

theorem pending_not_terminal (h : c.pending = true) : c.state.terminal = false := by
  unfold Command.pending at h
  cases hstate : c.state with
  | queued | delivered => rfl
  | _ => simp [hstate] at h

theorem CommandStep.owner_eq (h : CommandStep ext t op c c') :
    c'.id = c.id ∧ c'.workerId = c.workerId ∧ c'.job = c.job ∧ c'.attempt = c.attempt := by
  cases h <;> exact ⟨rfl, rfl, rfl, rfl⟩

/-- The same row but for the spelling of the response. -/
def Command.Same (c c' : Command) : Prop :=
  ∃ response : Option Jsonb, c' = { c with response := response } ∧
    response.map Jsonb.value = c.response.map Jsonb.value

theorem Command.Same.refl (c : Command) : c.Same c :=
  ⟨c.response, rfl, rfl⟩

theorem Command.Same.trans {c'' : Command} (h : c.Same c') (h' : c'.Same c'') : c.Same c'' := by
  rcases h with ⟨response, rfl, hvalue⟩
  rcases h' with ⟨response', rfl, hvalue'⟩
  exact ⟨response', rfl, hvalue'.trans hvalue⟩

theorem CommandStep.terminal_same (h : CommandStep ext t op c c') (hdone : c.state.terminal = true)
    (hlease : c.leaseExpiresAt = none) : c.Same c' := by
  cases h with
  | kept => exact .refl c
  | requeued l i lease candidate now hop hstate =>
    rw [hstate] at hdone
    cases hdone
  | delivered l i lease candidate now hop hstate expires =>
    rcases hstate with hstate | hstate
    · rw [hstate] at hdone
      cases hdone
    · rw [hstate] at hdone
      cases hdone
  | canceled reason hop hstate =>
    rw [pending_not_terminal hstate] at hdone
    cases hdone
  | finished l i k now response hop hresponse haccepts =>
    -- the repetition of the report writes an equal response
    simp only [acceptsCompletion, Bool.and_eq_true, Bool.or_eq_true, decide_eq_true_eq] at haccepts
    rcases haccepts.1.1.2 with hdelivered | ⟨⟨hstate, herror⟩, hresp⟩
    · rw [hdelivered] at hdone
      cases hdone
    · exact ⟨response, by rw [Command.finish, ← hstate, ← herror, ← hlease], hresp.symm⟩

theorem CommandStep.ends (h : CommandStep ext t op c c') (hopen : c.state.terminal = false)
    (hdone : c'.state.terminal = true) :
    (∃ l i k now response, op = .completeCommand l i k now ∧ k.response ext.jsonb = .ok response ∧
      k.taskId = c.id ∧ c.state = .delivered ∧ k.deliveryFence = c.deliveryFence ∧
      c' = c.finish k response) ∨
    (op.revokes = true ∧ ∃ reason, c' = c.cancel reason) := by
  cases h with
  | kept =>
    rw [hopen] at hdone
    cases hdone
  | requeued l i lease candidate now hop hstate
  | delivered l i lease candidate now hop hstate expires => cases hdone
  | canceled reason hop hstate => exact .inr ⟨hop, reason, rfl⟩
  | finished l i k now response hop hresponse haccepts =>
    simp only [acceptsCompletion, Bool.and_eq_true, Bool.or_eq_true, decide_eq_true_eq] at haccepts
    have hdelivered : c.state = .delivered := by
      rcases haccepts.1.1.2 with hdelivered | ⟨⟨hstate, _⟩, _⟩
      · exact hdelivered
      · rw [hstate, completion_terminal] at hopen
        cases hopen
    exact .inl ⟨l, i, k, now, response, hop, hresponse, haccepts.1.1.1.1.1.1.1.symm, hdelivered,
      haccepts.1.1.1.2.symm, rfl⟩

theorem CommandStep.settled (h : CommandStep ext t op c c')
    (hsettled : c.state.terminal = true → c.leaseExpiresAt = none)
    (hdone : c'.state.terminal = true) : c'.leaseExpiresAt = none := by
  cases h with
  | kept => exact hsettled hdone
  | requeued | finished | canceled => rfl
  | delivered l i lease candidate now hop hstate expires => cases hdone

theorem CommandInv.change (h : CommandInv t) (hok : GatewayStep ext t op t') : CommandInv t' := by
  have hevolves := evolves_commands h.keyed hok
  have hsessions : ∀ c ∈ t'.commands, c.sessionIn t' := by
    intro c' hc'
    have hold : c'.sessionIn t := by
      rcases hevolves.prior c' hc' with ⟨c, hc, hstep⟩ | ⟨s, hs, task, request, _⟩
      · rcases h.sessions c hc with ⟨s, hs, hworker, hjob, hattempt⟩
        rcases hstep.owner_eq with ⟨_, hworker', hjob', hattempt'⟩
        exact ⟨s, hs, hworker.trans hworker'.symm, hjob.trans hjob'.symm,
          hattempt.trans hattempt'.symm⟩
      · exact ⟨s, hs, rfl, rfl, rfl⟩
    rcases hold with ⟨s, hs, hworker, hjob, hattempt⟩
    rcases session_next hok hs with ⟨s', hs', hstep⟩
    exact ⟨s', hs', hstep.workerId.trans hworker, hstep.job.trans hjob,
      hstep.attempt.trans hattempt⟩
  refine ⟨?_, ?_, hsessions⟩
  · exact keyed_commands h.keyed hok
  · refine fun c' hc' hdone => ?_
    rcases hevolves.prior c' hc' with ⟨c, hc, hstep⟩ | ⟨s, hs, task, request, _⟩
    · exact hstep.settled (h.settled c hc) hdone
    · rfl

theorem CommandInv.step (h : CommandInv t) (op : GatewayOp) : CommandInv (stepGateway ext t op) :=
  h.change (stepGateway_step ext t op)

theorem commandInv_run (h : CommandInv t) {ops : List GatewayOp} :
    CommandInv (run (stepGateway ext) t ops) :=
  run_induction (fun _ op hs => hs.step op) h

theorem CommandInv.final (h : CommandInv t) (hc : c ∈ t.commands) (hdone : c.state.terminal = true)
    (later : List GatewayOp) : ∃ c' ∈ (run (stepGateway ext) t later).commands, c.Same c' := by
  induction later generalizing t c with
  | nil => exact ⟨c, hc, .refl c⟩
  | cons op later ih =>
    have hstep := stepGateway_step ext t op
    rcases (evolves_commands h.keyed hstep).next c hc with ⟨c', hc', hchange⟩
    have hsame := hchange.terminal_same hdone (h.settled c hc hdone)
    have hdone' : c'.state.terminal = true := by
      rcases hsame with ⟨_, rfl, _⟩
      exact hdone
    rcases ih (h.step op) hc' hdone' with ⟨c'', hc'', hlater⟩
    exact ⟨c'', hc'', hsame.trans hlater⟩

theorem session_run {s : Session} (hs : s ∈ t.sessions) {later : List GatewayOp} :
    ∃ s' ∈ (run (stepGateway ext) t later).sessions, SessionStep s s' := by
  induction later generalizing t s with
  | nil => exact ⟨s, hs, sessionStep_refl s⟩
  | cons op later ih =>
    rcases session_next (stepGateway_step ext t op) hs with ⟨k, hk, hstep⟩
    rcases ih hk with ⟨s', hs', hlater⟩
    exact ⟨s', hs', sessionStep_trans hstep hlater⟩

/-! ## Reading results -/

/-- The identity under which the result of a command is read. -/
def Command.readBy (c : Command) (t : Tables) (i : Identity) : Prop :=
  c.workerId = i.workerId ∧ c.job = i.jobId ∧ c.attempt = i.attemptId ∧
    ∃ s ∈ t.sessions, s.workerId = c.workerId ∧ s.fence = i.fenceToken

theorem workerCommandResult_iff (hkeyed : Keyed Command.id t.commands)
    {id : CommandId} {k : CommandResult} :
    workerCommandResult t i id = .ok k ↔
      ∃ c ∈ t.commands, c.id = id ∧ c.readBy t i ∧ c.state.terminal = true ∧ k = c.result := by
  have hselects : ∀ c : Command, (c.id = id && c.workerId = i.workerId && c.job = i.jobId &&
      c.attempt = i.attemptId && t.sessions.any fun s => s.workerId = c.workerId &&
        s.fence = i.fenceToken) = true ↔ c.id = id ∧ c.readBy t i := by
    intro c
    simp only [Command.readBy, Bool.and_eq_true, decide_eq_true_eq, any_eq_true, and_assoc]
  unfold workerCommandResult
  cases hfind : t.commands.find? fun c => c.id = id && c.workerId = i.workerId && c.job = i.jobId &&
      c.attempt = i.attemptId && t.sessions.any fun s => s.workerId = c.workerId &&
        s.fence = i.fenceToken with
  | none =>
    constructor
    · nofun
    · rintro ⟨c, hc, hid, hread, _⟩
      exact absurd ((hselects c).mpr ⟨hid, hread⟩) (find?_eq_none.mp hfind c hc)
  | some found =>
    have hmem := mem_of_find?_eq_some hfind
    have hfound := find?_some hfind
    rcases (hselects found).mp hfound with ⟨hid, hread⟩
    dsimp only
    constructor
    · intro h
      by_cases hdone : found.state.terminal = true
      · rw [if_pos hdone] at h
        cases h
        exact ⟨found, hmem, hid, hread, hdone, rfl⟩
      · rw [if_neg hdone] at h
        cases h
    · rintro ⟨c, hc, hid', _, hdone, rfl⟩
      rw [hkeyed.eq hc hmem (hid'.trans hid.symm)] at hdone ⊢
      rw [if_pos hdone]

/-- The same result but for the spelling of the response. -/
def CommandResult.Same (k k' : CommandResult) : Prop :=
  ∃ response : Option Jsonb, k' = { k with response := response } ∧
    response.map Jsonb.value = k.response.map Jsonb.value

/-- The results in a state: a command has one row and, once it has ended, keeps its result; it ends by a
report under the delivery fence that is current, or by a revocation; a report that is accepted is what
is read next; and what is read as a result is read ever after.  A result is kept as a JSON value, not
as a text. -/
structure ResultsSound (ext : Externals) (t : Tables) : Prop where
  single : ∀ c ∈ t.commands, ∀ c' ∈ t.commands, c.id = c'.id → c = c'
  final : ∀ c ∈ t.commands, c.state.terminal = true → ∀ later,
    ∃ c' ∈ (run (stepGateway ext) t later).commands, c.Same c'
  submitted : ∀ op, ∀ c' ∈ (stepGateway ext t op).commands, c'.state.terminal = true →
    (∃ c ∈ t.commands, c.state.terminal = true ∧ c.Same c') ∨
    ∃ c ∈ t.commands, c.id = c'.id ∧ c.state.terminal = false ∧
      ((∃ l i k now response, op = .completeCommand l i k now ∧
          k.response ext.jsonb = .ok response ∧ k.taskId = c.id ∧ c.state = .delivered ∧
          k.deliveryFence = c.deliveryFence ∧ c' = c.finish k response) ∨
        (op.revokes = true ∧ ∃ reason, c' = c.cancel reason))
  accepted : ∀ l i k now t', completeWorkerCommand ext.jsonb l t i k now = .ok t' →
    ∃ response, k.response ext.jsonb = .ok response ∧
      workerCommandResult t' i k.taskId = .ok ⟨k.taskId, k.deliveryFence, response, k.error⟩
  readable : ∀ c ∈ t.commands, c.state.terminal = true →
    ∃ i, workerCommandResult t i c.id = .ok c.result
  returned : ∀ i id k, workerCommandResult t i id = .ok k → ∀ later,
    ∃ k', workerCommandResult (run (stepGateway ext) t later) i id = .ok k' ∧ k.Same k'

theorem CommandInv.accepted (h : CommandInv t) {l : Ledger} {k : Completion} {now : Time}
    (hok : completeWorkerCommand ext.jsonb l t i k now = .ok t') :
    ∃ response, k.response ext.jsonb = .ok response ∧
      workerCommandResult t' i k.taskId = .ok ⟨k.taskId, k.deliveryFence, response, k.error⟩ := by
  replace hok := passed (passed hok)
  rcases bind_eq_ok.mp hok with ⟨response, hresponse, hok⟩
  rw [require_bind_eq_ok] at hok
  rcases hok with ⟨hany, hok⟩
  rcases any_eq_true.mp hany with ⟨c, hc, haccepts⟩
  cases hok
  have hkeyed : Keyed Command.id (update (acceptsCompletion l t i k response now)
      (Command.finish k response) t.commands) := h.keyed.update fun _ => rfl
  refine ⟨response, hresponse, (workerCommandResult_iff hkeyed).mpr ?_⟩
  have hmem : c.finish k response ∈ update (acceptsCompletion l t i k response now)
      (Command.finish k response) t.commands :=
    mem_update.mpr ⟨c, hc, by rw [if_pos haccepts]⟩
  simp only [acceptsCompletion, Bool.and_eq_true, decide_eq_true_eq, any_eq_true, and_assoc] at haccepts
  rcases haccepts with ⟨hid, hworker, hjob, hattempt, hfence, -, ⟨s, hs, hsession, htoken, -⟩, -⟩
  refine ⟨_, hmem, hid, ⟨hworker, hjob, hattempt, s, hs, hsession, htoken⟩, completion_terminal, ?_⟩
  rw [← hid, ← hfence]
  rfl

theorem CommandInv.sound (h : CommandInv t) : ResultsSound ext t := by
  refine ⟨fun c hc c' hc' hid => h.keyed.eq hc hc' hid, fun c hc hdone later => h.final hc hdone later,
    fun op c' hc' hdone => ?_, fun l i k now t' => h.accepted, ?_, ?_⟩
  · rcases (evolves_commands h.keyed (stepGateway_step ext t op)).prior c' hc' with
      ⟨c, hc, hstep⟩ | ⟨s, hs, task, request, _⟩
    · cases hopen : c.state.terminal with
      | true => exact .inl ⟨c, hc, hopen, hstep.terminal_same hopen (h.settled c hc hopen)⟩
      | false => exact .inr ⟨c, hc, hstep.owner_eq.1.symm, hopen, hstep.ends hopen hdone⟩
    · cases hdone
  · intro c hc hdone
    rcases h.sessions c hc with ⟨s, hs, hworker, _, _⟩
    refine ⟨⟨c.workerId, c.job, c.attempt, s.fence⟩, (workerCommandResult_iff h.keyed).mpr ?_⟩
    exact ⟨c, hc, rfl, ⟨rfl, rfl, rfl, s, hs, hworker, rfl⟩, hdone, rfl⟩
  · intro i id k hresult later
    rcases (workerCommandResult_iff h.keyed).mp hresult with
      ⟨c, hc, hid, ⟨hworker, hjob, hattempt, s, hs, hsession, hfence⟩, hdone, rfl⟩
    rcases session_run hs with ⟨s', hs', hstep⟩
    rcases h.final hc hdone later with ⟨c', hc', response, rfl, hvalue⟩
    refine ⟨_, (workerCommandResult_iff (commandInv_run h).keyed).mpr ⟨_, hc', hid,
      ⟨hworker, hjob, hattempt, s', hs', ?_, ?_⟩, hdone, rfl⟩, response, rfl, hvalue⟩
    · exact hstep.workerId.trans hsession
    · exact hstep.fence.trans hfence

/-- In every state that the gateway's calls reach, each command has at most one result, for good. -/
theorem results_sound_of_run (ext : Externals) (ops : List GatewayOp) :
    ResultsSound ext (run (stepGateway ext) Tables.empty ops) :=
  (commandInv_run commandInv_empty).sound

/-- The worker of the example reports this for command 5. -/
def exampleReport (payload : String) (now : Time) : GatewayOp :=
  .completeCommand exampleLedger exampleIdentity
    { taskId := 5, deliveryFence := 1, payload := some payload, error := "" } now

def reportedOnce : Tables :=
  run (stepGateway exampleExternals) Tables.empty
    [.registerSession exampleLedger exampleIdentity 3000000,
      .enqueueCommand exampleLedger exampleIdentity { id := 5, action := .build, payload := "0" } 3000000,
      .claimCommand exampleLedger exampleIdentity 1000000 5 4000000, exampleReport "1.0" 4500000]

/-- A repeated report may spell the result anew. -/
theorem repeated_report_changes_text :
    let read := fun t => (workerCommandResult t exampleIdentity 5).toOption.bind fun k =>
      k.response.map Jsonb.text
    read reportedOnce = some "1.0" ∧
      read (stepGateway exampleExternals reportedOnce (exampleReport "1.00" 4600000)) =
        some "1.00" := by
  decide +kernel

end PortageEngine.Gateway
