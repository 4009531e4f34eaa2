import PortageEngine.Ledger.Bookkeeping

/-!
# The retry budget

Three places decide whether a job may be tried again: `RetryJob` counts attempt rows, the recovery of
an expired lease looks at the attempt's number, and `allocateAttemptFence` takes the highest number
plus one.  They agree because the attempts of a job are numbered one, two, three in the order they
were made and only the last one can be leased.
-/

namespace PortageEngine.Ledger

open List Library Library.Rows Library.Runs

variable {l l' : Ledger}

/-! ## Numbered attempts -/

def history (l : Ledger) (job : JobId) : List AttemptNumber :=
  (l.attempts.map Attempt.number).filter (·.job = job)

/-- Numbers count up from one without a gap, and fences rise. -/
def Countdown : List AttemptNumber → Prop
  | [] => True
  | n :: older => n.attemptNo = older.length + 1 ∧ (∀ o ∈ older, o.fence < n.fence) ∧
      Countdown older

variable {ns : List AttemptNumber} {status : BuildStatus}

theorem Countdown.attemptNo_le (h : Countdown ns) :
    ∀ n ∈ ns, n.attemptNo ≤ ns.length := by
  induction ns with
  | nil => simp
  | cons n older ih =>
    intro o ho
    rcases mem_cons.mp ho with rfl | ho
    · exact Nat.le_of_eq h.1
    · exact (ih h.2.2 o ho).trans (Nat.le_succ _)

theorem Countdown.rising (h : Countdown ns) :
    ns.Pairwise fun newer older => older.attemptNo < newer.attemptNo ∧ older.fence < newer.fence := by
  induction ns with
  | nil => exact List.Pairwise.nil
  | cons n older ih =>
    refine List.Pairwise.cons ?_ (ih h.2.2)
    intro o ho
    refine ⟨?_, h.2.1 o ho⟩
    rw [h.1]
    exact Nat.lt_succ_of_le (h.2.2.attemptNo_le o ho)

theorem Countdown.foldl_max (h : Countdown ns) :
    (ns.map AttemptNumber.attemptNo).foldl max 0 = ns.length := by
  rw [foldl_eq_foldr]
  refine Nat.le_antisymm (max_le_of_forall_le _ _ ?_) ?_
  · intro n hn
    rcases mem_map.mp hn with ⟨o, ho, rfl⟩
    exact h.attemptNo_le o ho
  · cases ns with
    | nil => exact Nat.zero_le _
    | cons n older =>
      rw [length_cons, ← h.1]
      exact le_max_of_le mem_cons_self (Nat.le_refl _)

theorem map_history (l : Ledger) (job : JobId) {β : Type} (f : AttemptNumber → β) :
    (l.attempts.filter (·.job = job)).map (fun a => f a.number) = (history l job).map f := by
  unfold history
  rw [filter_map, map_map]
  rfl

theorem length_history {job : JobId} :
    (history l job).length = count (·.job = job) l.attempts := by
  have hlength := congrArg List.length (map_history l job AttemptNumber.id)
  rw [length_map, length_map] at hlength
  rw [count_eq_length, hlength]

/-! ## The invariant -/

/-- Attempts are numbered, a leased one is its job's last, and a queued job has attempts left. -/
structure Budgeted (l : Ledger) : Prop where
  numbered : ∀ job, Countdown (history l job)
  newest : ∀ x ∈ l.leases, ∀ a ∈ l.attempts, a.id = x.attempt →
    a.attemptNo = (history l a.job).length
  queued : ∀ j ∈ l.jobs, j.state = .queued → (history l j.id).length < j.maxAttempts

/-- What a job row may become: it keeps its limit and is queued only with attempts left. -/
def JobKept (l : Ledger) (j' : Job) : Prop :=
  ∃ j ∈ l.jobs, j.id = j'.id ∧ j.maxAttempts = j'.maxAttempts ∧
    (j'.state = .queued → j.state = .queued ∨ (history l j.id).length < j.maxAttempts)

structure Steady (l l' : Ledger) : Prop where
  numbers : l'.attempts.map Attempt.number = l.attempts.map Attempt.number
  leases : ∀ x ∈ l'.leases, ∃ y ∈ l.leases, y.attempt = x.attempt
  jobs : ∀ j ∈ l'.jobs, JobKept l j

theorem history_congr (h : l'.attempts.map Attempt.number = l.attempts.map Attempt.number)
    (job : JobId) : history l' job = history l job := by
  unfold history
  rw [h]

theorem Budgeted.steady (h : Budgeted l) (hs : Steady l l') : Budgeted l' := by
  have hhistory := history_congr hs.numbers
  refine ⟨fun job => hhistory job ▸ h.numbered job, ?_, ?_⟩
  · intro x hx a ha hid
    rcases hs.leases x hx with ⟨y, hy, hyx⟩
    have hmem : a.number ∈ l.attempts.map Attempt.number := by
      rw [← hs.numbers]
      exact mem_map_of_mem ha
    rcases mem_map.mp hmem with ⟨b, hb, hnumber⟩
    have hno : b.attemptNo = a.attemptNo := congrArg AttemptNumber.attemptNo hnumber
    have hjob : b.job = a.job := congrArg AttemptNumber.job hnumber
    have hbid : b.id = a.id := congrArg AttemptNumber.id hnumber
    rw [hhistory, ← hno, ← hjob]
    exact h.newest y hy b hb (hbid.trans (hid.trans hyx.symm))
  · intro j hj hqueued
    rcases hs.jobs j hj with ⟨i, hi, hid, hlimit, hstate⟩
    rw [hhistory, ← hid, ← hlimit]
    rcases hstate hqueued with hstate | hleft
    · exact h.queued i hi hstate
    · exact hleft

theorem Steady.trans {l₁ l₂ l₃ : Ledger} (h : Steady l₁ l₂) (h' : Steady l₂ l₃) :
    Steady l₁ l₃ := by
  refine ⟨h'.numbers.trans h.numbers, ?_, ?_⟩
  · intro x hx
    rcases h'.leases x hx with ⟨y, hy, hyx⟩
    rcases h.leases y hy with ⟨z, hz, hzy⟩
    exact ⟨z, hz, hzy.trans hyx⟩
  · intro j hj
    rcases h'.jobs j hj with ⟨i, hi, hid, hlimit, hstate⟩
    rcases h.jobs i hi with ⟨k, hk, hkid, hklimit, hkstate⟩
    refine ⟨k, hk, hkid.trans hid, hklimit.trans hlimit, ?_⟩
    intro hqueued
    rcases hstate hqueued with hqueued | hleft
    · exact hkstate hqueued
    · rw [history_congr h.numbers, ← hkid, ← hklimit] at hleft
      exact .inr hleft

variable {j : Job} {now : Time} {job : JobId} {a : Attempt} {call : ClaimCall}

theorem jobKept_self (hj : j ∈ l.jobs) : JobKept l j :=
  ⟨j, hj, rfl, rfl, .inl⟩

theorem jobs_kept_of_core {jobs : List Job} (h : jobs.map Job.core = l.jobs.map Job.core) :
    ∀ j ∈ jobs, JobKept l j := by
  intro j hj
  have hmem : j.core ∈ l.jobs.map Job.core := h ▸ mem_map_of_mem hj
  rcases mem_map.mp hmem with ⟨i, hi, hcore⟩
  have hid : i.core.id = j.core.id := congrArg Job.id hcore
  have hlimit : i.core.maxAttempts = j.core.maxAttempts := congrArg Job.maxAttempts hcore
  have hstate : i.core.state = j.core.state := congrArg Job.state hcore
  exact ⟨i, hi, hid, hlimit, fun hqueued => .inl (hstate.trans hqueued)⟩

theorem jobs_kept_update {p : Job → Bool} {f : Job → Job}
    (hf : ∀ j, (f j).id = j.id ∧ (f j).maxAttempts = j.maxAttempts)
    (hstate : ∀ j ∈ l.jobs, p j = true → (f j).state = .queued →
      j.state = .queued ∨ (history l j.id).length < j.maxAttempts) :
    ∀ j ∈ update p f l.jobs, JobKept l j := by
  refine forall_update (fun j hj => jobKept_self hj) ?_
  intro j hj hp
  exact ⟨j, hj, (hf j).1.symm, (hf j).2.symm, hstate j hj hp⟩

theorem steady_of_same (hattempts : l'.attempts = l.attempts)
    (hleases : l'.leases.map Lease.attempt = l.leases.map Lease.attempt)
    (hjobs : l'.jobs = l.jobs) : Steady l l' := by
  refine ⟨by rw [hattempts], ?_, ?_⟩
  · intro x hx
    have hmem : x.attempt ∈ l.leases.map Lease.attempt := hleases ▸ mem_map_of_mem hx
    exact mem_map.mp hmem
  · rw [hjobs]
    exact fun j hj => jobKept_self hj

theorem steady_of_update {p : Attempt → Bool} {f : Attempt → Attempt}
    (hattempts : l'.attempts = update p f l.attempts) (hnumber : ∀ a, (f a).number = a.number)
    (hleases : l'.leases = l.leases) (hjobs : ∀ j ∈ l'.jobs, JobKept l j) : Steady l l' := by
  refine ⟨?_, ?_, hjobs⟩
  · rw [hattempts]
    exact map_update hnumber
  · rw [hleases]
    exact fun x hx => ⟨x, hx, rfl⟩

theorem steady_of_release {p : Lease → Bool} (hattempts : l'.attempts = l.attempts)
    (hleases : l'.leases = delete p l.leases) (hjobs : ∀ j ∈ l'.jobs, JobKept l j) :
    Steady l l' := by
  refine ⟨by rw [hattempts], ?_, hjobs⟩
  rw [hleases]
  exact fun x hx => ⟨x, (mem_delete.mp hx).1, rfl⟩

/-! ## Transactions that start no attempt -/

theorem steady_closeAttempt (l : Ledger) (attempt : AttemptId) (terminalState : Status)
    (reason : String) (at_ : Time) :
    Steady l (closeAttempt l attempt terminalState reason at_) := by
  rcases closeAttempt_eq with ⟨jobs, policies, heq, hcore, _⟩
  rw [heq]
  exact steady_of_release rfl rfl (jobs_kept_of_core hcore)

theorem Budgeted.requeue (h : Budgeted l) (hrefs : l.refs.Sound) {row : ExpiredLease}
    (hrow : Loaded l row) (hqueued : (expiredLeaseOutcome row).1 = .queued) (hj : j ∈ l.jobs)
    (hid : j.id = row.job) : (history l j.id).length < j.maxAttempts := by
  rcases hrow.lease with ⟨x, hx, hxrow⟩
  rcases hrow.attempt with ⟨a, ha, haid, hajob, hano⟩
  rcases hrow.job with ⟨i, hi, hiid, hlimit⟩
  have hij : i = j := hrefs.job_unique hi hj (hiid.trans hid.symm)
  have hlast := h.newest x hx a ha (haid.trans hxrow.symm)
  have hleft : row.attemptNo < row.maxAttempts := by
    unfold expiredLeaseOutcome at hqueued
    split at hqueued
    · cases hqueued
    split at hqueued
    · cases hqueued
    · omega
  rw [hid, ← hajob, ← hlast, hano, ← hij, hlimit]
  exact hleft

theorem Budgeted.steady_recoverAll (h : Budgeted l) (hrefs : l.refs.Sound)
    {rows : List ExpiredLease} (hrows : ∀ row ∈ rows, Loaded l row) {l₁ : Ledger}
    (hsteady : Steady l l₁) : Steady l (rows.foldl (recoverExpiredLease now) l₁) := by
  induction rows generalizing l₁ with
  | nil => exact hsteady
  | cons row rows ih =>
    refine ih (fun r hr => hrows r (mem_cons_of_mem _ hr)) ?_
    have hexpire : Steady l₁ (expireAttempt l₁ row.attempt (expiredLeaseOutcome row).2 now) :=
      steady_of_update rfl (fun _ => rfl) rfl fun j hj => jobKept_self hj
    have hclosed := hsteady.trans (hexpire.trans (steady_closeAttempt _ row.attempt .expired
      "lease_expired" now))
    refine ⟨hclosed.numbers, hclosed.leases, ?_⟩
    refine forall_update (fun j hj => hclosed.jobs j hj) ?_
    intro j hj hp
    rcases hclosed.jobs j hj with ⟨i, hi, hid, hlimit, _⟩
    refine ⟨i, hi, hid, hlimit, ?_⟩
    intro hqueued
    exact .inr (h.requeue hrefs (hrows row mem_cons_self) hqueued hi
      (hid.trans (by simpa using hp)))

theorem Budgeted.steady_recoverExpired (h : Budgeted l) (hrefs : l.refs.Sound) (now : Time)
    (locked : AttemptId → Bool) (limit : Nat) : Steady l (recoverExpired l now locked limit) :=
  h.steady_recoverAll hrefs (fun _ hrow => loaded_of_mem hrow)
    (steady_of_same rfl rfl rfl)

theorem steady_recordTransition {previous : Option BuildStatus} {current : BuildStatus}
    {fresh : AttemptId} (hfenced : current.attemptId.isSome = true)
    (hqueued : current.status ≠ .queued)
    (hok : recordTransition l previous current now fresh = .ok l') : Steady l l' := by
  rcases Option.isSome_iff_exists.mp hfenced with ⟨attempt, hattempt⟩
  rcases recordTransition_fenced_ok hattempt hok with rfl | ⟨_, hrecord⟩
  · exact steady_of_same rfl rfl rfl
  have hjobs : ∀ j ∈ (reportJob l current now).jobs, JobKept l j :=
    jobs_kept_update (fun _ => ⟨rfl, rfl⟩) fun j _ _ h => absurd h hqueued
  have hreport : Steady l (reportAttempt (reportJob l current now) current attempt now) :=
    steady_of_update rfl (fun _ => rfl) rfl hjobs
  rcases recordAttemptTransition_frame hrecord with ⟨_, rfl⟩ | ⟨_, q, p, phase, rfl⟩
  · exact hreport.trans (steady_closeAttempt _ attempt current.status _ now)
  · exact hreport.trans (steady_of_same rfl rfl rfl)

theorem steady_closeJob {at_ : Time} : Steady l (closeJob l job at_) := by
  rcases settleJobAttemptUsage_eq with ⟨jobs, policies, heq, hcore, _⟩
  unfold closeJob
  rw [heq]
  exact steady_of_release rfl rfl (jobs_kept_of_core hcore)

theorem steady_cancelJob {reason : String}
    (hok : cancelJob l job reason now = .ok (l', status)) : Steady l l' := by
  rcases cancelJob_ok hok with ⟨_, _, _, _, rfl, _⟩
  refine Steady.trans ?_ (steady_closeJob)
  refine steady_of_update rfl (fun _ => rfl) rfl (jobs_kept_update (fun _ => ⟨rfl, rfl⟩) ?_)
  exact fun _ _ _ h => nomatch h

theorem steady_retryJob (hrefs : l.refs.Sound) {counted : Nat}
    (hcounted : count (·.job = job) l.attempts ≤ counted)
    (hok : retryJob l job counted now = .ok (l', status)) : Steady l l' := by
  rcases retryJob_ok hok with ⟨j, hj, hid, _, hleft, rfl, _⟩
  refine ⟨rfl, fun x hx => ⟨x, hx, rfl⟩, ?_⟩
  refine jobs_kept_update (fun _ => ⟨rfl, rfl⟩) ?_
  intro i hi hp _
  have hij : i = j := hrefs.job_unique hi hj (by simpa [hid] using hp)
  rw [hij, length_history, hid]
  exact .inr (hcounted.trans_lt hleft)

theorem steady_finishPhaseAttempt {items : List PhaseItem} {claim : PhaseClaim}
    {status : StoredStatus} {detail : String} {at_ : Time} (hqueued : status.status ≠ .queued)
    (hok : finishPhaseAttempt { l with items := items } claim status detail at_ = .ok l') :
    Steady l l' := by
  rcases finishPhaseAttempt_ok hok with ⟨_, rfl⟩
  have hrow : Steady l (finishAttemptRow { l with items := items } claim status detail at_) :=
    steady_of_update rfl (fun _ => rfl) rfl fun j hj => jobKept_self hj
  rcases releasePhaseAttempt_eq with ⟨jobs, policies, heq, hcore, _⟩
  rw [heq]
  refine hrow.trans (steady_of_release rfl rfl ?_)
  refine forall_update (fun j hj => jobs_kept_of_core hcore j hj) ?_
  intro j hj _
  rcases jobs_kept_of_core hcore j hj with ⟨i, hi, hid, hlimit, _⟩
  exact ⟨i, hi, hid, hlimit, fun h => absurd h hqueued⟩

/-! ## Transactions that start an attempt -/

/-- An attempt is added under the next number of its job, which is not queued and has no lease of
its own so far. -/
structure Hires (l l' : Ledger) (a : Attempt) : Prop where
  attempts : l'.attempts = a :: l.attempts
  fresh : ∀ b ∈ l.attempts, b.id ≠ a.id
  attemptNo : a.attemptNo = (history l a.job).length + 1
  fence : ∀ n ∈ history l a.job, n.fence < a.fence
  leases : ∀ x ∈ l'.leases, x.attempt = a.id ∨
    (∃ y ∈ l.leases, y.attempt = x.attempt) ∧ ∀ b ∈ l.attempts, b.id = x.attempt → b.job ≠ a.job
  jobs : ∀ j ∈ l'.jobs, j.state = .queued → j.id ≠ a.job ∧
    ∃ i ∈ l.jobs, i.id = j.id ∧ i.maxAttempts = j.maxAttempts ∧ i.state = .queued

theorem Hires.history_self (h : Hires l l' a) :
    history l' a.job = a.number :: history l a.job := by
  unfold history
  rw [h.attempts, map_cons, filter_cons_of_pos (by simp [Attempt.number])]

theorem Hires.history_other (h : Hires l l' a) (hne : job ≠ a.job) :
    history l' job = history l job := by
  unfold history
  rw [h.attempts, map_cons, filter_cons_of_neg (by simp [Attempt.number, Ne.symm hne])]

/-- The budget is kept, and attempts are only added on top of those made before. -/
structure Continues (l l' : Ledger) : Prop where
  budgeted : Budgeted l'
  grows : ∃ newer, l'.attempts.map Attempt.number = newer ++ l.attempts.map Attempt.number

theorem Continues.trans {l₁ l₂ l₃ : Ledger} (h : Continues l₁ l₂) (h' : Continues l₂ l₃) :
    Continues l₁ l₃ := by
  rcases h.grows with ⟨newer, hnewer⟩
  rcases h'.grows with ⟨newest, hnewest⟩
  refine ⟨h'.budgeted, newest ++ newer, ?_⟩
  rw [hnewest, hnewer, append_assoc]

theorem Budgeted.continues (h : Budgeted l) (hs : Steady l l') : Continues l l' :=
  ⟨h.steady hs, [], hs.numbers⟩

theorem Budgeted.hires (h : Budgeted l) (hh : Hires l l' a) : Continues l l' := by
  refine ⟨⟨?_, ?_, ?_⟩, [a.number], by rw [hh.attempts]; rfl⟩
  · intro job
    by_cases hjob : job = a.job
    · subst hjob
      rw [hh.history_self]
      exact ⟨hh.attemptNo, hh.fence, h.numbered a.job⟩
    · rw [hh.history_other hjob]
      exact h.numbered job
  · intro x hx b hb hid
    rw [hh.attempts] at hb
    rcases mem_cons.mp hb with rfl | hb
    · rw [hh.history_self]
      exact hh.attemptNo
    rcases hh.leases x hx with hnew | ⟨⟨y, hy, hyx⟩, hother⟩
    · exact absurd (hid.trans hnew) (hh.fresh b hb)
    · rw [hh.history_other (hother b hb hid)]
      exact h.newest y hy b hb (hid.trans hyx.symm)
  · intro j hj hqueued
    rcases hh.jobs j hj hqueued with ⟨hne, i, hi, hid, hlimit, hstate⟩
    rw [hh.history_other hne, ← hid, ← hlimit]
    exact h.queued i hi hstate

theorem attempts_new (hrefs : l.refs.Sound) (hnew : ∀ j ∈ l.jobs, j.id ≠ job) :
    ∀ a ∈ l.attempts, a.job ≠ job := by
  intro a ha hjob
  have hmem : (a.id, a.job) ∈ l.refs.attempts := mem_map_of_mem ha
  rcases hrefs.attempts_job _ hmem with ⟨k, hk, hid⟩
  rcases mem_map.mp hk with ⟨j, hj, rfl⟩
  exact hnew j hj (hid.trans hjob)

theorem history_eq_nil (h : ∀ a ∈ l.attempts, a.job ≠ job) : history l job = [] := by
  refine filter_eq_nil_iff.mpr ?_
  intro n hn hjob
  rcases mem_map.mp hn with ⟨a, ha, rfl⟩
  exact h a ha (of_decide_eq_true hjob)

theorem Budgeted.createJob (h : Budgeted l) (hrefs : l.refs.Sound) {call : CreateCall}
    (hok : createJob l call = .ok l') : Continues l l' := by
  rcases createJob_ok hok with rfl | ⟨hnew, hcases⟩
  · exact ⟨h, [], rfl⟩
  have hother := attempts_new hrefs hnew
  have hnone := history_eq_nil hother
  rcases hcases with ⟨_, rfl⟩ | ⟨⟨hstate, hfresh⟩, rfl⟩
  · refine ⟨⟨h.numbered, h.newest, ?_⟩, [], rfl⟩
    intro j hj hqueued
    rcases mem_cons.mp hj with rfl | hj
    · have hlength : (history l (newJob call).id).length = 0 := congrArg List.length hnone
      exact hlength ▸ (by decide : 0 < defaultMaxAttempts)
    · exact h.queued j hj hqueued
  · have hunknown : (l.attempts.any fun a =>
        a.job = call.status.jobId && a.attemptNo = 1) = false := by
      rw [any_eq_false]
      intro a ha hjob
      simp only [Bool.and_eq_true, decide_eq_true_eq] at hjob
      exact hother a ha hjob.1
    unfold upsertAttemptSnapshot
    simp only [hunknown, Bool.false_eq_true, if_false]
    refine h.hires ⟨rfl, hfresh, ?_, ?_, ?_, ?_⟩
    · rw [hnone]
      rfl
    · rw [hnone]
      exact fun n hn => nomatch hn
    · exact fun x hx => .inr ⟨⟨x, hx, rfl⟩, fun b hb _ => hother b hb⟩
    · intro j hj hqueued
      rcases mem_cons.mp hj with rfl | hj
      · exact absurd hqueued hstate
      · exact ⟨hnew j hj, j, hj, rfl, rfl, hqueued⟩

/-! ## Claims -/

theorem Budgeted.allocates (h : Budgeted l) (hj : j ∈ l.jobs) (hqueued : j.state = .queued) :
    ∃ fence, allocateAttemptFence l j = .ok ((history l j.id).length + 1, fence) ∧
      ∀ n ∈ history l j.id, n.fence < fence := by
  refine ⟨((l.attempts.filter (·.job = j.id)).map (·.fence)).foldl max 0 + 1, ?_, ?_⟩
  · have hno : ((l.attempts.filter (·.job = j.id)).map (·.attemptNo)).foldl max 0 =
        (history l j.id).length := by
      rw [← (h.numbered j.id).foldl_max]
      exact congrArg (List.foldl max 0) (map_history l j.id AttemptNumber.attemptNo)
    unfold allocateAttemptFence
    dsimp only
    rw [hno]
    exact require_bind_eq_ok.mpr ⟨decide_eq_true (h.queued j hj hqueued), rfl⟩
  · intro n hn
    have hfences : (l.attempts.filter (·.job = j.id)).map (·.fence) =
        (history l j.id).map AttemptNumber.fence := map_history l j.id AttemptNumber.fence
    rw [hfences, foldl_eq_foldr]
    exact Nat.lt_succ_of_le (le_max_of_le' 0 (mem_map_of_mem hn) (Nat.le_refl _))

theorem Balanced.unleased_of_queued (h : Balanced (fun j => !j.idle) l) (hj : j ∈ l.jobs)
    (hqueued : j.state = .queued) {x : Lease} (hx : x ∈ l.leases) (ha : a ∈ l.attempts)
    (hid : a.id = x.attempt) : a.job ≠ j.id := by
  intro hjob
  rcases h.workable ⟨x, hx, rfl⟩ ⟨a, ha, hid, hjob⟩ with ⟨i, hi, hij, hbusy⟩
  rw [h.refs.job_unique hi hj hij] at hbusy
  simp [Job.idle, hqueued] at hbusy

theorem claimable_queued (h : claimable l call j = true) :
    j.state = .queued := by
  simp only [claimable, Bool.and_eq_true, decide_eq_true_eq] at h
  exact h.1.1.1.1.1

theorem Budgeted.startAttempt (h : Budgeted l) (hbalanced : Balanced (fun j => !j.idle) l)
    {charge : Charge} {attemptNo fence : Nat}
    (hstart : ClaimStarted l call j charge attemptNo fence) :
    Continues l (startAttempt l call j charge attemptNo fence) := by
  have hqueued := claimable_queued hstart.isClaimable
  rcases h.allocates hstart.mem hqueued with ⟨fence', hallocated, hfence⟩
  rw [hstart.allocated] at hallocated
  cases hallocated
  refine h.hires ⟨rfl, (freshIds_spec hstart.fresh).1, rfl, hfence, ?_, ?_⟩
  · intro x hx
    rcases mem_cons.mp hx with rfl | hx
    · exact .inl rfl
    · exact .inr ⟨⟨x, hx, rfl⟩, fun b hb hid =>
        hbalanced.unleased_of_queued hstart.mem hqueued hx hb hid⟩
  · intro i hi histate
    rcases mem_update_cases hi with ⟨k, hk, _, rfl⟩ | ⟨hi, hij⟩
    · simp [claimJobRow] at histate
    · exact ⟨of_decide_eq_false hij, i, hi, rfl, rfl, histate⟩

theorem Budgeted.claimNext (h : Budgeted l) (hbalanced : Balanced (fun j => !j.idle) l)
    {claim : Option SchedulerClaim} (hok : claimNext l call = .ok (l', claim)) :
    Continues l l' := by
  have hrecovered := h.continues (h.steady_recoverExpired hbalanced.refs call.recoveredAt call.locked
    schedulerRecoveryBatch)
  rcases claimNextTx_ok (claimNext_ok hok) with
    ⟨rfl, _⟩ | ⟨job, retryAt, rfl, _⟩ | ⟨j, charge, attemptNo, fence, hstart, rfl, _⟩
  · exact hrecovered
  · refine hrecovered.trans (hrecovered.budgeted.continues ⟨rfl, fun x hx => ⟨x, hx, rfl⟩, ?_⟩)
    refine jobs_kept_update (fun _ => ⟨rfl, rfl⟩) ?_
    exact fun _ _ _ hqueued => .inl hqueued
  · exact hrecovered.trans (hrecovered.budgeted.startAttempt
      (hbalanced.recoverExpired call.recoveredAt call.locked schedulerRecoveryBatch) hstart)

/-! ## Runs -/

/-- A retry has counted all attempts that its job has had. -/
def Op.CountsAll (l : Ledger) : Op → Prop
  | .retry job counted _ => count (·.job = job) l.attempts ≤ counted
  | _ => True

instance (l : Ledger) : ∀ op : Op, Decidable (op.CountsAll l)
  | .retry _ _ _ => inferInstanceAs (Decidable (_ ≤ _))
  | .create _ | .claim _ | .renew _ _ _ | .record _ _ _ _ | .recover _ _ _ | .cancel _ _ _
  | .activate _ _ | .claimPhase _ | .renewPhase _ _ _ | .finishPhase _ _ _ | .finalize _ _ _ _ _
  | .failPhase _ _ _ _ _ | .artifactBudget _ _ | .setGeneration _ _ _ _ | .releaseGeneration _ _ _
  | .releaseBudget _ _ => isTrue trivial

/-- A committed transaction whose report, if it makes one, is fenced and does not say `queued`. -/
theorem Budgeted.run (h : Budgeted l) (hbalanced : Balanced (fun j => !j.idle) l) {op : Op}
    {claim : Option PhaseClaim} (hfenced : op.Fenced) (hqueued : ¬ op.ReportsQueued)
    (hcounts : op.CountsAll l) (hok : op.run l = .ok (l', claim)) : Continues l l' := by
  cases op.commits hok with
  | create call hk =>
    exact h.createJob hbalanced.refs hk
  | claim call c hk =>
    exact h.claimNext hbalanced hk
  | renew status leaseDuration now hk =>
    rcases renewClaim_ok hk with ⟨attempt, u, _, _, rfl⟩
    refine h.continues (steady_of_same rfl ?_ rfl)
    exact map_update fun _ => rfl
  | record previous current now fresh hk =>
    exact h.continues (steady_recordTransition (hfenced current rfl)
      (fun hq => hqueued ⟨current, rfl, hq⟩) hk)
  | recover now locked limit =>
    exact h.continues (h.steady_recoverExpired hbalanced.refs now locked limit)
  | cancel job reason now status hk =>
    exact h.continues (steady_cancelJob hk)
  | retry job counted now status hk =>
    exact h.continues (steady_retryJob hbalanced.refs hcounts hk)
  | activate status now hk =>
    rcases activatePhasePlan_ok hk with ⟨attempt, rfl⟩
    exact h.continues (steady_of_same rfl rfl rfl)
  | claimPhase call hk =>
    rcases claimPhaseWork_frame hk with ⟨_, _, _, rfl⟩
    exact h.continues (steady_of_same rfl rfl rfl)
  | renewPhase c lease now hk =>
    rcases renewPhaseWork_ok hk with ⟨u, _, rfl⟩
    refine h.continues (steady_of_same rfl ?_ rfl)
    exact map_update fun _ => rfl
  | finishPhase c outcome now hk =>
    rcases finishPhaseWork_ok hk with ⟨i, _, _, rfl⟩
    exact h.continues (steady_of_same rfl rfl rfl)
  | finalize c previous completed now at_ hk =>
    rcases finalizePhaseWork_ok hk with ⟨_, hcompleted, _, hfinish⟩
    refine h.continues (steady_finishPhaseAttempt ?_ hfinish)
    simp [hcompleted]
  | failPhase c previous detail now at_ hk =>
    rcases failPhaseWorkAndJob_ok hk with ⟨_, failed, hfailed, hfinish⟩
    refine h.continues (steady_finishPhaseAttempt ?_ hfinish)
    simp [hfailed]
  | budget hk =>
    rcases hk.frame with ⟨budgets, generations, rfl⟩
    exact h.continues (steady_of_same rfl rfl rfl)

/-- The books are balanced and the retry budget is kept. -/
structure BudgetInv (s : System) : Prop where
  inv : Inv (fun j => !j.idle) s
  budgeted : Budgeted s.ledger

theorem budgetInv_init (policies : List Policy) : BudgetInv (System.init policies) := by
  refine ⟨inv_init busy_not_idle policies, fun _ => trivial, ?_, ?_⟩
  all_goals exact fun _ hx => absurd hx not_mem_nil

variable {s : System}

theorem BudgetInv.step (h : BudgetInv s) {op : Op} (hfenced : op.Fenced)
    (hqueued : ¬ op.ReportsQueued) (hcounts : op.CountsAll s.ledger) :
    BudgetInv (step s op) ∧ Continues s.ledger (step s op).ledger := by
  have hinv := h.inv.step (op.respects_not_idle hfenced hqueued)
  have hcontinues : Continues s.ledger (Ledger.step s op).ledger := by
    rcases step_cases s op with heq | ⟨l, claim, hok, _, heq⟩
    · rw [heq]
      exact ⟨h.budgeted, [], rfl⟩
    · rw [heq]
      exact h.budgeted.run h.inv.balanced hfenced hqueued hcounts hok
  exact ⟨⟨hinv, hcontinues.budgeted⟩, hcontinues⟩

theorem BudgetInv.run (h : BudgetInv s) {ops : List Op}
    (hfenced : ∀ op ∈ ops, op.Fenced) (hqueued : ∀ op ∈ ops, ¬ op.ReportsQueued)
    (hcounts : Along Ledger.step (fun s op => op.CountsAll s.ledger) s ops) :
    BudgetInv (run Ledger.step s ops) ∧ Continues s.ledger (run Ledger.step s ops).ledger := by
  have hstep : ∀ t op, (BudgetInv t ∧ Continues s.ledger t.ledger) →
      (op.Fenced ∧ ¬ op.ReportsQueued) ∧ op.CountsAll t.ledger →
      BudgetInv (Ledger.step t op) ∧ Continues s.ledger (Ledger.step t op).ledger := by
    rintro t op ⟨hinv, hcontinues⟩ ⟨⟨hf, hq⟩, hc⟩
    exact ⟨(hinv.step hf hq hc).1, hcontinues.trans (hinv.step hf hq hc).2⟩
  exact run_invariant hstep ⟨h, h.budgeted, [], rfl⟩
    ((along_of_forall fun op hop => ⟨hfenced op hop, hqueued op hop⟩).and hcounts)

/-- The retry budget of a state: a queued job has had fewer attempts than its maximum, `ClaimNext`
finds a number for the job it selects, and the attempts of a job carry rising numbers and fences. -/
structure RetryBudget (l : Ledger) : Prop where
  queued : ∀ j ∈ l.jobs, j.visible = true → j.state = .queued →
    count (·.job = j.id) l.attempts < j.maxAttempts
  allocates : ∀ call : ClaimCall, ∀ j : Job,
    let recovered := recoverExpired l call.recoveredAt call.locked schedulerRecoveryBatch
    j ∈ recovered.jobs → claimable recovered call j = true →
      ∃ number, allocateAttemptFence recovered j = .ok number
  rising : ∀ job, ((l.attempts.map Attempt.number).filter (·.job = job)).Pairwise
    fun newer older => older.attemptNo < newer.attemptNo ∧ older.fence < newer.fence

theorem BudgetInv.retryBudget (h : BudgetInv s) : RetryBudget s.ledger := by
  refine ⟨?_, ?_, fun job => (h.budgeted.numbered job).rising⟩
  · intro j hj _ hqueued
    rw [← length_history]
    exact h.budgeted.queued j hj hqueued
  · intro call j recovered hj hclaimable
    have hrecovered : Budgeted recovered := h.budgeted.steady
      (h.budgeted.steady_recoverExpired h.inv.balanced.refs call.recoveredAt call.locked
        schedulerRecoveryBatch)
    rcases hrecovered.allocates hj (claimable_queued hclaimable) with ⟨fence, hallocated, _⟩
    exact ⟨_, hallocated⟩

/-- In every run in which no report is unfenced or says `queued`, in particular in every run of
creations, claims, lease expiries, cancellations and retries, and in which every retry has counted
the attempts of the state it commits in, the retry budget is kept in every state, and the attempts of
a state keep their numbers while later ones come on top. -/
theorem retryBudget_of_run (policies : List Policy) (ops later : List Op)
    (hfenced : ∀ op ∈ ops ++ later, op.Fenced)
    (hqueued : ∀ op ∈ ops ++ later, ¬ op.ReportsQueued)
    (hcounts : Along step (fun s op => op.CountsAll s.ledger) (System.init policies) (ops ++ later)) :
    let s := run step (System.init policies) ops
    RetryBudget s.ledger ∧ ∃ newer, (run step s later).ledger.attempts.map Attempt.number =
      newer ++ s.ledger.attempts.map Attempt.number := by
  have hs := (budgetInv_init policies).run
    (fun op hop => hfenced op (mem_append_left _ hop))
    (fun op hop => hqueued op (mem_append_left _ hop)) (along_append.mp hcounts).1
  have hlater := hs.1.run (fun op hop => hfenced op (mem_append_right _ hop))
    (fun op hop => hqueued op (mem_append_right _ hop)) (along_append.mp hcounts).2
  exact ⟨hs.1.retryBudget, hlater.2.grows⟩

/-- A job is claimed, loses its lease, is canceled and retried. -/
def retriedRun : List Op :=
  [exampleCreate 1 0, exampleClaim 1 1 0, .recover 90000000 (fun _ => false) 32,
    .cancel 1 "no longer needed" 91000000, .retry 1 1 92000000]

/-- The retried job has one attempt behind it and gets its second one. -/
theorem retryBudget_retried :
    let s := run step (System.init [examplePolicy]) retriedRun
    (s.ledger.jobs.any fun j => j.state = .queued) = true ∧ RetryBudget s.ledger ∧
      (run step s [exampleClaim 1 2 93000000]).ledger.attempts.length = 2 := by
  have hreports : ∀ op ∈ retriedRun ++ [exampleClaim 1 2 93000000], op.reports = none := by
    simp [retriedRun, exampleCreate, exampleClaim, Op.reports]
  refine ⟨by decide +kernel, ?_, by decide +kernel⟩
  refine (retryBudget_of_run [examplePolicy] retriedRun [exampleClaim 1 2 93000000] ?_ ?_
    (by decide +kernel)).1
  · intro op hop current hcurrent
    rw [hreports op hop] at hcurrent
    cases hcurrent
  · rintro op hop ⟨current, hcurrent, _⟩
    rw [hreports op hop] at hcurrent
    cases hcurrent

/-- A job that has lost two leases and is queued for its third and last attempt. -/
def lastAttemptRun : List Op :=
  [exampleCreate 1 0, exampleClaim 1 1 0, .recover 90000000 (fun _ => false) 32,
    exampleClaim 1 2 91000000, .recover 180000000 (fun _ => false) 32]

/-- A retry that counts the attempts while the third one is being claimed, and gets the row when that
one has been canceled, queues the job without an attempt left: the next claim fails. -/
theorem overlapping_retry_overspends :
    let waiting := run step (System.init [examplePolicy]) lastAttemptRun
    let counted := count (·.job = 1) waiting.ledger.attempts
    let s := run step waiting [exampleClaim 1 3 181000000, .cancel 1 "operator" 182000000,
      .retry 1 counted 183000000]
    ¬ RetryBudget s.ledger ∧
      (claimNext s.ledger (exampleClaimCall 1 4 184000000)).toOption.isNone = true := by
  intro waiting counted s
  refine ⟨fun h => ?_, by decide +kernel⟩
  have hspent : (s.ledger.jobs.any fun j => j.visible && j.state = .queued &&
      j.maxAttempts ≤ count (·.job = j.id) s.ledger.attempts) = true := by decide +kernel
  simp only [any_eq_true, Bool.and_eq_true, decide_eq_true_eq] at hspent
  rcases hspent with ⟨j, hj, ⟨hvisible, hqueued⟩, hle⟩
  exact absurd (h.queued j hj hvisible hqueued) (Nat.not_lt.mpr hle)

end PortageEngine.Ledger
