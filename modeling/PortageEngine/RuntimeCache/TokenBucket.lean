import Mathlib

/-!
# The shared token bucket

Every replica asks Redis before it serves a request.  The script runs atomically on the hash of one
identity: it refills the tokens that have accrued since the last call, takes one if there is one, and
sets the time after which Redis forgets the hash.  Times are in seconds.  The script computes with
doubles; here its numbers are rational, so what rounding adds or takes away is not modelled.
-/

namespace PortageEngine.RuntimeCache

/-- The hash of an identity, and when its key is lost. -/
structure TokenBucket where
  tokens : ℚ
  updated : ℚ
  expires : ℚ

structure Limit where
  rate : ℚ
  capacity : ℚ
  rate_pos : 0 < rate
  capacity_pos : 0 < capacity

section Script

variable (l : Limit)

def timeToLive : ℚ :=
  max 60 (⌈l.capacity / l.rate⌉ * 2)

/-- The tokens at a call, from the fields that `HMGET` returns. -/
def refilled (now : ℚ) (key : Option TokenBucket) : ℚ :=
  let tokens := (key.map TokenBucket.tokens).getD l.capacity
  let updated := (key.map TokenBucket.updated).getD now
  min l.capacity (tokens + max 0 (now - updated) * l.rate)

/-- The script `tokenBucket`: its answer and what it leaves. -/
def tokenBucket (now : ℚ) (key : Option TokenBucket) : Bool × TokenBucket :=
  let tokens := refilled l now key
  let allowed := decide (1 ≤ tokens)
  (allowed, {
    tokens := if allowed then tokens - 1 else tokens
    updated := now
    expires := now + timeToLive l })

/-- The calls at the given times, each with its answer; `found` is what a call finds of the key that
the last one left. -/
def answers (found : ℚ → Option TokenBucket → Option TokenBucket) :
    Option TokenBucket → List ℚ → List (ℚ × Bool)
  | _, [] => []
  | key, now :: times =>
    let r := tokenBucket l now (found now key)
    (now, r.1) :: answers found (some r.2) times

end Script

/-- The key is lost when its time to live is over. -/
def expiring (now : ℚ) (key : Option TokenBucket) : Option TokenBucket :=
  key.filter fun k => now < k.expires

def kept (_ : ℚ) (key : Option TokenBucket) : Option TokenBucket :=
  key

theorem limit_pos {perMinute burst : Int} (h : ¬ (perMinute ≤ 0 ∨ burst ≤ 0)) :
    (0 : ℚ) < perMinute / 60 ∧ (0 : ℚ) < burst := by
  rw [not_or, not_le, not_le] at h
  exact ⟨div_pos (Int.cast_pos.mpr h.1) (by norm_num), Int.cast_pos.mpr h.2⟩

/-- `Client.Allow` at the given times, for one identity. -/
def allow (perMinute burst : Int) (found : ℚ → Option TokenBucket → Option TokenBucket)
    (times : List ℚ) : List (ℚ × Bool) :=
  if h : perMinute ≤ 0 ∨ burst ≤ 0 then times.map (·, true)
  else answers ⟨perMinute / 60, burst, (limit_pos h).1, (limit_pos h).2⟩ found none times

/-- A request that was allowed in the window. -/
def allowedIn (start stop : ℚ) (x : ℚ × Bool) : Bool :=
  x.2 && start ≤ x.1 && x.1 ≤ stop

/-- The hash holds no debt, and its time to live counts from the last call. -/
structure Sound (l : Limit) (key : TokenBucket) : Prop where
  nonneg : 0 ≤ key.tokens
  expires_eq : key.expires = key.updated + timeToLive l

section Bound

variable {l : Limit} {now start stop : ℚ} {key : Option TokenBucket} {times : List ℚ}

theorem refilled_le (h : start ≤ now) :
    refilled l now key ≤ refilled l start key + (now - start) * l.rate := by
  have haccrues := mul_nonneg (sub_nonneg.mpr h) l.rate_pos.le
  rcases key with _ | k
  · simpa [refilled] using haccrues
  have hmax : max 0 (now - k.updated) ≤ max 0 (start - k.updated) + (now - start) :=
    max_le (add_nonneg (le_max_left _ _) (sub_nonneg.mpr h))
      (by linarith [le_max_right 0 (start - k.updated)])
  have hmul := mul_le_mul_of_nonneg_right hmax l.rate_pos.le
  simp only [refilled, Option.map_some, Option.getD_some]
  rw [← min_add_add_right]
  exact le_min (min_le_of_left_le (by linarith)) (min_le_of_right_le (by linarith))

/-- The time to live is never shorter than the time to refill. -/
theorem capacity_le : l.capacity ≤ timeToLive l * l.rate := by
  rw [← div_le_iff₀ l.rate_pos]
  have hceil := Int.le_ceil (l.capacity / l.rate)
  have hpos := div_pos l.capacity_pos l.rate_pos
  exact le_max_of_le_right (by linarith)

theorem refilled_expiring (hkey : ∀ k ∈ key, Sound l k) :
    refilled l now (expiring now key) = refilled l now key := by
  rcases key with _ | k
  · rfl
  have hk := hkey k rfl
  by_cases hlive : now < k.expires
  · rw [expiring, Option.filter_some_pos (by simpa using hlive)]
  rw [expiring, Option.filter_some_neg (by simpa using hlive)]
  rw [not_lt, hk.expires_eq] at hlive
  have hfull : l.capacity ≤ k.tokens + max 0 (now - k.updated) * l.rate := by
    have hmul := mul_le_mul_of_nonneg_right
      ((le_sub_iff_add_le'.mpr hlive).trans (le_max_right 0 _)) l.rate_pos.le
    linarith [capacity_le (l := l), hk.nonneg]
  simp [refilled, min_eq_left hfull]

theorem refilled_nonneg (now : ℚ) (h : ∀ k ∈ key, Sound l k) : 0 ≤ refilled l now key := by
  refine le_min l.capacity_pos.le (add_nonneg ?_ (mul_nonneg (le_max_left _ _) l.rate_pos.le))
  rcases key with _ | k
  · exact l.capacity_pos.le
  · exact (h k rfl).nonneg

theorem bound_nonneg (h : ∀ k ∈ key, Sound l k) (hwindow : start ≤ stop) :
    0 ≤ refilled l start key + (stop - start) * l.rate :=
  add_nonneg (refilled_nonneg start h) (mul_nonneg (sub_nonneg.mpr hwindow) l.rate_pos.le)

theorem sound_tokenBucket (now : ℚ) (h : ∀ k ∈ key, Sound l k) :
    ∀ k ∈ some (tokenBucket l now key).2, Sound l k := by
  rintro _ ⟨⟩
  refine ⟨?_, rfl⟩
  have hlevel := refilled_nonneg now h
  simp only [tokenBucket, decide_eq_true_eq]
  split
  · linarith
  · exact hlevel

theorem answers_expiring (hkey : ∀ k ∈ key, Sound l k) :
    answers l expiring key times = answers l kept key times := by
  induction times generalizing key with
  | nil => rfl
  | cons now times ih =>
    simp only [answers, tokenBucket, refilled_expiring hkey]
    exact congrArg _ (ih (sound_tokenBucket now hkey))

theorem map_fst_answers : (answers l kept key times).map Prod.fst = times := by
  induction times generalizing key with
  | nil => rfl
  | cons now times ih => simp [answers, ih]

/-- The calls from a time on are paid by what the bucket has then and by what accrues. -/
theorem countP_le_refilled (hsorted : times.Pairwise (· ≤ ·)) (hkey : ∀ k ∈ key, Sound l k)
    {since : ℚ} (hsince : ∀ t ∈ times, since ≤ t) (hstop : since ≤ stop) :
    ((answers l kept key times).countP (allowedIn start stop) : ℚ) ≤
      refilled l since key + (stop - since) * l.rate := by
  induction times generalizing key since with
  | nil => exact_mod_cast bound_nonneg hkey hstop
  | cons now times ih =>
    have hlater := List.pairwise_cons.mp hsorted
    by_cases hnow : now ≤ stop
    · have hrest := ih hlater.2 (sound_tokenBucket now hkey) hlater.1 hnow
      have hlevel : refilled l now key ≤ refilled l since key + (now - since) * l.rate :=
        refilled_le (hsince now (by simp))
      have hhead : (if allowedIn start stop (now, (tokenBucket l now key).1) then 1 else 0 : ℚ) +
          refilled l now (some (tokenBucket l now key).2) ≤ refilled l now key := by
        have hleft : refilled l now (some (tokenBucket l now key).2) ≤
            (tokenBucket l now key).2.tokens := min_le_of_right_le (by simp [tokenBucket])
        by_cases hallowed : 1 ≤ refilled l now key
        · simp only [tokenBucket, hallowed, decide_true, if_true] at hleft ⊢
          split <;> linarith
        · simpa [tokenBucket, hallowed, allowedIn] using hleft
      rw [answers, List.countP_cons, kept]
      push_cast
      linarith
    · -- the window is over
      rw [List.countP_eq_zero.mpr]
      · exact_mod_cast bound_nonneg hkey hstop
      intro x hx hallowed
      have hmem := List.mem_map_of_mem (f := Prod.fst) hx
      rw [map_fst_answers] at hmem
      simp only [allowedIn, Bool.and_eq_true, decide_eq_true_eq] at hallowed
      rcases List.mem_cons.mp hmem with heq | hmem
      · exact hnow (heq ▸ hallowed.2)
      · exact hnow ((hlater.1 _ hmem).trans hallowed.2)

theorem countP_le_capacity (hwindow : start ≤ stop) (hsorted : times.Pairwise (· ≤ ·))
    (hkey : ∀ k ∈ key, Sound l k) :
    ((answers l kept key times).countP (allowedIn start stop) : ℚ) ≤
      l.capacity + (stop - start) * l.rate := by
  induction times generalizing key with
  | nil =>
    exact (countP_le_refilled hsorted hkey nofun hwindow).trans
      (add_le_add_left (min_le_left l.capacity _) _)
  | cons now times ih =>
    have hlater := List.pairwise_cons.mp hsorted
    rcases lt_or_ge now start with hbefore | hstart
    · have hrest := ih hlater.2 (sound_tokenBucket now hkey)
      rw [answers, kept]
      simpa [allowedIn, not_le.mpr hbefore] using hrest
    · have hsince : ∀ t ∈ now :: times, start ≤ t :=
        List.forall_mem_cons.mpr ⟨hstart, fun t ht => hstart.trans (hlater.1 t ht)⟩
      exact (countP_le_refilled hsorted hkey hsince hwindow).trans
        (add_le_add_left (min_le_left l.capacity _) _)

end Bound

/-- However many replicas ask, an identity gets its burst and what its rate yields in the window, and
the loss of a key changes no answer. -/
theorem allow_bounded (perMinute burst : Int) (hperMinute : 0 < perMinute) (hburst : 0 < burst)
    (times : List ℚ) (hsorted : times.Pairwise (· ≤ ·)) :
    (∀ start T, 0 ≤ T →
      ((allow perMinute burst expiring times).countP (allowedIn start (start + T)) : ℚ) ≤
        burst + perMinute / 60 * T) ∧
    allow perMinute burst expiring times = allow perMinute burst kept times := by
  have hneg : ¬ (perMinute ≤ 0 ∨ burst ≤ 0) := by omega
  unfold allow
  rw [dif_neg hneg, dif_neg hneg, answers_expiring (by simp)]
  refine ⟨fun start T hT => ?_, rfl⟩
  have hbound := @countP_le_capacity ⟨_, _, (limit_pos hneg).1, (limit_pos hneg).2⟩ start
    (start + T) none times (le_add_of_nonneg_right hT) hsorted (by simp)
  linarith

theorem allow_bounded_minute :
    allow 60 2 expiring [0, 0, 0, 61] = allow 60 2 kept [0, 0, 0, 61] :=
  (allow_bounded 60 2 (by decide) (by decide) [0, 0, 0, 61] (by norm_num)).2

end PortageEngine.RuntimeCache
