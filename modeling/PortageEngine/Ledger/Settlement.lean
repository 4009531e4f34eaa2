import PortageEngine.Build.ChargedResources
import PortageEngine.Ledger.Claim

/-!
# The arithmetic of settlement

The settlement statement computes with PostgreSQL's 64-bit integers. It multiplies the minutes passed
by the rate before it takes the least of the product and the reservation, so an attempt that was
closed late enough can not be settled, although the charge itself would fit.
-/

namespace PortageEngine.Ledger

open Library Library.Rows

/-! ## The statement on one row -/

/-- A value of type `bigint`; a statement that computes one out of range fails. -/
def bigint (n : Nat) : Except String Nat :=
  if n < 2 ^ 63 then .ok n else .error "bigint out of range"

def elapsedSeconds (u : Usage) (at_ : Time) : Nat :=
  max 1 (ceilDiv (at_ - u.meteringStartedAt) microsPerSecond)

def elapsedMinutes (start at_ : Time) : Nat :=
  max 1 (ceilDiv (at_ - start) (60 * microsPerSecond))

/-- The update of `settleAttemptUsage` in the order in which it is evaluated. -/
def settleRow (at_ : Time) (u : Usage) : Except String Usage := do
  let seconds ← bigint (elapsedSeconds u at_)
  let cost ← match u.cloudStartedAt with
    | none => pure 0
    | some start => do
      let minutes ← bigint (elapsedMinutes start at_)
      let product ← bigint (minutes * u.costPerMinute)
      pure (min u.reservedCost product)
  return { u with
    chargedSeconds := min u.reservedSeconds seconds
    chargedCost := cost
    active := false }

/-- The row that `insertAttemptUsage` reserves under a runtime budget. -/
structure Usage.Under (u : Usage) (spec : Build.RuntimeBudgetSpec) : Prop where
  seconds : u.reservedSeconds = spec.maxRuntimeSeconds.toNat
  rate : u.costPerMinute = spec.cloudCostMicrounitsPerMinute.toNat
  cost : u.reservedCost = spec.reservedCloudCostMicrounits.toNat

/-- The seconds passed, and the minutes on the cloud times the rate, are 64-bit integers. -/
def Fits (u : Usage) (at_ : Time) : Prop :=
  elapsedSeconds u at_ < 2 ^ 63 ∧
    ∀ start, u.cloudStartedAt = some start → elapsedMinutes start at_ * u.costPerMinute < 2 ^ 63

/-- A settlement succeeds within the reservation, and an earlier one would not have cost more. -/
def SettlesWithin (u : Usage) (at_ : Time) : Prop :=
  ∃ settled, settleRow at_ u = .ok settled ∧
    1 ≤ settled.chargedSeconds ∧ settled.chargedSeconds ≤ u.reservedSeconds ∧
    settled.chargedCost ≤ u.reservedCost ∧
    ∀ earlier ≤ at_, ∃ before, settleRow earlier u = .ok before ∧
      before.chargedCost ≤ settled.chargedCost

variable {request : Build.BuildRequest} {spec : Build.RuntimeBudgetSpec} {u : Usage} {at_ : Time}

theorem bigint_eq_ok {n m : Nat} : bigint n = .ok m ↔ n < 2 ^ 63 ∧ n = m := by
  unfold bigint
  by_cases h : n < 2 ^ 63
  · simp only [h, if_true, Except.ok.injEq, true_and]
  · simp only [h, if_false, reduceCtorEq, false_and]

theorem settleRow_eq_ok (hrate : 1 ≤ u.costPerMinute) {settled : Usage} :
    settleRow at_ u = .ok settled ↔ Fits u at_ ∧ settle at_ u = settled := by
  unfold settleRow settle settledCost Fits
  cases hcloud : u.cloudStartedAt with
  | none =>
    simp only [bind_eq_ok, bigint_eq_ok, pure_eq_ok, reduceCtorEq, false_implies, implies_true,
      and_true]
    constructor
    · rintro ⟨_, ⟨hseconds, rfl⟩, _, rfl, rfl⟩
      exact ⟨hseconds, rfl⟩
    · rintro ⟨hseconds, rfl⟩
      exact ⟨_, ⟨hseconds, rfl⟩, _, rfl, rfl⟩
  | some start =>
    -- the minutes fit whenever their product with a positive rate does
    have hminutes : elapsedMinutes start at_ ≤ elapsedMinutes start at_ * u.costPerMinute :=
      Nat.le_mul_of_pos_right _ hrate
    simp only [bind_eq_ok, bigint_eq_ok, pure_eq_ok, Option.some.injEq, forall_eq']
    constructor
    · rintro ⟨_, ⟨hseconds, rfl⟩, _, ⟨_, rfl⟩, _, ⟨hproduct, rfl⟩, _, rfl, rfl⟩
      exact ⟨⟨hseconds, hproduct⟩, rfl⟩
    · rintro ⟨⟨hseconds, hproduct⟩, rfl⟩
      exact ⟨_, ⟨hseconds, rfl⟩, _, ⟨lt_of_le_of_lt hminutes hproduct, rfl⟩, _, ⟨hproduct, rfl⟩, _,
        rfl, rfl⟩

theorem ceilDiv_mono {m n : Nat} {d : Nat} (h : m ≤ n) : ceilDiv m d ≤ ceilDiv n d :=
  Nat.div_le_div_right (Nat.sub_le_sub_right (Nat.add_le_add_right h d) 1)

theorem elapsedMinutes_mono {start earlier : Time} (h : earlier ≤ at_) :
    elapsedMinutes start earlier ≤ elapsedMinutes start at_ :=
  max_le_max_left 1 (ceilDiv_mono (Nat.sub_le_sub_right h start))

theorem Fits.earlier {earlier : Time} (h : Fits u at_) (hle : earlier ≤ at_) : Fits u earlier := by
  refine ⟨lt_of_le_of_lt ?_ h.1, fun start hstart => ?_⟩
  · exact max_le_max_left 1 (ceilDiv_mono (Nat.sub_le_sub_right hle _))
  · exact lt_of_le_of_lt (Nat.mul_le_mul_right _ (elapsedMinutes_mono hle)) (h.2 start hstart)

theorem settledCost_mono {earlier : Time} (hle : earlier ≤ at_) :
    settledCost u earlier ≤ settledCost u at_ := by
  unfold settledCost
  cases u.cloudStartedAt with
  | none => exact Nat.le_refl 0
  | some start =>
    exact min_le_min_left _ (Nat.mul_le_mul_right _ (elapsedMinutes_mono hle))

theorem settledCost_le : settledCost u at_ ≤ u.reservedCost := by
  unfold settledCost
  cases u.cloudStartedAt with
  | none => exact Nat.zero_le _
  | some start => exact min_le_left _ _

/-- Every accepted budget is for some time at some rate, and its numbers are 64-bit integers. -/
theorem runtimeBudget_bounds (h : Build.runtimeBudgetSpecFromRequest request = .ok spec) :
    1 ≤ spec.maxRuntimeSeconds ∧ spec.maxRuntimeSeconds < 2 ^ 63 ∧
      1 ≤ spec.cloudCostMicrounitsPerMinute ∧ spec.reservedCloudCostMicrounits < 2 ^ 63 := by
  replace h := passed h
  rcases require_bind_eq_ok.mp h with ⟨hbounds, h⟩
  replace h := passed h
  cases pure_eq_ok.mp h
  simp only [Bool.and_eq_true, decide_eq_true_eq] at hbounds
  dsimp only
  rcases hbounds with ⟨⟨⟨hminutes, hday⟩, hrate⟩, hmost⟩
  have hproduct := Int.mul_le_mul hday hmost (Int.le_of_lt hrate) (by decide)
  exact ⟨by omega, by omega, by omega, by omega⟩

/-! ## The settling paths -/

inductive SettleCall
  | attempt (id : AttemptId) (terminalState : Status) (at_ : Time)
  | job (id : JobId) (terminalState : Status) (at_ : Time)

def SettleCall.time : SettleCall → Time
  | .attempt _ _ at_ | .job _ _ at_ => at_

def SettleCall.run (l : Ledger) : SettleCall → Ledger
  | .attempt id terminalState at_ => settleAttemptUsage l id terminalState at_
  | .job id terminalState at_ => settleJobAttemptUsage l id terminalState at_

theorem SettleCall.run_usages (l : Ledger) (call : SettleCall) :
    ∃ p : Usage → Bool, (call.run l).usages =
      update (fun u => p u && u.active) (settle call.time) l.usages := by
  cases call with
  | attempt id terminalState at_ =>
    rcases settleAttemptUsage_eq l id terminalState at_ with ⟨_, _, heq, _⟩
    exact ⟨fun u => u.attempt = id, congrArg Ledger.usages heq⟩
  | job id terminalState at_ =>
    rcases settleJobAttemptUsage_eq with ⟨_, _, heq, _⟩
    exact ⟨fun u => (activeUsageAttempts l id).contains u.attempt, congrArg Ledger.usages heq⟩

/-- However often the settling paths run, a record is settled by one of them at most. -/
theorem settled_once (l : Ledger) (calls : List SettleCall) :
    ∃ f : Usage → Usage, (calls.foldl SettleCall.run l).usages = l.usages.map f ∧
      ∀ u, f u = u ∨ (u.active = true ∧ ∃ call ∈ calls, f u = settle call.time u) := by
  induction calls generalizing l with
  | nil => exact ⟨id, (List.map_id _).symm, fun u => .inl rfl⟩
  | cons call calls ih =>
    rcases call.run_usages l with ⟨p, hfirst⟩
    rcases ih (call.run l) with ⟨f, hrest, hf⟩
    refine ⟨fun u => f (if p u && u.active then settle call.time u else u), ?_, fun u => ?_⟩
    · rw [List.foldl_cons, hrest, hfirst, update, List.map_map]
      rfl
    · by_cases hp : (p u && u.active) = true
      · -- settled here: the record is no longer active, so no later call takes it
        simp only [hp, if_true]
        rcases hf (settle call.time u) with heq | ⟨hactive, _⟩
        · exact .inr ⟨(Bool.and_eq_true _ _ ▸ hp).2, call, List.mem_cons_self, heq⟩
        · cases hactive
      · simp only [hp, Bool.false_eq_true, if_false]
        refine (hf u).imp_right ?_
        rintro ⟨hactive, later, hlater, heq⟩
        exact ⟨hactive, later, List.mem_cons_of_mem _ hlater, heq⟩

/-- The numbers of an accepted budget are 64-bit integers. A settlement under it stays within the
reservation and costs no less than an earlier one exactly if the seconds and the product of minutes
and rate are 64-bit integers too; and no record is settled twice. -/
theorem settlement_within_iff (hspec : Build.runtimeBudgetSpecFromRequest request = .ok spec)
    (hunder : u.Under spec) (at_ : Time) :
    spec.maxRuntimeSeconds < 2 ^ 63 ∧ spec.reservedCloudCostMicrounits < 2 ^ 63 ∧
      (SettlesWithin u at_ ↔ Fits u at_) ∧
      ∀ (l : Ledger) (calls : List SettleCall), ∃ f : Usage → Usage,
        (calls.foldl SettleCall.run l).usages = l.usages.map f ∧
        ∀ u, f u = u ∨ (u.active = true ∧ ∃ call ∈ calls, f u = settle call.time u) := by
  rcases runtimeBudget_bounds hspec with ⟨hseconds, hday, hpositive, hcost⟩
  have hrate : 1 ≤ u.costPerMinute := by
    have := hunder.rate
    omega
  refine ⟨hday, hcost, ⟨?_, ?_⟩, settled_once⟩
  · rintro ⟨settled, hsettled, _⟩
    exact ((settleRow_eq_ok hrate).mp hsettled).1
  · intro hfits
    refine ⟨settle at_ u, (settleRow_eq_ok hrate).mpr ⟨hfits, rfl⟩, ?_, min_le_left _ _,
      settledCost_le, fun earlier hle => ?_⟩
    · refine le_min ?_ (le_max_left _ _)
      have := hunder.seconds
      omega
    · exact ⟨settle earlier u, (settleRow_eq_ok hrate).mpr ⟨hfits.earlier hle, rfl⟩,
        settledCost_mono hle⟩

/-- A request for a minute at the greatest rate. -/
def dearRequest : Build.BuildRequest :=
  { Build.storedPlain with
    resolvedContext := Build.storedPlain.resolvedContext.map fun context =>
      { context with maxRuntimeMinutes := 1, cloudCostMicrounitsPerMinute := 1000000000000 } }

def dearUsage : Usage where
  attempt := 1
  project := 1
  job := 1
  budgetDay := 0
  maxRuntimeSeconds := 60
  costPerMinute := 1000000000000
  reservedSeconds := 60
  reservedCost := 1000000000000
  chargedSeconds := 0
  chargedCost := 0
  meteringStartedAt := 0
  cloudStartedAt := some 0
  active := true

def dearSpec : Build.RuntimeBudgetSpec :=
  ⟨60, 1000000000000, 1000000000000⟩

theorem settlement_within_minute : SettlesWithin dearUsage 30000000 := by
  have hspec : Build.runtimeBudgetSpecFromRequest dearRequest = .ok dearSpec := by decide +kernel
  refine (settlement_within_iff hspec ⟨rfl, rfl, rfl⟩ 30000000).2.2.1.mpr ⟨by decide, ?_⟩
  intro start hstart
  cases hstart
  decide

/-- After 9223373 minutes, the cost of an attempt at the greatest rate is not a 64-bit integer. -/
theorem late_settlement_overflows :
    Build.runtimeBudgetSpecFromRequest dearRequest = .ok dearSpec ∧ dearUsage.Under dearSpec ∧
      settleRow (9223373 * 60 * microsPerSecond) dearUsage = .error "bigint out of range" :=
  ⟨by decide +kernel, ⟨rfl, rfl, rfl⟩, by decide +kernel⟩

end PortageEngine.Ledger
