import PortageEngine.Ledger.BalanceAttempt

/-!
# The load of a project

How much of a project's quota the reservation and usage tables account for, and which changes of
their rows make the load lighter.
-/

namespace PortageEngine.Ledger

open Library Library.Rows

variable {l l' : Ledger}

/-- A quantity of a reservation that does not depend on its phase. -/
def Weight (weight : Reservation → Nat) : Prop :=
  ∀ r phase, weight { r with phase := phase } = weight r

/-- The sum of a quantity over a project's active reservations. -/
def reservedTotal (l : Ledger) (weight : Reservation → Nat) (project : ProjectId) : Nat :=
  total (fun r => r.project = project && r.active) weight l.reservations

/-- Nothing that counts against a quota has grown. -/
structure Lighter (l l' : Ledger) : Prop where
  reserved : ∀ weight project, Weight weight →
    reservedTotal l' weight project ≤ reservedTotal l weight project
  phases : ∀ project phase, phase ≠ .waiting →
    phaseReservations l' project phase ≤ phaseReservations l project phase
  seconds : ∀ project day, dailySeconds l' project day ≤ dailySeconds l project day
  cost : ∀ project day, dailyCost l' project day ≤ dailyCost l project day
  limits : l'.policies.map Policy.limits = l.policies.map Policy.limits

theorem Lighter.trans {l₁ l₂ l₃ : Ledger} (h : Lighter l₁ l₂) (h' : Lighter l₂ l₃) :
    Lighter l₁ l₃ where
  reserved := fun weight project hw => (h'.reserved weight project hw).trans (h.reserved _ _ hw)
  phases := fun project phase hp => (h'.phases project phase hp).trans (h.phases _ _ hp)
  seconds := fun project day => (h'.seconds project day).trans (h.seconds _ _)
  cost := fun project day => (h'.cost project day).trans (h.cost _ _)
  limits := h'.limits.trans h.limits

theorem lighter_of_same (hr : l'.reservations = l.reservations) (hu : l'.usages = l.usages)
    (hp : l'.policies.map Policy.limits = l.policies.map Policy.limits) : Lighter l l' := by
  refine ⟨?_, ?_, ?_, ?_, hp⟩
  · intro weight project _
    rw [reservedTotal, reservedTotal, hr]
  · intro project phase _
    rw [phaseReservations, phaseReservations, hr]
  · intro project day
    rw [dailySeconds, dailySeconds, hu]
  · intro project day
    rw [dailyCost, dailyCost, hu]

/-! ## Reservations that are given back -/

/-- The new row is released, or waits for its next phase. -/
def Loosens (f : Reservation → Reservation) : Prop :=
  ∀ r, (f r).active = false ∨ f r = { r with phase := .waiting }

variable {f : Reservation → Reservation} {p : Reservation → Bool}

variable {project : ProjectId}

theorem reservedTotal_loosen (hf : Loosens f) (hr : l'.reservations = update p f l.reservations)
    {weight : Reservation → Nat} (hw : Weight weight) :
    reservedTotal l' weight project ≤ reservedTotal l weight project := by
  unfold reservedTotal
  rw [hr]
  refine total_update_le ?_
  intro r _ _
  rcases hf r with hoff | hwaits
  · simp [hoff]
  · rw [hwaits, hw]

theorem phaseReservations_loosen
    (hf : Loosens f) (hr : l'.reservations = update p f l.reservations)
    {phase : ReservationPhase} (hphase : phase ≠ .waiting) :
    phaseReservations l' project phase ≤ phaseReservations l project phase := by
  unfold phaseReservations count
  rw [hr]
  refine total_update_le ?_
  intro r _ _
  rcases hf r with hoff | hwaits
  · simp [hoff]
  · simp [hwaits, Ne.symm hphase]

/-! ## Usage records -/

/-- The new row counts for at most as much on the same day of the same project. -/
def Cheaper (p : Usage → Bool) (f : Usage → Usage) : Prop :=
  ∀ u, p u = true → (f u).project = u.project ∧ (f u).budgetDay = u.budgetDay ∧
    (f u).seconds ≤ u.seconds ∧ (f u).cost ≤ u.cost

theorem cheaper_settle {sel : Usage → Bool} {at_ : Time} :
    Cheaper (fun u => sel u && u.active) (settle at_) := by
  intro u hu
  have hactive : u.active = true := by
    simp only [Bool.and_eq_true] at hu
    exact hu.2
  refine ⟨rfl, rfl, ?_, ?_⟩
  · simp only [Usage.seconds, settle, hactive, if_true, Bool.false_eq_true, if_false]
    exact Nat.min_le_left _ _
  · simp only [Usage.cost, settle, hactive, if_true, Bool.false_eq_true, if_false, settledCost]
    cases u.cloudStartedAt with
    | none => exact Nat.zero_le _
    | some start => exact Nat.min_le_left _ _

theorem daily_cheaper {p : Usage → Bool} {f : Usage → Usage} (hf : Cheaper p f)
    (hu : l'.usages = update p f l.usages) {day : Nat} :
    dailySeconds l' project day ≤ dailySeconds l project day ∧
      dailyCost l' project day ≤ dailyCost l project day := by
  unfold dailySeconds dailyCost
  rw [hu]
  constructor
  · refine total_update_le ?_
    intro u _ hsel
    rcases hf u hsel with ⟨hproject, hday, hseconds, _⟩
    rw [hproject, hday]
    split
    · exact hseconds
    · exact Nat.le_refl 0
  · refine total_update_le ?_
    intro u _ hsel
    rcases hf u hsel with ⟨hproject, hday, _, hcost⟩
    rw [hproject, hday]
    split
    · exact hcost
    · exact Nat.le_refl 0

theorem lighter_of_release
    {q : Usage → Bool} {g : Usage → Usage} (hf : Loosens f) (hg : Cheaper q g)
    (hr : l'.reservations = update p f l.reservations) (hu : l'.usages = update q g l.usages)
    (hp : l'.policies.map Policy.limits = l.policies.map Policy.limits) : Lighter l l' :=
  ⟨fun _ _ hw => reservedTotal_loosen hf hr hw,
    fun _ _ hphase => phaseReservations_loosen hf hr hphase,
    fun _ _ => (daily_cheaper hg hu).1, fun _ _ => (daily_cheaper hg hu).2, hp⟩

theorem loosens_off : Loosens fun r => { r with active := false } :=
  fun _ => .inl rfl

theorem lighter_finishPhaseWork {claim : PhaseClaim} {outcome : PhaseOutcome} {now : Time}
    (hok : finishPhaseWork l claim outcome now = .ok l') : Lighter l l' := by
  rcases finishPhaseWork_ok hok with ⟨i, _, _, rfl⟩
  have hsettle : Cheaper (fun _ => false) (id : Usage → Usage) := by
    nofun
  refine lighter_of_release (fun _ => .inr rfl) hsettle rfl ?_ rfl
  exact (update_eq_self fun _ _ => rfl).symm

end PortageEngine.Ledger
