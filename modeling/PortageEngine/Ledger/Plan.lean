import PortageEngine.Ledger.PhaseWork

/-!
# The order of the phase plan

The items of one attempt are worked off in the order of their positions.  At any time a prefix is
completed; the next item is ready or claimed and the rest blocked, or the next one has failed or was
given up and so was the rest.  The relation below says this of two items at a time.
-/

namespace PortageEngine.Ledger

open Library Library.Rows

/-- The states of an earlier and a later item of one plan. -/
def InOrder (earlier later : ItemState) : Prop :=
  earlier = .completed ∨ (earlier.isOpen = true ∧ later = .blocked) ∨
    ((earlier = .failed ∨ earlier = .canceled) ∧ later = .canceled)

def PlanOrdered (items : List PhaseItem) : Prop :=
  ∀ i ∈ items, ∀ k ∈ items, i.attempt = k.attempt → i.sequence < k.sequence →
    InOrder i.state k.state

/-- Items have unique identifiers, and a plan has one item at each position. -/
structure PlanKeys (items : List PhaseItem) : Prop where
  id : ∀ i ∈ items, ∀ k ∈ items, i.id = k.id → i = k
  position : ∀ i ∈ items, ∀ k ∈ items, i.attempt = k.attempt → i.sequence = k.sequence → i = k

variable {items : List PhaseItem}

variable {p : PhaseItem → Bool} {f : PhaseItem → PhaseItem}

theorem PlanOrdered.update (h : PlanOrdered items) (hattempt : ∀ i, (f i).attempt = i.attempt)
    (hsequence : ∀ i, (f i).sequence = i.sequence)
    (hstep : ∀ i ∈ items, ∀ k ∈ items, i.attempt = k.attempt → i.sequence < k.sequence →
      InOrder i.state k.state →
      InOrder (if p i then f i else i).state (if p k then f k else k).state) :
    PlanOrdered (update p f items) := by
  have hkeeps : ∀ i : PhaseItem, (if p i then f i else i).attempt = i.attempt ∧
      (if p i then f i else i).sequence = i.sequence := by
    intro i
    by_cases hp : p i = true
    · simp [hp, hattempt, hsequence]
    · simp [hp]
  intro i' hi' k' hk' hsame hlt
  rcases mem_update.mp hi' with ⟨i, hi, rfl⟩
  rcases mem_update.mp hk' with ⟨k, hk, rfl⟩
  rw [(hkeeps i).1, (hkeeps k).1] at hsame
  rw [(hkeeps i).2, (hkeeps k).2] at hlt
  exact hstep i hi k hk hsame hlt (h i hi k hk hsame hlt)

theorem PlanOrdered.update_same (h : PlanOrdered items) (hattempt : ∀ i, (f i).attempt = i.attempt)
    (hsequence : ∀ i, (f i).sequence = i.sequence) (hstate : ∀ i, (f i).state = i.state) :
    PlanOrdered (Rows.update p f items) := by
  refine h.update hattempt hsequence ?_
  intro i _ k _ _ _ horder
  have hkeeps : ∀ i : PhaseItem, (if p i then f i else i).state = i.state := by
    intro i
    by_cases hp : p i = true
    · simp [hp, hstate]
    · simp [hp]
  rw [hkeeps i, hkeeps k]
  exact horder

theorem PlanOrdered.update_running (h : PlanOrdered items)
    (hattempt : ∀ i, (f i).attempt = i.attempt) (hsequence : ∀ i, (f i).sequence = i.sequence)
    (hfrom : ∀ i, p i = true → i.state = .ready ∨ i.state = .claimed)
    (hto : ∀ i, (f i).state = .ready ∨ (f i).state = .claimed) :
    PlanOrdered (Rows.update p f items) := by
  refine h.update hattempt hsequence ?_
  intro i _ k _ _ _ horder
  -- a running item stands behind completed ones only
  by_cases hk : p k = true
  · have hdone : i.state = .completed := by
      rcases horder with hdone | ⟨_, hblocked⟩ | ⟨_, hcanceled⟩
      · exact hdone
      · rcases hfrom k hk with hk | hk <;> rw [hblocked] at hk <;> cases hk
      · rcases hfrom k hk with hk | hk <;> rw [hcanceled] at hk <;> cases hk
    have hi : ¬ p i = true := by
      intro hi
      rcases hfrom i hi with hi | hi <;> rw [hdone] at hi <;> cases hi
    rw [if_neg hi]
    exact .inl hdone
  · rw [if_neg hk]
    by_cases hi : p i = true
    · rw [if_pos hi]
      rcases horder with hdone | ⟨_, hblocked⟩ | ⟨hover, _⟩
      · rcases hfrom i hi with hi | hi <;> rw [hdone] at hi <;> cases hi
      · refine .inr (.inl ⟨?_, hblocked⟩)
        rcases hto i with hi | hi <;> rw [hi] <;> rfl
      · rcases hfrom i hi with hi | hi <;> rcases hover with ho | ho <;> rw [ho] at hi <;> cases hi
    · rw [if_neg hi]
      exact horder

theorem PlanOrdered.cancel {sel : AttemptId → JobId → Bool} {reason : String}
    (h : PlanOrdered items)
    (hplan : ∀ i ∈ items, ∀ k ∈ items, i.attempt = k.attempt → i.job = k.job) :
    PlanOrdered (Rows.update (fun i => sel i.attempt i.job && i.state.isOpen) (cancelItem reason)
      items) := by
  refine h.update (fun _ => rfl) (fun _ => rfl) ?_
  intro i hi k hk hsame _ horder
  have hsel : sel k.attempt k.job = sel i.attempt i.job := by
    rw [hsame, hplan i hi k hk hsame]
  by_cases hi' : sel i.attempt i.job = true
  · rcases horder with hdone | ⟨hopen, hblocked⟩ | ⟨hover, hcanceled⟩
    · refine .inl ?_
      simp [hdone, ItemState.isOpen]
    · refine .inr (.inr ⟨.inr ?_, ?_⟩)
      · simp [hi', hopen, cancelItem]
      · simp [hsel, hi', hblocked, ItemState.isOpen, cancelItem]
    · refine .inr (.inr ⟨?_, ?_⟩)
      · rcases hover with ho | ho <;> simp [ho, ItemState.isOpen]
      · simp [hcanceled, ItemState.isOpen]
  · simpa [hsel, hi'] using horder

/-! ## Finishing a claimed item -/

section Finish

variable {c : PhaseItem}

variable {i x : PhaseItem}

theorem PlanOrdered.before_claimed (h : PlanOrdered items) (hc : c ∈ items)
    (hclaimed : c.state = .claimed) (hi : i ∈ items) (hattempt : i.attempt = c.attempt)
    (hlt : i.sequence < c.sequence) :
    i.state = .completed := by
  rcases h i hi c hc hattempt hlt with hdone | ⟨_, hblocked⟩ | ⟨_, hcanceled⟩
  · exact hdone
  · rw [hclaimed] at hblocked
    cases hblocked
  · rw [hclaimed] at hcanceled
    cases hcanceled

theorem PlanOrdered.after_claimed (h : PlanOrdered items) (hc : c ∈ items)
    (hclaimed : c.state = .claimed) (hi : i ∈ items) (hattempt : i.attempt = c.attempt)
    (hlt : c.sequence < i.sequence) :
    i.state = .blocked := by
  rcases h c hc i hi hattempt.symm hlt with hdone | ⟨_, hblocked⟩ | ⟨hover, _⟩
  · rw [hclaimed] at hdone
    cases hdone
  · exact hblocked
  · rcases hover with ho | ho <;> rw [hclaimed] at ho <;> cases ho

theorem PlanOrdered.running_unique (h : PlanOrdered items) (hkeys : PlanKeys items) {k : PhaseItem}
    (hi : i ∈ items) (hk : k ∈ items) (hattempt : i.attempt = k.attempt)
    (hirun : i.state = .ready ∨ i.state = .claimed) (hkrun : k.state = .ready ∨ k.state = .claimed) :
    i = k := by
  have hnever : ∀ earlier later : ItemState, (earlier = .ready ∨ earlier = .claimed) →
      (later = .ready ∨ later = .claimed) → ¬ InOrder earlier later := by
    rintro _ _ (rfl | rfl) (rfl | rfl) (h | ⟨_, h⟩ | ⟨_, h⟩) <;> cases h
  rcases Nat.lt_trichotomy i.sequence k.sequence with hlt | heq | hgt
  · exact absurd (h i hi k hk hattempt hlt) (hnever _ _ hirun hkrun)
  · exact hkeys.position i hi k hk hattempt heq
  · exact absurd (h k hk i hi hattempt.symm hgt) (hnever _ _ hkrun hirun)

/-- The items of `attempt` while one of them is being finished: completed before the position, in
`state` at it and blocked after it.  The other plans are in order. -/
structure CutAt (items : List PhaseItem) (attempt : AttemptId) (position : Nat)
    (state : ItemState) : Prop where
  others : ∀ i ∈ items, ∀ k ∈ items, i.attempt = k.attempt → i.attempt ≠ attempt →
    i.sequence < k.sequence → InOrder i.state k.state
  before : ∀ i ∈ items, i.attempt = attempt → i.sequence < position → i.state = .completed
  here : ∀ i ∈ items, i.attempt = attempt → i.sequence = position → i.state = state
  after : ∀ i ∈ items, i.attempt = attempt → position < i.sequence → i.state = .blocked

theorem PlanOrdered.close (h : PlanOrdered items) (hkeys : PlanKeys items) (hc : c ∈ items)
    (hclaimed : c.state = .claimed) (state : ItemState) (detail : String) :
    CutAt (Rows.update (fun i => i.id = c.id) (closeItem state detail) items) c.attempt c.sequence
      state := by
  -- the update selects `c` alone
  have hrow : ∀ x ∈ Rows.update (fun i => i.id = c.id) (closeItem state detail) items,
      (x.attempt = c.attempt ∧ x.sequence = c.sequence ∧ x.state = state) ∨
        (x ∈ items ∧ x ≠ c) := by
    intro x hx
    rcases mem_update_cases hx with ⟨i, hi, hid, rfl⟩ | ⟨hx, hid⟩
    · have heq := hkeys.id i hi c hc (of_decide_eq_true hid)
      subst heq
      exact .inl ⟨rfl, rfl, rfl⟩
    · refine .inr ⟨hx, ?_⟩
      intro heq
      exact of_decide_eq_false hid (by rw [heq])
  constructor
  · intro i hi k hk hsame hother hlt
    rcases hrow i hi with ⟨ha, _, _⟩ | ⟨hi, _⟩
    · exact absurd ha hother
    rcases hrow k hk with ⟨ha, _, _⟩ | ⟨hk, _⟩
    · exact absurd (hsame.trans ha) hother
    · exact h i hi k hk hsame hlt
  · intro i hi ha hlt
    rcases hrow i hi with ⟨_, hs, _⟩ | ⟨hi, _⟩
    · omega
    · exact h.before_claimed hc hclaimed hi ha hlt
  · intro i hi ha hs
    rcases hrow i hi with ⟨_, _, hstate⟩ | ⟨hi, hne⟩
    · exact hstate
    · exact absurd (hkeys.position i hi c hc ha hs) hne
  · intro i hi ha hlt
    rcases hrow i hi with ⟨_, hs, _⟩ | ⟨hi, _⟩
    · omega
    · exact h.after_claimed hc hclaimed hi ha hlt

variable {attempt : AttemptId} {position : Nat}

theorem CutAt.ordered (h : CutAt items attempt position .completed) : PlanOrdered items := by
  intro i hi k hk hsame hlt
  by_cases ha : i.attempt = attempt
  · rcases Nat.lt_trichotomy i.sequence position with hbefore | hhere | hafter
    · exact .inl (h.before i hi ha hbefore)
    · exact .inl (h.here i hi ha hhere)
    · refine .inr (.inl ⟨?_, h.after k hk (hsame ▸ ha) (by omega)⟩)
      rw [h.after i hi ha hafter]
      rfl
  · exact h.others i hi k hk hsame ha hlt

theorem CutAt.releaseNext {now : Time} (h : CutAt items attempt position .completed) :
    PlanOrdered (releaseNext attempt position now items) := by
  refine h.ordered.update (fun _ => rfl) (fun _ => rfl) ?_
  intro i hi k hk hsame hlt horder
  simp only [Bool.and_eq_true, List.all_eq_true, Bool.or_eq_true, Bool.not_eq_true',
    decide_eq_true_eq]
  by_cases hk' : blockedAfter attempt position k = true ∧
      ∀ x ∈ items, blockedAfter attempt position x = false ∨ k.sequence ≤ x.sequence
  · have hblocked : k.attempt = attempt ∧ position < k.sequence := by
      have := hk'.1
      simp only [blockedAfter, Bool.and_eq_true, decide_eq_true_eq] at this
      exact this.1
    have ha : i.attempt = attempt := hsame.trans hblocked.1
    -- what stands before the first blocked item is completed
    have hdone : i.state = .completed := by
      rcases Nat.lt_trichotomy i.sequence position with hbefore | hhere | hafter
      · exact h.before i hi ha hbefore
      · exact h.here i hi ha hhere
      have hi' : blockedAfter attempt position i = true := by
        simp [blockedAfter, ha, hafter, h.after i hi ha hafter]
      rcases hk'.2 i hi with hno | hle
      · rw [hi'] at hno
        cases hno
      · omega
    have hi' : ¬ (blockedAfter attempt position i = true ∧
        ∀ x ∈ items, blockedAfter attempt position x = false ∨ i.sequence ≤ x.sequence) := by
      simp [blockedAfter, hdone]
    rw [if_neg hi']
    exact .inl hdone
  · rw [if_neg hk']
    by_cases hi' : blockedAfter attempt position i = true ∧
        ∀ x ∈ items, blockedAfter attempt position x = false ∨ i.sequence ≤ x.sequence
    · rw [if_pos hi']
      refine .inr (.inl ⟨rfl, ?_⟩)
      have := hi'.1
      simp only [blockedAfter, Bool.and_eq_true, decide_eq_true_eq] at this
      exact h.after k hk (hsame ▸ this.1.1) (by omega)
    · rw [if_neg hi']
      exact horder

theorem CutAt.cancelDependants_mem {state : ItemState} (h : CutAt items attempt position state)
    (hx : x ∈ cancelDependants attempt position items) :
    (x ∈ items ∧ (x.attempt = attempt → x.sequence ≤ position)) ∨
      (x.attempt = attempt ∧ position < x.sequence ∧ x.state = .canceled) := by
  rcases mem_update_cases hx with ⟨i, hi, hsel, rfl⟩ | ⟨hx, hno⟩
  · simp only [Bool.and_eq_true, decide_eq_true_eq] at hsel
    exact .inr ⟨hsel.1.1, hsel.1.2, rfl⟩
  refine .inl ⟨hx, fun ha => ?_⟩
  by_contra hlt
  simp [ha, Nat.lt_of_not_le hlt, h.after x hx ha (Nat.lt_of_not_le hlt)] at hno

theorem CutAt.cancelDependants (h : CutAt items attempt position .failed) :
    PlanOrdered (cancelDependants attempt position items) := by
  intro i hi k hk hsame hlt
  rcases h.cancelDependants_mem hi with ⟨hi, hile⟩ | ⟨ha, _, hstate⟩
  · rcases h.cancelDependants_mem hk with ⟨hk, hkle⟩ | ⟨hka, hkgt, hkstate⟩
    · by_cases ha : i.attempt = attempt
      · have := hkle (hsame ▸ ha)
        exact .inl (h.before i hi ha (by omega))
      · exact h.others i hi k hk hsame ha hlt
    · have ha := hsame.trans hka
      rcases Nat.lt_or_ge i.sequence position with hbefore | hge
      · exact .inl (h.before i hi ha hbefore)
      · have hhere := h.here i hi ha (Nat.le_antisymm (hile ha) hge)
        exact .inr (.inr ⟨.inl hhere, hkstate⟩)
  · rcases h.cancelDependants_mem hk with ⟨_, hkle⟩ | ⟨_, _, hkstate⟩
    · have := hkle (hsame ▸ ha)
      omega
    · exact .inr (.inr ⟨.inr hstate, hkstate⟩)

theorem PlanOrdered.finishItems (h : PlanOrdered items) (hkeys : PlanKeys items) (hc : c ∈ items)
    (hclaimed : c.state = .claimed) (outcome : PhaseOutcome) (now : Time) :
    PlanOrdered (finishItems c outcome now items) := by
  have hcut := h.close hkeys hc hclaimed outcome.state outcome.detail
  cases outcome with
  | completed => exact (CutAt.releaseNext hcut).update_same (fun _ => rfl) (fun _ => rfl) fun _ => rfl
  | failed detail =>
    exact (CutAt.cancelDependants hcut).update_same (fun _ => rfl) (fun _ => rfl) fun _ => rfl

theorem CutAt.closed_of_failed (h : CutAt items attempt position .failed)
    (hx : x ∈ Ledger.cancelDependants attempt position items) (ha : x.attempt = attempt) :
    x.state.isOpen = false := by
  rcases h.cancelDependants_mem hx with ⟨hx, hle⟩ | ⟨_, _, hstate⟩
  · rcases Nat.lt_or_ge x.sequence position with hbefore | hge
    · rw [h.before x hx ha hbefore]
      rfl
    · rw [h.here x hx ha (Nat.le_antisymm (hle ha) hge)]
      rfl
  · rw [hstate]
    rfl

theorem CutAt.closed_of_last (h : CutAt items attempt position .completed)
    (hlast : ∀ x ∈ items, x.attempt = attempt → x.sequence ≤ position) (hx : x ∈ items)
    (ha : x.attempt = attempt) : x.state.isOpen = false := by
  rcases Nat.lt_or_ge x.sequence position with hbefore | hge
  · rw [h.before x hx ha hbefore]
    rfl
  · rw [h.here x hx ha (Nat.le_antisymm (hlast x hx ha) hge)]
    rfl

end Finish

end PortageEngine.Ledger
