import PortageEngine.Ledger.System

/-!
# Artifact budgets

The budget row of an attempt carries a running total of the bytes of its retained artifact
generations.  The total is never recomputed: a call subtracts the old size of one generation and adds
the new one, in 64-bit arithmetic, and refuses a result outside the limit.  This file shows that the
total is the sum it stands for in every reachable ledger.
-/

namespace PortageEngine.Ledger

open List Library Library.Rows Library.Runs
open Library.Decimal (int64 int64_eq_self int64_add_neg)

variable {l l' : Ledger}

/-- The bytes of an attempt's retained generations. -/
def retainedBytes (generations : List Generation) (attempt : AttemptId) : Nat :=
  total (fun g => g.attempt = attempt && g.active) Generation.sizeBytes generations

def Generation.key (g : Generation) : AttemptId × String :=
  (g.attempt, g.name)

/-- The budget rows agree with the generations they account for. -/
structure Tallied (l : Ledger) : Prop where
  budgets : Keyed Budget.attempt l.budgets
  generations : Keyed Generation.key l.generations
  owned : ∀ g ∈ l.generations, g.active = true →
    ∃ b ∈ l.budgets, b.attempt = g.attempt ∧ b.active = true
  tallied : ∀ b ∈ l.budgets, b.activeBytes = retainedBytes l.generations b.attempt
  limited : ∀ b ∈ l.budgets, b.activeBytes ≤ b.limitBytes ∧ b.activeBytes ≤ b.peakBytes
  sized : ∀ b ∈ l.budgets, b.limitBytes < 2 ^ 63
  policies : ∀ p ∈ l.policies, p.maxArtifactBytes < 2 ^ 63

/-- A later version of a budget row: the limit is fixed, the peak only rises, and a released row is
never written again. -/
structure Budget.Continues (b b' : Budget) : Prop where
  attempt : b'.attempt = b.attempt
  limitBytes : b'.limitBytes = b.limitBytes
  peakBytes : b.peakBytes ≤ b'.peakBytes
  released : b.active = false → b' = b

theorem Budget.Continues.refl (b : Budget) : b.Continues b :=
  ⟨rfl, rfl, Nat.le_refl _, fun _ => rfl⟩

variable {b : Budget} {attempt : AttemptId} {name : String} {size : Nat} {status : BuildStatus}
  {now : Time}

theorem Budget.Continues.trans {b' b'' : Budget} (h : b.Continues b') (h' : b'.Continues b'') :
    b.Continues b'' := by
  refine ⟨h'.attempt.trans h.attempt, h'.limitBytes.trans h.limitBytes,
    h.peakBytes.trans h'.peakBytes, ?_⟩
  intro hreleased
  have hsame := h.released hreleased
  rw [h'.released (hsame ▸ hreleased), hsame]

def Continued (l l' : Ledger) : Prop :=
  ∀ b ∈ l.budgets, ∃ b' ∈ l'.budgets, b.Continues b'

theorem Continued.trans {l₁ l₂ l₃ : Ledger} (h : Continued l₁ l₂) (h' : Continued l₂ l₃) :
    Continued l₁ l₃ := by
  intro b hb
  rcases h b hb with ⟨b', hb', hcont⟩
  rcases h' b' hb' with ⟨b'', hb'', hcont'⟩
  exact ⟨b'', hb'', hcont.trans hcont'⟩

/-- What every transaction does to the accounts. -/
def Tallies (l l' : Ledger) : Prop :=
  Tallied l → Tallied l' ∧ Continued l l'

theorem Tallies.trans {l₁ l₂ l₃ : Ledger} (h : Tallies l₁ l₂) (h' : Tallies l₂ l₃) :
    Tallies l₁ l₃ := by
  intro hl
  rcases h hl with ⟨hacc, hcont⟩
  rcases h' hacc with ⟨hacc', hcont'⟩
  exact ⟨hacc', hcont.trans hcont'⟩

/-! ## Rewriting budget rows -/

theorem Tallied.policies_of_limits (h : Tallied l)
    (hp : l'.policies.map Policy.limits = l.policies.map Policy.limits) :
    ∀ p ∈ l'.policies, p.maxArtifactBytes < 2 ^ 63 := by
  intro p hmem
  have hlimits : p.limits ∈ l.policies.map Policy.limits := by
    rw [← hp]
    exact mem_map.mpr ⟨p, hmem, rfl⟩
  rcases mem_map.mp hlimits with ⟨q, hq, heq⟩
  have hbytes : q.limits.maxArtifactBytes = p.limits.maxArtifactBytes := by rw [heq]
  exact hbytes ▸ h.policies q hq

theorem tallies_of_same (hb : l'.budgets = l.budgets) (hg : l'.generations = l.generations)
    (hp : l'.policies.map Policy.limits = l.policies.map Policy.limits) : Tallies l l' := by
  intro h
  refine ⟨⟨hb ▸ h.budgets, hg ▸ h.generations, ?_, ?_, hb ▸ h.limited, hb ▸ h.sized,
    h.policies_of_limits hp⟩, ?_⟩
  · rw [hb, hg]
    exact h.owned
  · rw [hb, hg]
    exact h.tallied
  · intro b hmem
    exact ⟨b, hb ▸ hmem, .refl b⟩

variable {p : Budget → Bool} {f : Budget → Budget} {q : Generation → Bool}
  {generations : List Generation}

theorem Tallied.rewrite (h : Tallied l)
    (hb : l'.budgets = update p f l.budgets) (hg : Keyed Generation.key l'.generations)
    (hp : l'.policies.map Policy.limits = l.policies.map Policy.limits)
    (howned : ∀ g ∈ l'.generations, g.active = true → ∃ b ∈ l.budgets,
      b.attempt = g.attempt ∧ b.active = true ∧ (p b = true → (f b).active = true))
    (hrow : ∀ b ∈ l.budgets, p b = true → b.Continues (f b) ∧
      (f b).activeBytes = retainedBytes l'.generations b.attempt ∧
      (f b).activeBytes ≤ (f b).limitBytes ∧ (f b).activeBytes ≤ (f b).peakBytes)
    (hother : ∀ b ∈ l.budgets, p b = false →
      retainedBytes l'.generations b.attempt = retainedBytes l.generations b.attempt) :
    Tallied l' ∧ Continued l l' := by
  have hkept : ∀ b ∈ l.budgets, (if p b then f b else b) ∈ l'.budgets ∧
      b.Continues (if p b then f b else b) := by
    intro b hmem
    refine ⟨hb ▸ mem_update.mpr ⟨b, hmem, rfl⟩, ?_⟩
    by_cases hpb : p b = true
    · rw [if_pos hpb]
      exact (hrow b hmem hpb).1
    · rw [if_neg hpb]
      exact .refl b
  refine ⟨⟨?_, hg, ?_, ?_, ?_, ?_, h.policies_of_limits hp⟩, fun b hmem => ⟨_, hkept b hmem⟩⟩
  · rw [hb]
    exact h.budgets.update_of_mem fun b hmem hpb => (hrow b hmem hpb).1.attempt
  · intro g hmem hactive
    rcases howned g hmem hactive with ⟨b, hmemb, hattempt, hon, hstays⟩
    refine ⟨_, (hkept b hmemb).1, (hkept b hmemb).2.attempt.trans hattempt, ?_⟩
    by_cases hpb : p b = true
    · rw [if_pos hpb]
      exact hstays hpb
    · rw [if_neg hpb]
      exact hon
  · rw [hb]
    intro x hx
    rcases mem_update_cases hx with ⟨b, hmem, hpb, rfl⟩ | ⟨hx, hpx⟩
    · rw [(hrow b hmem hpb).1.attempt]
      exact (hrow b hmem hpb).2.1
    · rw [hother x hx hpx]
      exact h.tallied x hx
  · rw [hb]
    exact forall_update h.limited fun b hmem hpb => (hrow b hmem hpb).2.2
  · rw [hb]
    refine forall_update h.sized fun b hmem hpb => ?_
    rw [(hrow b hmem hpb).1.limitBytes]
    exact h.sized b hmem

/-! ## Releasing everything an attempt retains -/

theorem tallies_release (sel : AttemptId → Bool)
    (hb : l'.budgets = update p (fun b => { b with active := false, activeBytes := 0 }) l.budgets)
    (hg : l'.generations = update q (fun g => { g with active := false }) l.generations)
    (hp : l'.policies.map Policy.limits = l.policies.map Policy.limits)
    (hbudget : ∀ b ∈ l.budgets, p b = (sel b.attempt && b.active))
    (hgeneration : ∀ g ∈ l.generations, q g = (sel g.attempt && g.active)) : Tallies l l' := by
  intro h
  -- an active generation that stays so belongs to an attempt that was not selected
  have hstays : ∀ g ∈ l'.generations, g.active = true → g ∈ l.generations ∧ sel g.attempt = false := by
    rw [hg]
    intro x hx hactive
    rcases mem_update_cases hx with ⟨g, hmem, _, rfl⟩ | ⟨hx, hq⟩
    · cases hactive
    · rw [hgeneration x hx, hactive] at hq
      exact ⟨hx, by simpa using hq⟩
  refine h.rewrite hb ?_ hp ?_ ?_ ?_
  · rw [hg]
    exact h.generations.update fun _ => rfl
  · intro g hmem hactive
    rcases hstays g hmem hactive with ⟨hold, hsel⟩
    rcases h.owned g hold hactive with ⟨b, hmemb, hattempt, hon⟩
    refine ⟨b, hmemb, hattempt, hon, ?_⟩
    intro hpb
    rw [hbudget b hmemb, hattempt, hsel] at hpb
    cases hpb
  · intro b hmem hpb
    have hselected : sel b.attempt = true ∧ b.active = true := by
      simpa [hbudget b hmem] using hpb
    refine ⟨⟨rfl, rfl, Nat.le_refl _, ?_⟩, ?_, Nat.zero_le _, Nat.zero_le _⟩
    · intro hoff
      rw [hselected.2] at hoff
      cases hoff
    · refine (total_eq_zero ?_).symm
      intro g hmemg
      by_contra hne
      have hboth : g.attempt = b.attempt ∧ g.active = true := by simpa using hne
      have hsel := (hstays g hmemg hboth.2).2
      rw [hboth.1, hselected.1] at hsel
      cases hsel
  · intro b hmem hpb
    rw [hg]
    refine total_update_eq ?_
    intro g hmemg hq
    have hsel : sel g.attempt = true ∧ g.active = true := by simpa [hgeneration g hmemg] using hq
    by_cases hattempt : g.attempt = b.attempt
    · -- the budget of an active generation is active, so this one would have been released too
      rcases h.owned g hmemg hsel.2 with ⟨b₂, hmem₂, hattempt₂, hon⟩
      have hsame : b₂ = b := h.budgets.eq hmem₂ hmem (hattempt₂.trans hattempt)
      rw [hbudget b hmem, ← hattempt, hsel.1, ← hsame, hon] at hpb
      cases hpb
    · simp [hattempt]

theorem tallies_releaseArtifactBudgetReservation :
    Tallies l (releaseArtifactBudgetReservation l attempt) :=
  tallies_release (fun a => decide (a = attempt)) rfl rfl rfl (fun _ _ => rfl) (fun _ _ => rfl)

/-! ## One generation -/

theorem generationBytes_cases (l : Ledger) (attempt : AttemptId) (name : String) :
    (∃ g ∈ l.generations, g.attempt = attempt ∧ g.name = name ∧
      generationBytes l attempt name = if g.active then g.sizeBytes else 0) ∨
    ((∀ g ∈ l.generations, ¬ (g.attempt = attempt ∧ g.name = name)) ∧
      generationBytes l attempt name = 0) := by
  unfold generationBytes
  cases hfind : l.generations.find? fun g => g.attempt = attempt && g.name = name with
  | none => exact .inr ⟨by simpa using hfind, rfl⟩
  | some g =>
    have hg : g.attempt = attempt ∧ g.name = name := by simpa using find?_some hfind
    exact .inl ⟨g, mem_of_find?_eq_some hfind, hg.1, hg.2, rfl⟩

theorem retainedBytes_update (h : Tallied l) {g : Generation} (hg : g ∈ l.generations) {f : Generation → Generation} (hq : q g = true)
    (hone : ∀ x ∈ l.generations, q x = true → x.key = g.key) (hf : (f g).attempt = g.attempt)
    (attempt : AttemptId) :
    retainedBytes (update q f l.generations) attempt +
        (if g.attempt = attempt ∧ g.active = true then g.sizeBytes else 0) =
      retainedBytes l.generations attempt +
        (if g.attempt = attempt ∧ (f g).active = true then (f g).sizeBytes else 0) := by
  have htotal := h.generations.total_update (p := fun x => decide (x.attempt = attempt) && x.active)
    (f := Generation.sizeBytes) (g := f) hg hq hone
  simpa [retainedBytes, hf] using htotal

theorem retainedBytes_reserve (h : Tallied l) (attempt : AttemptId) (name : String) (size : Nat)
    (a : AttemptId) :
    retainedBytes (reserveGeneration attempt name size l.generations) a +
        (if a = attempt then generationBytes l attempt name else 0) =
      retainedBytes l.generations a + if a = attempt then size else 0 := by
  unfold reserveGeneration
  rcases generationBytes_cases l attempt name with ⟨g, hg, rfl, rfl, hbytes⟩ | ⟨hnone, hbytes⟩
  · rw [if_pos (any_eq_true.mpr ⟨g, hg, by simp⟩), hbytes]
    have hrow := retainedBytes_update h hg (q := fun x => x.attempt = g.attempt && x.name = g.name)
      (f := fun x => { x with sizeBytes := size, active := true }) (by simp)
      (fun x _ hx => by simpa [Generation.key] using hx) rfl a
    by_cases ha : a = g.attempt
    · subst ha
      simpa using hrow
    · simpa [ha, Ne.symm ha] using hrow
  · rw [if_neg (by simpa using hnone), hbytes]
    by_cases ha : a = attempt
    · subst ha
      simp [retainedBytes, Nat.add_comm]
    · simp [retainedBytes, ha, Ne.symm ha]

theorem keyed_reserve (h : Keyed Generation.key generations) :
    Keyed Generation.key (reserveGeneration attempt name size generations) := by
  unfold reserveGeneration
  split
  · exact h.update fun _ => rfl
  rename_i hnone
  refine h.cons fun g hg hkey => hnone (any_eq_true.mpr ⟨g, hg, ?_⟩)
  simpa [Generation.key] using hkey

theorem mem_reserve {g : Generation}
    (h : g ∈ reserveGeneration attempt name size generations) :
    g.attempt = attempt ∨ g ∈ generations := by
  unfold reserveGeneration at h
  split at h
  · rcases mem_update_cases h with ⟨x, hx, hsel, rfl⟩ | ⟨h, _⟩
    · simp only [Bool.and_eq_true, decide_eq_true_eq] at hsel
      exact .inl hsel.1
    · exact .inr h
  · rcases mem_cons.mp h with rfl | h
    · exact .inl rfl
    · exact .inr h

theorem retainedBytes_release (h : Tallied l) (attempt : AttemptId) (name : String)
    (a : AttemptId) :
    retainedBytes (update (fun g => g.attempt = attempt && g.name = name && g.active)
        (fun g => { g with active := false }) l.generations) a +
        (if a = attempt then generationBytes l attempt name else 0) =
      retainedBytes l.generations a := by
  rcases generationBytes_cases l attempt name with ⟨g, hg, rfl, rfl, hbytes⟩ | ⟨hnone, hbytes⟩
  · rw [hbytes]
    by_cases hactive : g.active = true
    · have hrow := retainedBytes_update h hg
        (q := fun x => x.attempt = g.attempt && x.name = g.name && x.active)
        (f := fun x => { x with active := false }) (by simpa using hactive)
        (fun x _ hx => by simp_all [Generation.key]) rfl a
      simpa [hactive, eq_comm] using hrow
    · rw [update_eq_self]
      · simp [hactive]
      intro x hx
      by_contra hsel
      have hkey : x.attempt = g.attempt ∧ x.name = g.name ∧ x.active = true := by simpa using hsel
      have hsame := h.generations.eq hx hg (by simp [Generation.key, hkey.1, hkey.2.1])
      exact hactive (hsame ▸ hkey.2.2)
  · rw [hbytes, update_eq_self]
    · simp
    intro x hx
    have hx := hnone x hx
    simp only [not_and] at hx
    by_cases hattempt : x.attempt = attempt
    · simp [hx hattempt]
    · simp [hattempt]

theorem generationBytes_le (h : Tallied l) (attempt : AttemptId) (name : String) :
    generationBytes l attempt name ≤ retainedBytes l.generations attempt := by
  have hrelease := retainedBytes_release h attempt name attempt
  rw [if_pos rfl] at hrelease
  omega

theorem nextBytes_eq {active old : Nat} (hold : old ≤ active) (hactive : active < 2 ^ 63)
    (hsize : size < 2 ^ 63) (hnext : 0 ≤ nextBytes active old size) :
    nextBytes active old size = ((active - old + size : Nat) : Int) ∧
      active - old + size < 2 ^ 63 := by
  have hheld : int64 ((active : Int) - old) = (active : Int) - old :=
    int64_eq_self (by omega) (by omega)
  unfold nextBytes at hnext ⊢
  rw [hheld] at hnext ⊢
  by_cases hfits : (active : Int) - old + size < 2 ^ 63
  · rw [int64_eq_self (by omega) hfits]
    omega
  · exact absurd hnext (Int.not_le.mpr (int64_add_neg (by omega) (by omega) (by omega)))

/-! ## The calls -/

/-- The budget row of a call: an active one, or a new one with the limit of the project. -/
theorem ensureArtifactBudget_ok {job : JobId}
    (hok : ensureArtifactBudget l job attempt = .ok (l', b)) :
    (l' = l ∧ b ∈ l.budgets ∧ b.attempt = attempt ∧ b.active = true) ∨
    ((∀ x ∈ l.budgets, x.attempt ≠ attempt) ∧ b.attempt = attempt ∧ b.active = true ∧
      b.activeBytes = 0 ∧ b.peakBytes = 0 ∧ (∃ p ∈ l.policies, b.limitBytes = p.maxArtifactBytes) ∧
      l' = { l with budgets := b :: l.budgets }) := by
  unfold ensureArtifactBudget at hok
  cases hbudget : l.budget? attempt with
  | some x =>
    simp only [hbudget] at hok
    rcases require_bind_eq_ok.mp hok with ⟨hactive, hok⟩
    cases hok
    exact .inl ⟨rfl, mem_of_find?_eq_some hbudget, by simpa using find?_some hbudget,
      hactive⟩
  | none =>
    simp only [hbudget] at hok
    rcases bind_eq_ok.mp hok with ⟨j, _, hok⟩
    rcases bind_eq_ok.mp hok with ⟨p, hp, hok⟩
    cases hok
    have hmem := mem_of_find?_eq_some (found_eq_ok.mp hp)
    refine .inr ⟨?_, rfl, rfl, rfl, rfl, ⟨p, hmem, rfl⟩, rfl⟩
    simpa [Ledger.budget?] using hbudget

theorem tallies_ensureArtifactBudget {job : JobId}
    (hok : ensureArtifactBudget l job attempt = .ok (l', b)) : Tallies l l' := by
  rcases ensureArtifactBudget_ok hok with
    ⟨rfl, _⟩ | ⟨hfresh, hattempt, hactive, hzero, hpeak, ⟨p, hp, hlimit⟩, rfl⟩
  · exact tallies_of_same rfl rfl rfl
  intro h
  have hnothing : retainedBytes l.generations b.attempt = 0 := by
    refine total_eq_zero fun g hg => ?_
    by_contra hne
    have hboth : g.attempt = b.attempt ∧ g.active = true := by simpa using hne
    rcases h.owned g hg hboth.2 with ⟨x, hx, hxa, _⟩
    exact hfresh x hx (hxa.trans (hboth.1.trans hattempt))
  refine ⟨⟨h.budgets.cons ?_, h.generations, ?_, ?_, ?_, ?_, h.policies⟩, ?_⟩
  · exact fun x hx heq => hfresh x hx (heq.trans hattempt)
  · intro g hg hon
    rcases h.owned g hg hon with ⟨x, hx, hrow⟩
    exact ⟨x, mem_cons_of_mem _ hx, hrow⟩
  · exact forall_mem_cons.mpr ⟨hzero.trans hnothing.symm, h.tallied⟩
  · exact forall_mem_cons.mpr ⟨by simp [hzero], h.limited⟩
  · exact forall_mem_cons.mpr ⟨hlimit ▸ h.policies p hp, h.sized⟩
  · exact fun x hx => ⟨x, mem_cons_of_mem _ hx, .refl x⟩

theorem setArtifactGenerationBytes_ok
    (hok : setArtifactGenerationBytes l status name size now = .ok l') :
    ∃ attempt l₁ b, status.attemptId = some attempt ∧
      ensureArtifactBudget l status.jobId attempt = .ok (l₁, b) ∧ l₁.generations = l.generations ∧
      b ∈ l₁.budgets ∧ b.attempt = attempt ∧ b.active = true ∧
      0 ≤ nextBytes b.activeBytes (generationBytes l₁ attempt name) size ∧
      nextBytes b.activeBytes (generationBytes l₁ attempt name) size ≤ b.limitBytes ∧
      l' = { l₁ with
        generations := reserveGeneration attempt name size l₁.generations
        budgets := update (fun b => b.attempt = attempt && b.active)
          (fun x => { x with
            activeBytes := (nextBytes b.activeBytes (generationBytes l₁ attempt name) size).toNat
            peakBytes := max x.peakBytes
              (nextBytes b.activeBytes (generationBytes l₁ attempt name) size).toNat })
          l₁.budgets } := by
  replace hok := passed hok
  rcases bind_eq_ok.mp hok with ⟨attempt, hfence, hok⟩
  rcases bind_eq_ok.mp hok with ⟨⟨l₁, b⟩, hensure, hok⟩
  rcases require_bind_eq_ok.mp hok with ⟨hfits, hok⟩
  cases hok
  simp only [Bool.and_eq_true, decide_eq_true_eq] at hfits
  refine ⟨attempt, l₁, b, (validateMetadataFence_ok hfence).1, hensure, ?_, ?_, ?_, ?_, hfits.1,
    hfits.2, rfl⟩
  all_goals rcases ensureArtifactBudget_ok hensure with ⟨rfl, hb, ha, hon⟩ | ⟨_, ha, hon, _, _, _, rfl⟩
  all_goals simp_all

theorem Tallied.rewriteOne (h : Tallied l) (hb : b ∈ l.budgets) (hactive : b.active = true)
    (hbudgets : l'.budgets = update (fun x => decide (x.attempt = b.attempt) && x.active) f l.budgets)
    (hg : Keyed Generation.key l'.generations) (hp : l'.policies = l.policies)
    (hgenerations : ∀ g ∈ l'.generations, g.active = true → g.attempt = b.attempt ∨ g ∈ l.generations)
    (hf : (f b).attempt = b.attempt ∧ (f b).limitBytes = b.limitBytes ∧
      b.peakBytes ≤ (f b).peakBytes ∧ (f b).active = true)
    (hbytes : (f b).activeBytes = retainedBytes l'.generations b.attempt ∧
      (f b).activeBytes ≤ b.limitBytes ∧ (f b).activeBytes ≤ (f b).peakBytes)
    (hother : ∀ a, a ≠ b.attempt → retainedBytes l'.generations a = retainedBytes l.generations a) :
    Tallied l' ∧ Continued l l' := by
  have hrow : ∀ x ∈ l.budgets, x.attempt = b.attempt → x = b := fun x hx hxb => h.budgets.eq hx hb hxb
  refine h.rewrite hbudgets hg (congrArg _ hp) ?_ ?_ ?_
  · intro g hmem hon
    rcases hgenerations g hmem hon with hown | hold
    · exact ⟨b, hb, hown.symm, hactive, fun _ => hf.2.2.2⟩
    rcases h.owned g hold hon with ⟨x, hx, hxa, hxon⟩
    refine ⟨x, hx, hxa, hxon, fun hsel => ?_⟩
    rw [hrow x hx (by simpa [hxon] using hsel)]
    exact hf.2.2.2
  · intro x hx hsel
    simp only [Bool.and_eq_true, decide_eq_true_eq] at hsel
    rw [hrow x hx hsel.1]
    refine ⟨⟨hf.1, hf.2.1, hf.2.2.1, fun hoff => ?_⟩, hbytes.1, hf.2.1 ▸ hbytes.2.1, hbytes.2.2⟩
    rw [hactive] at hoff
    cases hoff
  · intro x hx hsel
    refine hother x.attempt fun hxb => ?_
    simp [hrow x hx hxb, hactive] at hsel

theorem setArtifactGenerationBytes_tallies (hsize : size < 2 ^ 63)
    (hok : setArtifactGenerationBytes l status name size now = .ok l') :
    Tallied l → (Tallied l' ∧ Continued l l') ∧ ∃ attempt, status.attemptId = some attempt ∧
      retainedBytes l'.generations attempt =
        retainedBytes l.generations attempt - generationBytes l attempt name + size ∧
      retainedBytes l.generations attempt - generationBytes l attempt name + size < 2 ^ 63 := by
  intro h
  rcases setArtifactGenerationBytes_ok hok with
    ⟨attempt, l₁, b, hstatus, hensure, hsame, hb, rfl, hon, hpos, hlimit, rfl⟩
  rcases tallies_ensureArtifactBudget hensure h with ⟨h₁, hcont₁⟩
  have hold := generationBytes_le h₁ b.attempt name
  have hbytes : generationBytes l₁ b.attempt name = generationBytes l b.attempt name := by
    unfold generationBytes
    rw [hsame]
  have htallied := h₁.tallied b hb
  rcases nextBytes_eq (htallied ▸ hold) ((h₁.limited b hb).1.trans_lt (h₁.sized b hb)) hsize hpos with
    ⟨hnext, hfits⟩
  rw [hnext] at hlimit
  have hreserve := retainedBytes_reserve h₁ b.attempt name size
  have hself := hreserve b.attempt
  rw [if_pos rfl, if_pos rfl] at hself
  have hsum : retainedBytes (reserveGeneration b.attempt name size l₁.generations) b.attempt =
      b.activeBytes - generationBytes l₁ b.attempt name + size := by
    omega
  refine ⟨?_, b.attempt, hstatus, ?_, ?_⟩
  · rw [hnext]
    refine And.imp_right hcont₁.trans (h₁.rewriteOne hb hon rfl (keyed_reserve h₁.generations) rfl
      (fun g hg _ => mem_reserve hg) ⟨rfl, rfl, Nat.le_max_left _ _, hon⟩
      ⟨hsum.symm, Int.ofNat_le.mp hlimit, Nat.le_max_right _ _⟩ ?_)
    exact fun a ha => by simpa [ha] using hreserve a
  · rw [hsum, htallied, hbytes, hsame]
  · rw [← hbytes, ← hsame, ← htallied]
    exact hfits

theorem tallies_releaseArtifactGeneration
    (hok : releaseArtifactGeneration l status name now = .ok l') : Tallies l l' := by
  rcases bind_eq_ok.mp hok with ⟨attempt, _, hok⟩
  by_cases hactive : (l.budgets.any fun b => b.attempt = attempt && b.active) = true
  · rw [if_pos hactive] at hok
    cases hok
    intro h
    simp only [any_eq_true, Bool.and_eq_true, decide_eq_true_eq] at hactive
    rcases hactive with ⟨b, hb, rfl, hon⟩
    have hrelease := retainedBytes_release h b.attempt name
    have hself := hrelease b.attempt
    rw [if_pos rfl] at hself
    have htallied := h.tallied b hb
    have hlimited := h.limited b hb
    refine h.rewriteOne hb hon rfl (h.generations.update fun _ => rfl) rfl ?_
      ⟨rfl, rfl, Nat.le_refl _, hon⟩ ⟨?_, ?_, ?_⟩ (fun a ha => by simpa [ha] using hrelease a)
    · intro g hg hon'
      rcases mem_update_cases hg with ⟨x, hx, _, rfl⟩ | ⟨hg, _⟩
      · cases hon'
      · exact .inr hg
    · exact Nat.sub_eq_of_eq_add (htallied.trans hself.symm)
    · exact (Nat.sub_le _ _).trans hlimited.1
    · exact (Nat.sub_le _ _).trans hlimited.2
  · rw [if_neg hactive] at hok
    cases hok
    exact tallies_of_same rfl rfl rfl

theorem tallies_releaseArtifactBudget (hok : releaseArtifactBudget l status now = .ok l') :
    Tallies l l' := by
  rcases bind_eq_ok.mp hok with ⟨attempt, _, hok⟩
  split at hok
  · cases hok
    exact tallies_releaseArtifactBudgetReservation
  · cases hok
    exact tallies_of_same rfl rfl rfl

/-! ## Runs -/

/-- The calls on the budgets, the release that ends an attempt, and what other transactions do. -/
inductive BudgetOp
  | artifactBudget (status : BuildStatus) (now : Time)
  | setGeneration (status : BuildStatus) (name : String) (size : Nat) (now : Time)
  | releaseGeneration (status : BuildStatus) (name : String) (now : Time)
  | releaseBudget (status : BuildStatus) (now : Time)
  | endAttempt (attempt : AttemptId)
  /-- The other tables become those of the given ledger. -/
  | elsewhere (others : Ledger)

def BudgetOp.run (l : Ledger) : BudgetOp → Except LedgerError Ledger
  | .artifactBudget status now => Prod.fst <$> l.artifactBudget status now
  | .setGeneration status name size now => setArtifactGenerationBytes l status name size now
  | .releaseGeneration status name now => releaseArtifactGeneration l status name now
  | .releaseBudget status now => releaseArtifactBudget l status now
  | .endAttempt attempt => .ok (releaseArtifactBudgetReservation l attempt)
  | .elsewhere others => .ok { others with budgets := l.budgets, generations := l.generations }

def stepBudgets (l : Ledger) (op : BudgetOp) : Ledger :=
  match op.run l with
  | .ok l' => l'
  | .error _ => l

/-- Sizes and limits are those of 64-bit columns. -/
def BudgetOp.Sized : BudgetOp → Prop
  | .setGeneration _ _ size _ => size < 2 ^ 63
  | .elsewhere others => ∀ p ∈ others.policies, p.maxArtifactBytes < 2 ^ 63
  | _ => True

theorem BudgetOp.tallies {op : BudgetOp} (hsized : op.Sized) (hok : op.run l = .ok l') :
    Tallies l l' := by
  cases op with
  | artifactBudget status now =>
    rcases map_eq_ok.mp hok with ⟨⟨k, b⟩, hk, rfl⟩
    rcases bind_eq_ok.mp hk with ⟨attempt, _, hk⟩
    exact tallies_ensureArtifactBudget hk
  | setGeneration status name size now =>
    exact fun h => (setArtifactGenerationBytes_tallies hsized hok h).1
  | releaseGeneration status name now => exact tallies_releaseArtifactGeneration hok
  | releaseBudget status now => exact tallies_releaseArtifactBudget hok
  | endAttempt attempt =>
    cases hok
    exact tallies_releaseArtifactBudgetReservation
  | elsewhere others =>
    cases hok
    exact fun h => ⟨⟨h.budgets, h.generations, h.owned, h.tallied, h.limited, h.sized, hsized⟩,
      fun b hb => ⟨b, hb, .refl b⟩⟩

theorem tallies_stepBudgets {op : BudgetOp} (hsized : op.Sized) : Tallies l (stepBudgets l op) := by
  unfold stepBudgets
  cases hrun : op.run l with
  | ok l' => exact op.tallies hsized hrun
  | error e => exact tallies_of_same rfl rfl rfl

theorem tallies_run {ops : List BudgetOp} (hsized : ∀ op ∈ ops, op.Sized) :
    Tallies l (run stepBudgets l ops) := by
  induction ops generalizing l with
  | nil => exact tallies_of_same rfl rfl rfl
  | cons op ops ih =>
    exact (tallies_stepBudgets (hsized op (by simp))).trans
      (ih fun x hx => hsized x (mem_cons_of_mem _ hx))

/-- What the budget rows say: the sum of the retained generations, within the limit and the peak and
within 64 bits, and zero once the budget is released. -/
structure BudgetsSound (l : Ledger) : Prop where
  tallied : ∀ b ∈ l.budgets, b.activeBytes = retainedBytes l.generations b.attempt
  limited : ∀ b ∈ l.budgets, b.activeBytes ≤ b.limitBytes ∧ b.limitBytes < 2 ^ 63
  peaked : ∀ b ∈ l.budgets, b.activeBytes ≤ b.peakBytes
  released : ∀ b ∈ l.budgets, b.active = false → b.activeBytes = 0

theorem Tallied.sound (h : Tallied l) : BudgetsSound l := by
  refine ⟨h.tallied, fun b hb => ⟨(h.limited b hb).1, h.sized b hb⟩, fun b hb => (h.limited b hb).2, ?_⟩
  intro b hb hoff
  rw [h.tallied b hb]
  refine total_eq_zero fun g hg => ?_
  by_contra hne
  have hboth : g.attempt = b.attempt ∧ g.active = true := by simpa using hne
  rcases h.owned g hg hboth.2 with ⟨x, hx, hxa, hxon⟩
  rw [h.budgets.eq hx hb (hxa.trans hboth.1), hoff] at hxon
  cases hxon

/-- In every reachable ledger the budgets are sound; from there on limits stay, peaks only rise and
released budgets stay at zero; a refused call changes nothing; and a size is accepted only if the sum
it leads to fits 64 bits, and then that sum is what the generations add up to. -/
theorem artifact_budgets_conserved (policies : List Policy)
    (hpolicies : ∀ p ∈ policies, p.maxArtifactBytes < 2 ^ 63) (ops : List BudgetOp)
    (hsized : ∀ op ∈ ops, op.Sized) :
    let l := run stepBudgets (empty policies) ops
    BudgetsSound l ∧
    (∀ more : List BudgetOp, (∀ op ∈ more, op.Sized) → Continued l (run stepBudgets l more)) ∧
    (∀ (op : BudgetOp) (e : LedgerError), op.run l = .error e → stepBudgets l op = l) ∧
    ∀ (status : BuildStatus) (name : String) (size : Nat) (now : Time) (l' : Ledger),
      size < 2 ^ 63 → setArtifactGenerationBytes l status name size now = .ok l' →
      ∃ attempt, status.attemptId = some attempt ∧
        retainedBytes l'.generations attempt =
          retainedBytes l.generations attempt - generationBytes l attempt name + size ∧
        retainedBytes l.generations attempt - generationBytes l attempt name + size < 2 ^ 63 := by
  have hstart : Tallied (empty policies) := by
    refine ⟨nodup_nil, nodup_nil, ?_, ?_, ?_, ?_, hpolicies⟩
    all_goals exact fun _ hx => absurd hx not_mem_nil
  have hacc := (tallies_run hsized hstart).1
  refine ⟨hacc.sound, fun more hmore => (tallies_run hmore hacc).2, ?_, ?_⟩
  · intro op e he
    simp only [stepBudgets, he]
  · intro status name size now l' hsize hok
    exact (setArtifactGenerationBytes_tallies hsize hok hacc).2

def oneByteRun : List BudgetOp :=
  [.elsewhere (run step (System.init [examplePolicy]) [exampleCreate 1 0, exampleClaim 1 7 0]).ledger,
    .setGeneration (exampleStatus 1 7 .building 1) "a" 1 1]

theorem artifact_budgets_conserved_oneByte :
    BudgetsSound (run stepBudgets (empty []) oneByteRun) := by
  refine (artifact_budgets_conserved [] (by simp) oneByteRun ?_).1
  intro op hop
  simp only [oneByteRun, mem_cons, not_mem_nil, or_false] at hop
  rcases hop with rfl | rfl
  · unfold BudgetOp.Sized
    decide +kernel
  · unfold BudgetOp.Sized
    decide

/-- The sum that a call asks for can exceed 64 bits: it wraps around to a negative value, and the
call is refused for that. -/
theorem requested_sum_overflows :
    let l := run stepBudgets (empty []) oneByteRun
    let huge := 2 ^ 63 - 1
    (l.budgets.map fun b => (b.attempt, b.activeBytes, b.limitBytes)) = [(7, 1, 1000000)] ∧
      nextBytes 1 (generationBytes l 7 "b") huge = -2 ^ 63 ∧
      (setArtifactGenerationBytes l (exampleStatus 1 7 .building 2) "b" huge 2).isOk = false := by
  decide +kernel

end PortageEngine.Ledger
