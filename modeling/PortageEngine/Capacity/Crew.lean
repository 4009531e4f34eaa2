import PortageEngine.Capacity.Ownership

/-!
# Worker slots and leaving instances

What the calls of the capacity layer do to the rows of the worker slots, and when an instance is on
its way out: from the call that selects it on, and its slots are told to drain by that same call.
-/

namespace PortageEngine.Capacity

open List Library Library.Rows
open Ledger

/-! ## The worker rows -/

def Fleet.worker? (f : Fleet) (name : Worker) : Option WorkerRow :=
  f.workers.find? (·.name = name)

variable {row : WorkerRow}

theorem mem_of_worker? {f : Fleet} {name : Worker}
    (h : f.worker? name = some row) : row ∈ f.workers ∧ row.name = name :=
  ⟨mem_of_find?_eq_some h, by simpa using find?_some h⟩

theorem taker_of_worker? {f : Fleet} {name : Worker}
    (h : f.worker? name = some row) (w : Worker)
    (hw : (if row.active then some name else none) = some w) :
    w = name ∧ ∃ row ∈ f.workers, row.name = name ∧ row.active = true := by
  rcases mem_of_worker? h with ⟨hmem, hname⟩
  by_cases hactive : row.active = true
  · rw [if_pos hactive] at hw
    exact ⟨(Option.some.inj hw).symm, row, hmem, hname, hactive⟩
  · rw [if_neg hactive] at hw
    cases hw

section Workers

variable {f f' : Fleet}

section Register

variable {name : Worker} {role : Role} {labels : List Label} {protocol : Nat} {now : Time}

/-- The rows after a registration: those of other slots, and the slot's own, which is active if it
was so before or is new. -/
theorem mem_registerWorker {w' : WorkerRow}
    (h : w' ∈ (registerWorker f name role labels protocol now).workers) :
    (w'.name ≠ name ∧ w' ∈ f.workers) ∨
      (w'.name = name ∧ w'.labels = labels ∧
        ∀ w ∈ f.workers, w.name = name → Keyed WorkerRow.name f.workers → w'.active = w.active) := by
  unfold registerWorker at h
  by_cases hany : f.workers.any (·.name = name) = true
  · rw [if_pos hany] at h
    rcases mem_update_cases h with ⟨w, hw, hname, rfl⟩ | ⟨hw, hname⟩
    · replace hname := of_decide_eq_true hname
      refine .inr ⟨hname, rfl, ?_⟩
      intro x hx hxname hkeyed
      rw [hkeyed.eq hx hw (hxname.trans hname.symm)]
    · exact .inl ⟨of_decide_eq_false hname, hw⟩
  · rw [if_neg hany] at h
    have hnone : ∀ x ∈ f.workers, x.name ≠ name := by simpa using hany
    rcases mem_append.mp h with hw | hw
    · exact .inl ⟨hnone w' hw, hw⟩
    · rw [mem_singleton.mp hw]
      exact .inr ⟨rfl, rfl, fun x hx hxname _ => absurd hxname (hnone x hx)⟩

theorem name_mem_registerWorker (f : Fleet) (name : Worker) (role : Role) (labels : List Label)
    (protocol : Nat) (now : Time) :
    ∃ w' ∈ (registerWorker f name role labels protocol now).workers, w'.name = name := by
  unfold registerWorker
  by_cases hany : f.workers.any (·.name = name) = true
  · rw [if_pos hany]
    rcases any_eq_true.mp hany with ⟨w, hw, hname⟩
    refine ⟨_, mem_update.mpr ⟨w, hw, rfl⟩, ?_⟩
    rw [if_pos hname]
    simpa using hname
  · rw [if_neg hany]
    exact ⟨_, mem_append_right _ mem_cons_self, rfl⟩

theorem names_registerWorker (name : Worker) (role : Role) (labels : List Label) (protocol : Nat)
    (now : Time) {w : WorkerRow} (hw : w ∈ f.workers) :
    ∃ w' ∈ (registerWorker f name role labels protocol now).workers, w'.name = w.name := by
  unfold registerWorker
  split
  · refine ⟨_, mem_update.mpr ⟨w, hw, rfl⟩, ?_⟩
    split <;> rfl
  · exact ⟨w, mem_append_left _ hw, rfl⟩

theorem keyed_registerWorker (h : Keyed WorkerRow.name f.workers) :
    Keyed WorkerRow.name (registerWorker f name role labels protocol now).workers := by
  unfold registerWorker
  by_cases hany : f.workers.any (·.name = name) = true
  · rw [if_pos hany]
    exact h.update fun _ => rfl
  rw [if_neg hany]
  have hnone : ∀ x ∈ f.workers, x.name ≠ name := by simpa using hany
  unfold Keyed
  rw [map_append]
  refine List.Nodup.append h (nodup_singleton _) ?_
  intro x hx hnew
  rcases mem_map.mp hx with ⟨w, hw, rfl⟩
  exact hnone w hw (by simpa using hnew)

theorem registerWorker_rest (f : Fleet) (name : Worker) (role : Role) (labels : List Label)
    (protocol : Nat) (now : Time) :
    (registerWorker f name role labels protocol now).actions = f.actions ∧
      (registerWorker f name role labels protocol now).instances = f.instances := by
  unfold registerWorker
  split <;> exact ⟨rfl, rfl⟩

end Register

end Workers

/-! ## Leaving -/

/-- The instance has been selected for deletion. -/
def Fleet.leaving (f : Fleet) (i : InstanceId) : Bool :=
  f.instances.any fun x => x.id = i &&
    (x.state = .draining || x.state = .deleting || x.state = .deleted)

section Leaving

variable {f f' : Fleet} {claim : Option (Claim × Time)} {grant confirm : PoolId → Prop}
  {i : InstanceId}

theorem leaving_iff : f.leaving i = true ↔ ∃ x ∈ f.instances, x.id = i ∧
    (x.state = .draining ∨ x.state = .deleting ∨ x.state = .deleted) := by
  simp [Fleet.leaving, or_assoc]

theorem leaving_stays (heffect : Effect claim grant confirm f f') (h : f.leaving i = true) :
    f'.leaving i = true := by
  have hsame : f'.instances = f.instances → f'.leaving i = true := by
    intro hinstances
    unfold Fleet.leaving
    rw [hinstances]
    exact h
  rcases leaving_iff.mp h with ⟨x, hx, hid, hstate⟩
  cases heffect with
  | quiet _ hinstances | enqueue _ _ _ _ _ _ hinstances | rewrite _ _ _ _ _ _ hinstances
  | take _ _ _ _ _ _ hinstances | hold _ _ _ _ _ _ hinstances =>
    exact hsame hinstances
  | reopen now heq => exact hsame (by rw [heq]; rfl)
  | reserve _ _ _ _ _ _ _ _ _ hinstances =>
    refine leaving_iff.mpr ⟨x, ?_, hid, hstate⟩
    rw [hinstances]
    exact mem_cons_of_mem _ hx
  | drain c _ _ target _ _ _ _ _ _ hinstances =>
    refine leaving_iff.mpr ⟨_, by rw [hinstances]; exact mem_update.mpr ⟨x, hx, rfl⟩, ?_⟩
    by_cases htarget : x.id = target.id
    · rw [if_pos (by simpa using htarget)]
      refine ⟨hid, ?_⟩
      simp only [drainRow]
      split <;> simp
    · rw [if_neg (by simpa using htarget)]
      exact ⟨hid, hstate⟩
  | move c _ _ ref from_ to_ _ hmoves _ g _ _ hg hinstances =>
    refine leaving_iff.mpr ⟨_, by rw [hinstances]; exact mem_update.mpr ⟨x, hx, rfl⟩, ?_⟩
    by_cases his : x.is c ref from_ = true
    · rw [if_pos his]
      simp only [Instance.is, Bool.and_eq_true, decide_eq_true_eq] at his
      rw [(hg x).1, (hg x).2.2.2.2 his.2]
      rw [his.2] at hstate
      refine ⟨hid, ?_⟩
      cases hmoves <;> simp at hstate ⊢
    · rw [if_neg his]
      exact ⟨hid, hstate⟩

theorem leaving_starts (heffect : Effect claim grant confirm f f') (h : f'.leaving i = true) :
    f.leaving i = true ∨
      ∀ w ∈ f'.workers, w.labels.contains (capacityInstanceLabel i) = true → w.active = false := by
  have hsame : f'.instances = f.instances → f.leaving i = true := by
    intro hinstances
    unfold Fleet.leaving at h ⊢
    rw [← hinstances]
    exact h
  rcases leaving_iff.mp h with ⟨x, hx, hid, hstate⟩
  cases heffect with
  | quiet _ hinstances | enqueue _ _ _ _ _ _ hinstances | rewrite _ _ _ _ _ _ hinstances
  | take _ _ _ _ _ _ hinstances | hold _ _ _ _ _ _ hinstances =>
    exact .inl (hsame hinstances)
  | reopen now heq => exact .inl (hsame (by rw [heq]; rfl))
  | reserve _ _ _ _ _ _ _ hi _ hinstances =>
    rw [hinstances] at hx
    rcases mem_cons.mp hx with rfl | hx
    · simp [hi.2.2.2] at hstate
    · exact .inl (leaving_iff.mpr ⟨x, hx, hid, hstate⟩)
  | drain c _ _ target _ _ _ _ _ _ hinstances hworkers =>
    rw [hinstances] at hx
    rcases mem_update_cases hx with ⟨y, hy, htarget, rfl⟩ | ⟨hx, _⟩
    · have hlabel : target.id = i := (of_decide_eq_true htarget).symm.trans hid
      refine .inr ?_
      rw [hworkers, hlabel]
      intro w hw hon
      rcases mem_update_cases hw with ⟨v, hv, _, rfl⟩ | ⟨_, hnot⟩
      · rfl
      · exact absurd hon (Bool.eq_false_iff.mp hnot)
    · exact .inl (leaving_iff.mpr ⟨x, hx, hid, hstate⟩)
  | move c _ _ ref from_ to_ _ hmoves _ g _ _ hg hinstances =>
    rw [hinstances] at hx
    rcases mem_update_cases hx with ⟨y, hy, his, rfl⟩ | ⟨hx, _⟩
    · simp only [Instance.is, Bool.and_eq_true, decide_eq_true_eq] at his
      rw [(hg y).1] at hid
      rw [(hg y).2.2.2.2 his.2] at hstate
      refine .inl (leaving_iff.mpr ⟨y, hy, hid, ?_⟩)
      rw [his.2]
      cases hmoves <;> simp at hstate ⊢
    · exact .inl (leaving_iff.mpr ⟨x, hx, hid, hstate⟩)

end Leaving

end PortageEngine.Capacity
