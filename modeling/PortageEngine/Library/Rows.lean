import Mathlib

/-!
# Tables as lists of rows

A table of a relational store is a list of rows.  `update` and `delete` are the statements of the
same name with a `WHERE` clause, and `total` is a sum over the rows a clause selects; a count is the
total of the constant one.  `Keyed` says that a column is a primary key.
-/

namespace PortageEngine.Library

open List
namespace Rows

variable {α β γ : Type}

/-- `UPDATE … SET … WHERE …`. -/
def update (p : α → Bool) (f : α → α) (rows : List α) : List α :=
  rows.map fun r => if p r then f r else r

/-- `DELETE … WHERE …`. -/
def delete (p : α → Bool) (rows : List α) : List α :=
  rows.filter fun r => !p r

/-- `SELECT sum(…) … WHERE …`. -/
def total (p : α → Bool) (f : α → Nat) (rows : List α) : Nat :=
  (rows.map fun r => if p r then f r else 0).sum

/-- `SELECT count(*) … WHERE …`. -/
def count (p : α → Bool) (rows : List α) : Nat :=
  total p (fun _ => 1) rows

/-- The column `key` is a primary key: no value of it occurs twice. -/
def Keyed (key : α → β) (rows : List α) : Prop :=
  (rows.map key).Nodup

/-! ## Membership -/

variable {p : α → Bool} {f : α → α} {rows : List α} {key : α → β} {P : α → Prop} {q : α → Bool}
  {g : α → α}

variable {x r : α}

theorem mem_update :
    x ∈ update p f rows ↔ ∃ r ∈ rows, (if p r then f r else r) = x := by
  simp [update]

theorem mem_delete :
    x ∈ delete p rows ↔ x ∈ rows ∧ p x = false := by
  simp [delete]

/-- A row after an update is the new value of a selected row, or a row that was not selected. -/
theorem mem_update_cases (h : x ∈ update p f rows) :
    (∃ r ∈ rows, p r = true ∧ f r = x) ∨ (x ∈ rows ∧ p x = false) := by
  rcases mem_update.mp h with ⟨r, hr, rfl⟩
  by_cases hp : p r = true
  · rw [if_pos hp]
    exact .inl ⟨r, hr, hp, rfl⟩
  · rw [if_neg hp]
    exact .inr ⟨hr, Bool.not_eq_true _ ▸ hp⟩

/-- A property of rows that the new values keep holds after an update if it held before. -/
theorem forall_update (hrows : ∀ r ∈ rows, P r) (hf : ∀ r ∈ rows, p r = true → P (f r)) :
    ∀ x ∈ update p f rows, P x := by
  intro x hx
  rcases mem_update_cases hx with ⟨r, hr, hp, rfl⟩ | ⟨hx, _⟩
  · exact hf r hr hp
  · exact hrows x hx

/-- Some row satisfies `P` after an update exactly if the new value of some old row does. -/
theorem exists_update :
    (∃ x ∈ update p f rows, P x) ↔ ∃ r ∈ rows, P (if p r then f r else r) := by
  constructor
  · rintro ⟨x, hx, hP⟩
    rcases mem_update.mp hx with ⟨r, hr, rfl⟩
    exact ⟨r, hr, hP⟩
  · rintro ⟨r, hr, hP⟩
    exact ⟨_, mem_update.mpr ⟨r, hr, rfl⟩, hP⟩

theorem update_eq_self (h : ∀ r ∈ rows, p r = false) : update p f rows = rows := by
  calc rows.map (fun r => if p r then f r else r)
      = rows.map id := map_congr_left fun r hr => by simp [h r hr]
    _ = rows := map_id rows

/-- Two updates to the same value, the second of which does not select what the first has set. -/
theorem update_update (h : ∀ r, q (f r) = false) :
    update q f (update p f rows) = update (fun r => p r || q r) f rows := by
  unfold update
  rw [map_map]
  refine map_congr_left ?_
  intro r _
  by_cases hp : p r = true
  · simp [hp, h]
  · simp [hp]

theorem exists_switchOff {on sel : α → Bool} {b : β} (hoff : ∀ r, on (f r) = false) :
    (∃ x ∈ update (fun r => sel r && on r) f rows, key x = b ∧ on x = true) ↔
      ∃ r ∈ rows, key r = b ∧ on r = true ∧ sel r = false := by
  rw [exists_update]
  constructor
  · rintro ⟨r, hr, hkey, hon⟩
    by_cases hsel : (sel r && on r) = true
    · simp [hsel, hoff] at hon
    rw [if_neg hsel] at hkey hon
    refine ⟨r, hr, hkey, hon, ?_⟩
    simpa [hon] using hsel
  · rintro ⟨r, hr, hkey, hon, hsel⟩
    exact ⟨r, hr, by simp [hsel, hkey, hon]⟩

theorem exists_switchOff_key [DecidableEq β] {on : α → Bool}
    {a b : β} (hoff : ∀ r, on (f r) = false) :
    (∃ x ∈ update (fun r => decide (key r = a) && on r) f rows, key x = b ∧ on x = true) ↔
      (∃ r ∈ rows, key r = b ∧ on r = true) ∧ b ≠ a := by
  rw [exists_switchOff hoff]
  constructor
  · rintro ⟨r, hr, rfl, hon, hsel⟩
    exact ⟨⟨r, hr, rfl, hon⟩, by simpa using hsel⟩
  · rintro ⟨⟨r, hr, rfl, hon⟩, hne⟩
    exact ⟨r, hr, rfl, hon, by simpa using hne⟩

theorem exists_update_same (h : ∀ r ∈ rows, p r = true → (P (f r) ↔ P r)) :
    (∃ x ∈ update p f rows, P x) ↔ ∃ r ∈ rows, P r := by
  rw [exists_update]
  refine exists_congr fun r => and_congr_right fun hr => ?_
  by_cases hp : p r = true
  · rw [if_pos hp]
    exact h r hr hp
  · rw [if_neg hp]

/-! ## Keys -/

theorem map_update_of_mem (hkey : ∀ r ∈ rows, p r = true → key (f r) = key r) :
    (update p f rows).map key = rows.map key := by
  unfold update
  rw [map_map]
  refine map_congr_left ?_
  intro r hr
  by_cases hp : p r = true
  · simp [hp, hkey r hr hp]
  · simp [hp]

theorem map_update (hkey : ∀ r, key (f r) = key r) : (update p f rows).map key = rows.map key :=
  map_update_of_mem fun r _ _ => hkey r

theorem find?_update [DecidableEq β] (hkey : ∀ r, key (f r) = key r) (k : β) :
    (update p f rows).find? (fun r => decide (key r = k)) =
      (rows.find? fun r => decide (key r = k)).map fun r => if p r then f r else r := by
  unfold update
  rw [find?_map]
  congr 2
  funext r
  by_cases hp : p r = true
  · simp [hp, hkey]
  · simp [hp]

theorem Keyed.update_of_mem
    (h : Keyed key rows) (hkey : ∀ r ∈ rows, p r = true → key (f r) = key r) :
    Keyed key (update p f rows) := by
  unfold Keyed
  rw [map_update_of_mem hkey]
  exact h

theorem Keyed.update
    (h : Keyed key rows) (hkey : ∀ r, key (f r) = key r) : Keyed key (update p f rows) :=
  h.update_of_mem fun r _ _ => hkey r

theorem Keyed.delete (h : Keyed key rows) :
    Keyed key (delete p rows) :=
  h.sublist (filter_sublist.map key)

theorem Keyed.cons (h : Keyed key rows)
    (hr : ∀ x ∈ rows, key x ≠ key r) : Keyed key (r :: rows) := by
  unfold Keyed
  rw [map_cons, nodup_cons]
  refine ⟨?_, h⟩
  intro hmem
  rcases mem_map.mp hmem with ⟨x, hx, hkey⟩
  exact hr x hx hkey

theorem Keyed.filterMap {f : α → Option γ} {key' : γ → β}
    (h : Keyed key rows) (hf : ∀ x y, f x = some y → key' y = key x) :
    Keyed key' (rows.filterMap f) := by
  induction rows with
  | nil => exact nodup_nil
  | cons r rows ih =>
    have hcons := nodup_cons.mp h
    cases hr : f r with
    | none =>
      rw [filterMap_cons_none hr]
      exact ih hcons.2
    | some y =>
      rw [filterMap_cons_some hr]
      refine (ih hcons.2).cons ?_
      intro z hz hkey
      rcases mem_filterMap.mp hz with ⟨x, hx, hxz⟩
      refine hcons.1 (mem_map.mpr ⟨x, hx, ?_⟩)
      rw [← hf x z hxz, hkey, hf r y hr]

theorem Keyed.eq (h : Keyed key rows) {x y : α} (hx : x ∈ rows)
    (hy : y ∈ rows) (hkey : key x = key y) : x = y :=
  inj_on_of_nodup_map h hx hy hkey

theorem Keyed.find [DecidableEq β] (h : Keyed key rows)
    (hx : x ∈ rows) : rows.find? (fun r => decide (key r = key x)) = some x := by
  cases hfind : rows.find? (fun r => decide (key r = key x)) with
  | none =>
    have := find?_eq_none.mp hfind x hx
    simp at this
  | some y =>
    have hy : y ∈ rows := mem_of_find?_eq_some hfind
    have hkey : key y = key x := by simpa using find?_some hfind
    rw [h.eq hy hx hkey]

/-! ## Totals -/

@[simp] theorem total_nil {f : α → Nat} : total p f [] = 0 := rfl

@[simp] theorem total_cons {f : α → Nat} :
    total p f (r :: rows) = (if p r then f r else 0) + total p f rows := by
  simp [total]

theorem total_cons_le {f : α → Nat} {n : Nat} (hr : p r = true → total p f rows + f r ≤ n)
    (h : total p f rows ≤ n) : total p f (r :: rows) ≤ n := by
  rw [total_cons, Nat.add_comm]
  split
  · exact hr ‹_›
  · exact h

theorem total_update_le {f : α → Nat}
    (h : ∀ r ∈ rows, q r = true → (if p (g r) then f (g r) else 0) ≤ if p r then f r else 0) :
    total p f (update q g rows) ≤ total p f rows := by
  induction rows with
  | nil => simp [update]
  | cons r rows ih =>
    have hrest := ih fun x hx => h x (by simp [hx])
    have hhead : (if p (if q r then g r else r) then f (if q r then g r else r) else 0) ≤
        if p r then f r else 0 := by
      by_cases hq : q r = true
      · simpa [hq] using h r (by simp) hq
      · simp [hq]
    have hcons : update q g (r :: rows) = (if q r then g r else r) :: update q g rows := rfl
    exact Nat.add_le_add hhead hrest

theorem total_update_eq {f : α → Nat}
    (h : ∀ r ∈ rows, q r = true → (if p (g r) then f (g r) else 0) = if p r then f r else 0) :
    total p f (update q g rows) = total p f rows := by
  unfold total update
  rw [map_map]
  refine congrArg List.sum (map_congr_left ?_)
  intro r hr
  by_cases hq : q r = true
  · simpa [hq] using h r hr hq
  · simp [hq]

theorem Keyed.total_update {f : α → Nat}
    (h : Keyed key rows) (hr : r ∈ rows) (hq : q r = true)
    (hone : ∀ x ∈ rows, q x = true → key x = key r) :
    total p f (Rows.update q g rows) + (if p r then f r else 0) =
      total p f rows + (if p (g r) then f (g r) else 0) := by
  induction rows with
  | nil => cases hr
  | cons x rows ih =>
    have hcons : Rows.update q g (x :: rows) = (if q x then g x else x) :: Rows.update q g rows :=
      rfl
    rcases nodup_cons.mp h with ⟨hfresh, hrest⟩
    rw [hcons, total_cons, total_cons]
    rcases mem_cons.mp hr with rfl | hr
    · have hothers : Rows.update q g rows = rows := by
        refine update_eq_self ?_
        intro y hy
        by_contra hqy
        refine hfresh (mem_map.mpr ⟨y, hy, hone y (mem_cons_of_mem _ hy) ?_⟩)
        simpa using hqy
      rw [hothers, if_pos hq]
      omega
    · have hx : ¬ q x = true := by
        intro hqx
        exact hfresh (mem_map.mpr ⟨r, hr, (hone x (by simp) hqx).symm⟩)
      have hstep := ih hrest hr fun y hy => hone y (mem_cons_of_mem _ hy)
      rw [if_neg hx]
      omega

theorem total_eq_zero {f : α → Nat} (h : ∀ r ∈ rows, p r = false) : total p f rows = 0 := by
  induction rows with
  | nil => rfl
  | cons r rows ih =>
    rw [total_cons, h r (by simp), ih fun x hx => h x (mem_cons_of_mem _ hx)]
    rfl

theorem total_map_le {q : β → Bool} {f : α → Nat} {f' : β → Nat} {g : β → α}
    {rows : List β} (h : ∀ r ∈ rows, p (g r) = true → q r = true ∧ f (g r) ≤ f' r) :
    total p f (rows.map g) ≤ total q f' rows := by
  induction rows with
  | nil => simp
  | cons r rows ih =>
    have hrest := ih fun x hx => h x (by simp [hx])
    have hr := h r (by simp)
    rw [map_cons, total_cons, total_cons]
    by_cases hp : p (g r) = true
    · rw [if_pos hp, if_pos (hr hp).1]
      exact Nat.add_le_add (hr hp).2 hrest
    · rw [if_neg hp, Nat.zero_add]
      exact Nat.le_add_left_of_le hrest

theorem total_congr {f g : α → Nat}
    (h : ∀ r ∈ rows, (if p r then f r else 0) = if q r then g r else 0) :
    total p f rows = total q g rows := by
  exact congrArg List.sum (map_congr_left h)

theorem total_mono {f : α → Nat} (h : ∀ r ∈ rows, p r = true → q r = true) :
    total p f rows ≤ total q f rows := by
  have hle := total_map_le (f := f) (g := id) fun r hr hp => ⟨h r hr hp, Nat.le_refl (f r)⟩
  rwa [map_id] at hle

theorem count_eq_length :
    count p rows = (rows.filter p).length := by
  induction rows with
  | nil => rfl
  | cons r rows ih =>
    unfold count at ih ⊢
    rw [total_cons, ih]
    by_cases hp : p r = true
    · simp [hp, Nat.add_comm]
    · simp [hp]

theorem count_split :
    count p rows = count (fun r => p r && q r) rows + count (fun r => p r && !q r) rows := by
  induction rows with
  | nil => rfl
  | cons r rows ih =>
    unfold count at ih ⊢
    rw [total_cons, total_cons, total_cons]
    cases p r <;> cases q r <;> simp <;> omega

theorem Keyed.count_le_one {k : β}
    (h : Keyed key rows) (hp : ∀ r ∈ rows, p r = true → key r = k) : count p rows ≤ 1 := by
  rw [count_eq_length]
  have hall : ∀ r ∈ rows.filter p, key r = k := by
    intro r hr
    rcases mem_filter.mp hr with ⟨hr, hpr⟩
    exact hp r hr hpr
  have hnodup : ((rows.filter p).map key).Nodup := h.sublist (filter_sublist.map key)
  cases hfilter : rows.filter p with
  | nil => simp
  | cons a rest =>
    cases rest with
    | nil => simp
    | cons b rest =>
      rw [hfilter] at hall hnodup
      have hab : key a = key b := (hall a (by simp)).trans (hall b (by simp)).symm
      simp [hab] at hnodup

theorem count_le_count {q : β → Bool} {others : List β}
    {own : α → γ} {key : β → γ} (hown : Keyed own (rows.filter p))
    (h : ∀ r ∈ rows, p r = true → ∃ o ∈ others, q o = true ∧ key o = own r) :
    count p rows ≤ count q others := by
  rw [count_eq_length, count_eq_length]
  have hsub : (rows.filter p).map own ⊆ (others.filter q).map key := by
    intro k hk
    rcases mem_map.mp hk with ⟨r, hr, rfl⟩
    rcases mem_filter.mp hr with ⟨hr, hp⟩
    rcases h r hr hp with ⟨o, ho, hq, hkey⟩
    exact mem_map.mpr ⟨o, mem_filter.mpr ⟨ho, hq⟩, hkey⟩
  have hle := (List.Nodup.subperm hown hsub).length_le
  simpa using hle

theorem Keyed.count_le {others : List α}
    (h : Keyed key rows) (hsub : ∀ r ∈ rows, p r = true → r ∈ others ∧ q r = true) :
    count p rows ≤ count q others := by
  have hfilter : Keyed key (rows.filter p) := h.sublist (filter_sublist.map _)
  have howner : ∀ r ∈ rows, p r = true → ∃ o ∈ others, q o = true ∧ key o = key r := by
    intro r hr hp
    rcases hsub r hr hp with ⟨ho, hq⟩
    exact ⟨r, ho, hq, rfl⟩
  exact count_le_count hfilter howner

end Rows
end PortageEngine.Library
