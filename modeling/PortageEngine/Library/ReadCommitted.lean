import PortageEngine.Library.Overlay

/-!
# Tables under read-committed isolation

A table holds the rows that transactions have committed and, next to them, the drafts: the rows
that open transactions have written or locked.  A statement of a transaction sees the drafts of that
transaction over the rows committed by then.  A drafted row is out of reach of the other
transactions until its writer ends; locking a row without changing it is drafting it as it is.

* `Sound` is the row-lock discipline: every drafted key has one writer;
* `Sound.mem_view` says what a transaction sees, and the lemmas after it how that changes when some
  transaction writes, commits or aborts.
-/

namespace PortageEngine.Library.ReadCommitted

open List Rows
open Overlay (overlay)

/-- Committed rows, and drafts with the transaction they belong to. -/
structure Table (ν : Type) where
  committed : List ν
  drafts : List (Nat × ν)

namespace Table

variable {ν κ : Type} [DecidableEq κ]

def quiet (rows : List ν) : Table ν where
  committed := rows
  drafts := []

def own (t : Table ν) (tx : Nat) : List ν :=
  (t.drafts.filter fun d => d.1 = tx).map (·.2)

/-- What a statement of the transaction sees. -/
def view (key : ν → κ) (t : Table ν) (tx : Nat) : List ν :=
  overlay key t.committed (t.own tx)

/-- No other transaction has drafted the key. -/
def free (key : ν → κ) (t : Table ν) (tx : Nat) (k : κ) : Bool :=
  t.drafts.all fun d => d.1 = tx || key d.2 ≠ k

/-- Draft a row; an earlier draft of the same transaction under the same key is replaced. -/
def write (key : ν → κ) (t : Table ν) (tx : Nat) (row : ν) : Table ν :=
  { t with
    drafts := t.drafts.filter (fun d => !(decide (d.1 = tx) && decide (key d.2 = key row))) ++
      [(tx, row)] }

def abort (t : Table ν) (tx : Nat) : Table ν :=
  { t with drafts := t.drafts.filter fun d => d.1 ≠ tx }

def commit (key : ν → κ) (t : Table ν) (tx : Nat) : Table ν :=
  { t.abort tx with committed := t.view key tx }

/-- Every version of a row that is committed or drafted. -/
def versions (t : Table ν) : List ν :=
  t.committed ++ t.drafts.map (·.2)

/-- The row locks hold: no key is drafted twice, and committed keys are unique. -/
structure Sound (key : ν → κ) (t : Table ν) : Prop where
  keyed : Keyed key t.committed
  exclusive : Keyed (fun d : Nat × ν => key d.2) t.drafts

variable {key : ν → κ} {t : Table ν} {tx other : Nat} {row y : ν}

omit [DecidableEq κ] in
theorem mem_own : y ∈ t.own tx ↔ (tx, y) ∈ t.drafts := by
  simp only [own, mem_map, mem_filter, decide_eq_true_eq]
  constructor
  · rintro ⟨d, ⟨hd, htx⟩, hy⟩
    rw [← htx, ← hy]
    exact hd
  · intro h
    exact ⟨(tx, y), ⟨h, rfl⟩, rfl⟩

theorem free_iff {k : κ} :
    t.free key tx k = true ↔ ∀ other, other ≠ tx → ∀ x ∈ t.own other, key x ≠ k := by
  simp only [free, all_eq_true, Bool.or_eq_true, decide_eq_true_eq, mem_own]
  constructor
  · intro h other hne x hx
    exact (h _ hx).resolve_left hne
  · intro h d hd
    by_cases heq : d.1 = tx
    · exact Or.inl heq
    · exact Or.inr (h d.1 heq d.2 hd)

/-! ## Drafts -/

@[simp] theorem own_quiet {rows : List ν} : (quiet rows).own tx = [] := rfl

theorem mem_own_write :
    y ∈ (t.write key tx row).own tx ↔ y = row ∨ (y ∈ t.own tx ∧ key y ≠ key row) := by
  simp only [mem_own, write, mem_append, mem_filter, mem_singleton,
    Bool.not_eq_true', Bool.and_eq_false_iff, decide_eq_false_iff_not, Prod.mk.injEq, true_and,
    not_true_eq_false, false_or]
  exact or_comm

theorem own_write_of_ne (hne : other ≠ tx) : (t.write key tx row).own other = t.own other := by
  simp only [own, Table.write, filter_append, filter_filter]
  have hlast : [(tx, row)].filter (fun d => decide (d.1 = other)) = [] := by
    simp [hne.symm]
  rw [hlast, append_nil]
  congr 1
  refine filter_congr ?_
  intro d _
  by_cases hd : d.1 = other
  · simp [hd, hne]
  · simp [hd]

omit [DecidableEq κ] in
@[simp] theorem own_abort_self : (t.abort tx).own tx = [] := by
  refine eq_nil_iff_forall_not_mem.mpr ?_
  intro x hx
  have hne := (mem_filter.mp (mem_own.mp hx)).2
  simp at hne

omit [DecidableEq κ] in
theorem own_abort_of_ne (hne : other ≠ tx) : (t.abort tx).own other = t.own other := by
  simp only [own, Table.abort, filter_filter]
  congr 1
  refine filter_congr ?_
  intro d _
  by_cases hd : d.1 = other
  · simp [hd, hne]
  · simp [hd]

@[simp] theorem own_commit_self : (t.commit key tx).own tx = [] :=
  own_abort_self

theorem own_commit_of_ne (hne : other ≠ tx) : (t.commit key tx).own other = t.own other :=
  own_abort_of_ne hne

@[simp] theorem committed_write : (t.write key tx row).committed = t.committed := rfl

omit [DecidableEq κ] in
@[simp] theorem committed_abort : (t.abort tx).committed = t.committed := rfl

@[simp] theorem committed_commit : (t.commit key tx).committed = t.view key tx := rfl

theorem view_write_of_ne (hne : other ≠ tx) :
    (t.write key tx row).view key other = t.view key other := by
  simp only [view, own_write_of_ne hne, committed_write]

theorem view_abort_of_ne (hne : other ≠ tx) :
    (t.abort tx).view key other = t.view key other := by
  simp only [view, own_abort_of_ne hne, committed_abort]

theorem view_of_own_eq_nil (h : t.own tx = []) : t.view key tx = t.committed := by
  simp [view, h, overlay]

/-! ## The lock discipline -/

omit [DecidableEq κ] in
theorem sound_quiet {rows : List ν} (h : Keyed key rows) : (quiet rows).Sound key :=
  ⟨h, nodup_nil⟩

namespace Sound

omit [DecidableEq κ] in
theorem own_eq (h : t.Sound key) {x : ν} (hx : x ∈ t.own tx) (hy : y ∈ t.own other)
    (hkey : key x = key y) : tx = other ∧ x = y := by
  have heq : (tx, x) = (other, y) := h.exclusive.eq (mem_own.mp hx) (mem_own.mp hy) hkey
  exact Prod.mk.inj heq

omit [DecidableEq κ] in
theorem keyed_own (h : t.Sound key) (tx : Nat) : Keyed key (t.own tx) := by
  have hsub : ((t.drafts.filter fun d => d.1 = tx).map fun d => key d.2).Nodup :=
    h.exclusive.sublist (filter_sublist.map _)
  simpa [Keyed, own, map_map, Function.comp_def] using hsub

theorem keyed_view (h : t.Sound key) (tx : Nat) : Keyed key (t.view key tx) :=
  Overlay.Keyed.overlay h.keyed

theorem mem_view (h : t.Sound key) :
    y ∈ t.view key tx ↔
      y ∈ t.own tx ∨ (y ∈ t.committed ∧ ∀ x ∈ t.own tx, key x ≠ key y) :=
  Overlay.mem_overlay (h.keyed_own tx)

theorem write (h : t.Sound key) (hfree : t.free key tx (key row) = true) :
    (t.write key tx row).Sound key := by
  refine ⟨h.keyed, ?_⟩
  have hrest : Keyed (fun d : Nat × ν => key d.2)
      (t.drafts.filter fun d => !(decide (d.1 = tx) && decide (key d.2 = key row))) :=
    h.exclusive.sublist (filter_sublist.map _)
  unfold Keyed Table.write
  rw [map_append, nodup_append]
  refine ⟨hrest, by simp, ?_⟩
  intro k hk k' hk'
  rw [mem_singleton.mp hk']
  rcases mem_map.mp hk with ⟨d, hd, rfl⟩
  rcases mem_filter.mp hd with ⟨hd, hne⟩
  intro heq
  have htx : d.1 ≠ tx := by simpa [heq] using hne
  exact free_iff.mp hfree d.1 htx d.2 (mem_own.mpr hd) heq

omit [DecidableEq κ] in
theorem abort (h : t.Sound key) (tx : Nat) : (t.abort tx).Sound key :=
  ⟨h.keyed, h.exclusive.sublist (filter_sublist.map _)⟩

theorem commit (h : t.Sound key) (tx : Nat) : (t.commit key tx).Sound key :=
  ⟨h.keyed_view tx, (h.abort tx).exclusive⟩

theorem mem_view_write (h : t.Sound key) (hfree : t.free key tx (key row) = true) :
    y ∈ (t.write key tx row).view key tx ↔ y = row ∨ (y ∈ t.view key tx ∧ key y ≠ key row) := by
  rw [(h.write hfree).mem_view, h.mem_view, mem_own_write, committed_write]
  constructor
  · rintro ((rfl | ⟨hy, hne⟩) | ⟨hy, hother⟩)
    · exact Or.inl rfl
    · exact Or.inr ⟨Or.inl hy, hne⟩
    · refine Or.inr ⟨Or.inr ⟨hy, ?_⟩, (hother row (mem_own_write.mpr (Or.inl rfl))).symm⟩
      intro x hx hkey
      by_cases hrow : key x = key row
      · exact hother row (mem_own_write.mpr (Or.inl rfl)) (hrow.symm.trans hkey)
      · exact hother x (mem_own_write.mpr (Or.inr ⟨hx, hrow⟩)) hkey
  · rintro (rfl | ⟨hy | ⟨hy, hother⟩, hne⟩)
    · exact Or.inl (Or.inl rfl)
    · exact Or.inl (Or.inr ⟨hy, hne⟩)
    · refine Or.inr ⟨hy, ?_⟩
      intro x hx
      rcases mem_own_write.mp hx with rfl | ⟨hx, -⟩
      · exact hne.symm
      · exact hother x hx

theorem mem_view_commit_of_ne (h : t.Sound key) (hne : other ≠ tx) :
    y ∈ (t.commit key tx).view key other ↔
      y ∈ t.own other ∨ (y ∈ t.view key tx ∧ ∀ x ∈ t.own other, key x ≠ key y) := by
  rw [(h.commit tx).mem_view, own_commit_of_ne hne, committed_commit]

end Sound

/-! ## Properties of all versions -/

omit [DecidableEq κ] in
theorem mem_versions : y ∈ t.versions ↔ y ∈ t.committed ∨ ∃ tx, y ∈ t.own tx := by
  simp [versions, mem_own]

theorem mem_versions_write (hy : y ∈ (t.write key tx row).versions) : y = row ∨ y ∈ t.versions := by
  rcases mem_versions.mp hy with hy | ⟨other, hy⟩
  · exact Or.inr (mem_versions.mpr (Or.inl hy))
  by_cases hne : other = tx
  · rw [hne] at hy
    rcases mem_own_write.mp hy with rfl | ⟨hy, -⟩
    · exact Or.inl rfl
    · exact Or.inr (mem_versions.mpr (Or.inr ⟨tx, hy⟩))
  · rw [own_write_of_ne hne] at hy
    exact Or.inr (mem_versions.mpr (Or.inr ⟨other, hy⟩))

omit [DecidableEq κ] in
theorem mem_versions_abort (hy : y ∈ (t.abort tx).versions) : y ∈ t.versions := by
  rcases mem_versions.mp hy with hy | ⟨other, hy⟩
  · exact mem_versions.mpr (Or.inl hy)
  · have hdraft := (mem_filter.mp (mem_own.mp hy)).1
    exact mem_versions.mpr (Or.inr ⟨other, mem_own.mpr hdraft⟩)

theorem Sound.mem_versions_of_view (h : t.Sound key) (hy : y ∈ t.view key tx) :
    y ∈ t.versions := by
  rcases h.mem_view.mp hy with hy | ⟨hy, -⟩
  · exact mem_versions.mpr (Or.inr ⟨tx, hy⟩)
  · exact mem_versions.mpr (Or.inl hy)

theorem Sound.mem_versions_commit (h : t.Sound key) (hy : y ∈ (t.commit key tx).versions) :
    y ∈ t.versions := by
  rcases mem_versions.mp hy with hy | ⟨other, hy⟩
  · exact h.mem_versions_of_view hy
  · exact mem_versions_abort (t := t) (mem_versions.mpr (Or.inr ⟨other, hy⟩))

end Table

end PortageEngine.Library.ReadCommitted
