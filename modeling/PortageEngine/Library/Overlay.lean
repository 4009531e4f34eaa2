import PortageEngine.Library.Rows

/-!
# Overlays of keyed lists

A map is a list of entries in which no key occurs twice.  `put` sets one entry, `overlay` sets the
entries of one list in another, the later ones first, and `sorted` lists a map by a rank.
-/

namespace PortageEngine.Library.Overlay

open List Rows

variable {α κ : Type} [DecidableEq κ] {key : α → κ}

def put (key : α → κ) (entries : List α) (x : α) : List α :=
  entries.filter (fun y => key y ≠ key x) ++ [x]

/-- Set every entry of `new`, in order. -/
def overlay (key : α → κ) (old new : List α) : List α :=
  new.foldl (put key) old

def lookup (key : α → κ) (entries : List α) (k : κ) : Option α :=
  entries.find? fun x => key x = k

variable {entries old new : List α}

theorem mem_put {x y : α} :
    y ∈ put key entries x ↔ y = x ∨ (y ∈ entries ∧ key y ≠ key x) := by
  simp [put, or_comm]

theorem Keyed.put (h : Keyed key entries) (x : α) :
    Keyed key (put key entries x) := by
  have hfilter : (entries.filter fun y => key y ≠ key x).map key ++ [key x] |>.Nodup := by
    refine nodup_append.mpr ⟨h.sublist ((filter_sublist).map key), by simp, ?_⟩
    intro k hk k' hk'
    rcases mem_map.mp hk with ⟨y, hy, rfl⟩
    have hne : key y ≠ key x := by simpa using (mem_filter.mp hy).2
    simpa [mem_singleton.mp hk'] using hne
  simpa [Keyed, Overlay.put] using hfilter

theorem Keyed.overlay (h : Keyed key old) : Keyed key (overlay key old new) := by
  induction new generalizing old with
  | nil => exact h
  | cons x new ih => exact ih (Keyed.put h x)

theorem mem_keys_overlay {k : κ} :
    (∃ x ∈ overlay key old new, key x = k) ↔ (∃ x ∈ old, key x = k) ∨ ∃ x ∈ new, key x = k := by
  induction new generalizing old with
  | nil => simp [overlay]
  | cons x new ih =>
    have hput : (∃ y ∈ put key old x, key y = k) ↔ (∃ y ∈ old, key y = k) ∨ key x = k := by
      constructor
      · rintro ⟨y, hy, hk⟩
        rcases mem_put.mp hy with rfl | ⟨hy, -⟩
        · exact Or.inr hk
        · exact Or.inl ⟨y, hy, hk⟩
      · rintro (⟨y, hy, hk⟩ | hk)
        · by_cases hyx : key y = key x
          · exact ⟨x, mem_put.mpr (Or.inl rfl), hyx ▸ hk⟩
          · exact ⟨y, mem_put.mpr (Or.inr ⟨hy, hyx⟩), hk⟩
        · exact ⟨x, mem_put.mpr (Or.inl rfl), hk⟩
    have hcons : overlay key old (x :: new) = overlay key (put key old x) new := rfl
    rw [hcons, ih, hput, exists_mem_cons_iff, or_assoc]

/-- The entries of an overlay: those of the new list, and those of the old one under other keys. -/
theorem mem_overlay (hnew : Keyed key new) {y : α} :
    y ∈ overlay key old new ↔ y ∈ new ∨ (y ∈ old ∧ ∀ x ∈ new, key x ≠ key y) := by
  induction new generalizing old with
  | nil => simp [overlay]
  | cons x new ih =>
    have hnodup := nodup_cons.mp hnew
    have hcons : overlay key old (x :: new) = overlay key (put key old x) new := rfl
    rw [hcons, ih hnodup.2, mem_put, mem_cons, forall_mem_cons]
    constructor
    · rintro (hy | ⟨rfl | ⟨hy, hyx⟩, hother⟩)
      · exact Or.inl (Or.inr hy)
      · exact Or.inl (Or.inl rfl)
      · exact Or.inr ⟨hy, Ne.symm hyx, hother⟩
    · rintro ((rfl | hy) | ⟨hy, hxy, hother⟩)
      · refine Or.inr ⟨Or.inl rfl, ?_⟩
        intro z hz hzy
        exact hnodup.1 (hzy ▸ mem_map_of_mem hz)
      · exact Or.inl hy
      · exact Or.inr ⟨Or.inr ⟨hy, Ne.symm hxy⟩, hother⟩

theorem overlay_of_keyed (h : Keyed key (old ++ new)) :
    overlay key old new = old ++ new := by
  induction new generalizing old with
  | nil => simp [overlay]
  | cons x new ih =>
    have hcons : overlay key old (x :: new) = overlay key (put key old x) new := rfl
    have hsplit := nodup_append.mp (by simpa [Keyed] using h)
    have hkept : old.filter (fun y => key y ≠ key x) = old := by
      refine filter_eq_self.mpr ?_
      intro y hy
      simpa using hsplit.2.2 (key y) (mem_map_of_mem hy) (key x) (by simp)
    have hput : put key old x = old ++ [x] := by rw [put, hkept]
    rw [hcons, hput, ih (by simpa using h)]
    simp

/-! ## Sorted listings -/

section Sorted

variable {ρ : Type} [LinearOrder ρ] {rank : α → ρ}

def sorted (rank : α → ρ) (entries : List α) : List α :=
  entries.insertionSort fun x y => rank x ≤ rank y

variable {entries : List α}

@[simp] theorem mem_sorted {x : α} : x ∈ sorted rank entries ↔ x ∈ entries :=
  mem_insertionSort _

omit [DecidableEq κ] in
theorem Keyed.sorted (h : Keyed key entries) :
    Keyed key (sorted rank entries) :=
  ((perm_insertionSort _ entries).map key).nodup_iff.mpr h

end Sorted

end PortageEngine.Library.Overlay
