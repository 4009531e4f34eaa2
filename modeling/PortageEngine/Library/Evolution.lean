import PortageEngine.Library.Rows

/-!
# What becomes of the rows of a table

`Evolves S New rows rows'`: every row of the old table is still there, changed at most as `S` says,
and every row of the new one comes from an old row or is a new one.
-/

namespace PortageEngine.Library.Rows

variable {α β : Type}

structure Evolves (S : α → α → Prop) (New : α → Prop) (rows rows' : List α) : Prop where
  next : ∀ r ∈ rows, ∃ r' ∈ rows', S r r'
  prior : ∀ r' ∈ rows', (∃ r ∈ rows, S r r') ∨ New r'

variable {S : α → α → Prop} {New : α → Prop} {rows rows' : List α}

theorem Evolves.refl (hrefl : ∀ r, S r r) : Evolves S New rows rows :=
  ⟨fun r hr => ⟨r, hr, hrefl r⟩, fun r hr => .inl ⟨r, hr, hrefl r⟩⟩

theorem evolves_update (hrefl : ∀ r, S r r) {p : α → Bool} {f : α → α}
    (h : ∀ r ∈ rows, p r = true → S r (f r)) : Evolves S New rows (update p f rows) := by
  have hrow : ∀ r ∈ rows, S r (if p r then f r else r) := by
    intro r hr
    by_cases hp : p r = true
    · rw [if_pos hp]
      exact h r hr hp
    · rw [if_neg hp]
      exact hrefl r
  refine ⟨fun r hr => ⟨_, mem_update.mpr ⟨r, hr, rfl⟩, hrow r hr⟩, ?_⟩
  intro r' hr'
  rcases mem_update.mp hr' with ⟨r, hr, rfl⟩
  exact .inl ⟨r, hr, hrow r hr⟩

theorem Evolves.cons (h : Evolves S New rows rows') {r : α} (hnew : New r) :
    Evolves S New rows (r :: rows') := by
  constructor
  · intro k hk
    rcases h.next k hk with ⟨k', hk', hstep⟩
    exact ⟨k', List.mem_cons_of_mem _ hk', hstep⟩
  · intro k' hk'
    rcases List.mem_cons.mp hk' with rfl | hk'
    · exact .inr hnew
    · exact h.prior k' hk'

end PortageEngine.Library.Rows
