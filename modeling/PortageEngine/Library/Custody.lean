import Mathlib

/-!
# Custody of resources

Holders (`α`) work for owners (`ι`).  While a holder works it has one thing of every kind in `ρ`
(the kinds go together), and it may use things of the kinds in `σ`, which nobody else has.  An owner
has at most one holder at a time, and only an open owner has one.

`Sound` states this discipline.  A step of a system that follows it either lets holders go
(`Moves`, possibly nobody) or gives one more holder everything (`Acquires`); both keep it.
-/

namespace PortageEngine.Library

variable {α ι ρ σ : Type}

structure Custody (α ι ρ σ : Type) where
  holds : ρ → α → Prop
  uses : σ → α → Prop
  worksFor : α → ι → Prop
  isOpen : ι → Prop

namespace Custody

structure Sound (c : Custody α ι ρ σ) : Prop where
  together : ∀ k k' a, c.holds k a → c.holds k' a
  within : ∀ s k a, c.uses s a → c.holds k a
  employed : ∀ k a, c.holds k a → ∃ j, c.worksFor a j
  single : ∀ k a b j, c.holds k a → c.holds k b → c.worksFor a j → c.worksFor b j → a = b
  atWork : ∀ k a j, c.holds k a → c.worksFor a j → c.isOpen j

/-- A step in which the holders in `lost` lose everything and nobody gains a holding. -/
structure Moves (c c' : Custody α ι ρ σ) (lost : α → Prop) : Prop where
  holds : ∀ k a, c'.holds k a ↔ c.holds k a ∧ ¬ lost a
  uses : ∀ s a, c'.uses s a → (c.uses s a ∨ ∃ k, c.holds k a) ∧ ¬ lost a
  worksFor : ∀ a j, c.worksFor a j → c'.worksFor a j
  hired : ∀ a j, c'.worksFor a j → c.worksFor a j ∨ ∀ i, ¬ c.worksFor a i
  isOpen : ∀ k a j, c.holds k a → ¬ lost a → c.worksFor a j → c'.isOpen j

/-- A step in which `a` gets one thing of every kind, working for `j`. -/
structure Acquires (c c' : Custody α ι ρ σ) (a : α) (j : ι) : Prop where
  fresh : ∀ i, ¬ c.worksFor a i
  closed : ¬ c.isOpen j
  holds : ∀ k b, c'.holds k b ↔ c.holds k b ∨ b = a
  uses : ∀ s b, c'.uses s b → c.uses s b ∨ b = a
  worksFor : ∀ b i, c'.worksFor b i ↔ c.worksFor b i ∨ (b = a ∧ i = j)
  opens : c'.isOpen j
  isOpen : ∀ i, c.isOpen i → c'.isOpen i

section Rules

variable {c c' : Custody α ι ρ σ} {lost : α → Prop} {a : α} {j : ι}

theorem Moves.worksFor_of_holds (hm : Moves c c' lost) (hc : c.Sound) {k : ρ} {b : α} {i : ι}
    (hb : c.holds k b) (hi : c'.worksFor b i) : c.worksFor b i := by
  rcases hm.hired b i hi with hold | hnew
  · exact hold
  · rcases hc.employed k b hb with ⟨i', hi'⟩
    exact absurd hi' (hnew i')

theorem Sound.moves (hc : c.Sound) (hm : Moves c c' lost) : c'.Sound where
  together := by
    intro k k' b hb
    rcases (hm.holds k b).mp hb with ⟨hb, hkept⟩
    exact (hm.holds k' b).mpr ⟨hc.together k k' b hb, hkept⟩
  within := by
    intro s k b hs
    rcases hm.uses s b hs with ⟨hused | ⟨k', hb⟩, hkept⟩
    · exact (hm.holds k b).mpr ⟨hc.within s k b hused, hkept⟩
    · exact (hm.holds k b).mpr ⟨hc.together k' k b hb, hkept⟩
  employed := by
    intro k b hb
    rcases hc.employed k b ((hm.holds k b).mp hb).1 with ⟨i, hi⟩
    exact ⟨i, hm.worksFor b i hi⟩
  single := by
    intro k b b' i hb hb' hi hi'
    have hold := ((hm.holds k b).mp hb).1
    have hold' := ((hm.holds k b').mp hb').1
    exact hc.single k b b' i hold hold' (hm.worksFor_of_holds hc hold hi)
      (hm.worksFor_of_holds hc hold' hi')
  atWork := by
    intro k b i hb hi
    rcases (hm.holds k b).mp hb with ⟨hold, hkept⟩
    exact hm.isOpen k b i hold hkept (hm.worksFor_of_holds hc hold hi)

theorem Sound.acquires (hc : c.Sound) (ha : Acquires c c' a j) : c'.Sound where
  together := by
    intro k k' b hb
    rcases (ha.holds k b).mp hb with hold | rfl
    · exact (ha.holds k' b).mpr (.inl (hc.together k k' b hold))
    · exact (ha.holds k' b).mpr (.inr rfl)
  within := by
    intro s k b hs
    rcases ha.uses s b hs with hused | rfl
    · exact (ha.holds k b).mpr (.inl (hc.within s k b hused))
    · exact (ha.holds k b).mpr (.inr rfl)
  employed := by
    intro k b hb
    rcases (ha.holds k b).mp hb with hold | rfl
    · rcases hc.employed k b hold with ⟨i, hi⟩
      exact ⟨i, (ha.worksFor b i).mpr (.inl hi)⟩
    · exact ⟨j, (ha.worksFor b j).mpr (.inr ⟨rfl, rfl⟩)⟩
  single := by
    -- an owner that had a holder was open, and the new owner was not
    have hnone : ∀ k b, c.holds k b → ¬ c.worksFor b j := by
      intro k b hb hj
      exact ha.closed (hc.atWork k b j hb hj)
    intro k b b' i hb hb' hi hi'
    rcases (ha.worksFor b i).mp hi with hold | ⟨rfl, rfl⟩ <;>
      rcases (ha.worksFor b' i).mp hi' with hold' | ⟨rfl, hij⟩
    · rcases (ha.holds k b).mp hb with hb | rfl
      · rcases (ha.holds k b').mp hb' with hb' | rfl
        · exact hc.single k b b' i hb hb' hold hold'
        · exact absurd hold' (ha.fresh i)
      · exact absurd hold (ha.fresh i)
    · subst hij
      rcases (ha.holds k b).mp hb with hb | rfl
      · exact absurd hold (hnone k b hb)
      · rfl
    · rcases (ha.holds k b').mp hb' with hb' | rfl
      · exact absurd hold' (hnone k b' hb')
      · rfl
    · rfl
  atWork := by
    intro k b i hb hi
    rcases (ha.worksFor b i).mp hi with hold | ⟨rfl, rfl⟩
    · rcases (ha.holds k b).mp hb with hb | rfl
      · exact ha.isOpen i (hc.atWork k b i hb hold)
      · exact absurd hold (ha.fresh i)
    · exact ha.opens

end Rules

end Custody
end PortageEngine.Library
