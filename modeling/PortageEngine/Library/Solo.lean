import PortageEngine.Library.Crew

/-!
# Programs run by themselves

What a fallible program comes to when nobody else makes a call, from what its parts come to.
-/

namespace PortageEngine.Library.Process

variable {σ ω ρ χ α β ε : Type} {exec : χ → ω → σ → σ × ρ} {c : χ} {s s' : σ}

theorem alone_ask {op : ω} : alone exec c (Prog.ask op) s = exec c op s := rfl

theorem alone_bind_of_eq {p : Prog ω ρ α} {f : α → Prog ω ρ β} {a : α}
    (h : alone exec c p s = (s', a)) : alone exec c (p >>= f) s = alone exec c (f a) s' := by
  have hbind : alone exec c (p >>= f) s =
      alone exec c (f (alone exec c p s).2) (alone exec c p s).1 := alone_bind p f s
  rw [hbind, h]

variable {p : ExceptT ε (Prog ω ρ) α}

theorem alone_bindExcept_error {f : α → ExceptT ε (Prog ω ρ) β} {e : ε}
    (h : alone exec c p.run s = (s', .error e)) :
    alone exec c (p >>= f).run s = (s', .error e) := by
  have hbind : alone exec c (p >>= f).run s =
      alone exec c ((ExceptT.bindCont f) (alone exec c p.run s).2) (alone exec c p.run s).1 :=
    alone_bind p.run _ s
  rw [hbind, h]
  rfl

theorem alone_onError_ok {cleanup : Prog ω ρ Unit} {a : α}
    (h : alone exec c p.run s = (s', .ok a)) :
    alone exec c (onError p cleanup).run s = (s', .ok a) :=
  alone_bind_of_eq h

end PortageEngine.Library.Process
