import Mathlib.Logic.Basic
/-!
# How a computation ends

A computation with a state and errors returns or stops. `Ends` says what
holds where it returns and what holds where it stops, in one statement, so
that a program of many calls is followed call by call with the reasons to
stop carried along.
-/

namespace Outcomes

variable {ε σ α β : Type}

/-- Run from `s` it returns in `Q`, or stops in `E`. -/
def Ends (x : EStateM ε σ α) (s : σ) (Q : α → σ → Prop) (E : ε → σ → Prop) : Prop :=
  match x.run s with
  | .ok a t => Q a t
  | .error e t => E e t

variable {x : EStateM ε σ α} {f : α → EStateM ε σ β} {s t : σ} {a : α} {e : ε}
variable {Q : β → σ → Prop} {P R : α → σ → Prop} {E F : ε → σ → Prop}

theorem Ends.of_ok (h : x.run s = .ok a t) (hP : P a t) : Ends x s P E := by
  unfold Ends
  rw [h]
  exact hP

theorem Ends.of_error (h : x.run s = .error e t) (hE : E e t) : Ends x s P E := by
  unfold Ends
  rw [h]
  exact hE

/-- Returning a value ends in any predicate that holds of it. -/
theorem Ends.pure (hP : P a s) : Ends (pure a : EStateM ε σ α) s P E := Ends.of_ok rfl hP

/-- **It has returned or it has stopped.** -/
theorem Ends.cases (h : Ends x s P E) :
    (∃ a t, x.run s = .ok a t ∧ P a t) ∨ ∃ e t, x.run s = .error e t ∧ E e t := by
  unfold Ends at h
  rcases hx : x.run s with ⟨a, t⟩ | ⟨e, t⟩
  · rw [hx] at h
    exact Or.inl ⟨a, t, rfl, h⟩
  · rw [hx] at h
    exact Or.inr ⟨e, t, rfl, h⟩

/-- What holds where it ends may be weakened. -/
theorem Ends.mono (h : Ends x s P E) (hP : ∀ a t, P a t → R a t) (hE : ∀ e t, E e t → F e t) :
    Ends x s R F := by
  rcases h.cases with ⟨a, t, hx, ha⟩ | ⟨e, t, hx, he⟩
  · exact Ends.of_ok hx (hP a t ha)
  · exact Ends.of_error hx (hE e t he)

/-- **A sequence ends where its second part ends**, or stops in its first. -/
theorem Ends.bind (h : Ends x s P E) (hf : ∀ a t, P a t → Ends (f a) t Q E) :
    Ends (x >>= f) s Q E := by
  rcases h.cases with ⟨a, t, hx, ha⟩ | ⟨e, t, hx, he⟩
  · have hrun : (x >>= f).run s = (f a).run t := by rw [EStateM.run_bind, hx]
    unfold Ends
    rw [hrun]
    exact hf a t ha
  · refine Ends.of_error (t := t) ?_ he
    rw [EStateM.run_bind, hx]

/-- A first part that is known to return. -/
theorem Ends.step (hx : x.run s = .ok a t) (hf : Ends (f a) t Q E) : Ends (x >>= f) s Q E :=
  Ends.bind (P := fun b u => b = a ∧ u = t) (Ends.of_ok hx ⟨rfl, rfl⟩) fun _ _ h => by
    rw [h.1, h.2]
    exact hf

end Outcomes
