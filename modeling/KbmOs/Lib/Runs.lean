import Mathlib.Data.List.Basic
/-!
# Runs of a labelled step relation

A run is a finite sequence of steps, each labelled with the event it
answers; it is read off as the list of its events. What every step keeps
every run keeps (`Run.invariant`), and a run can be cut at any of its
events (`run_append`), so that a statement about what happened after an
event is one about the second part.
-/

namespace LabelledRuns

variable {σ ε : Type}

/-- From `c₀` the events lead to the last state. -/
inductive Run (Step : σ → ε → σ → Prop) (c₀ : σ) : List ε → σ → Prop
  | nil : Run Step c₀ [] c₀
  | snoc {es : List ε} {e : ε} {c c' : σ} (hrun : Run Step c₀ es c) (hstep : Step c e c') :
      Run Step c₀ (es ++ [e]) c'

variable {Step : σ → ε → σ → Prop} {c₀ c c' : σ} {es es' : List ε} {e : ε}

/-- **What every step keeps every run keeps.** -/
theorem Run.invariant {P : σ → Prop} (hinit : P c₀) (hkeep : ∀ c e c', P c → Step c e c' → P c')
    (hrun : Run Step c₀ es c) : P c := by
  induction hrun with
  | nil => exact hinit
  | snoc _ hstep ih => exact hkeep _ _ _ ih hstep

/-- The run of no events stays where it is. -/
theorem run_nil : Run Step c₀ [] c ↔ c₀ = c := by
  constructor
  · intro h
    generalize hall : [] = es at h
    cases h with
    | nil => rfl
    | snoc _ _ => simp at hall
  · rintro rfl
    exact .nil

/-- **A run in two parts.** -/
theorem run_append : Run Step c₀ (es ++ es') c' ↔ ∃ c, Run Step c₀ es c ∧ Run Step c es' c' := by
  constructor
  · intro h
    generalize hall : es ++ es' = all at h
    induction h generalizing es' with
    | nil =>
      obtain ⟨rfl, rfl⟩ := List.append_eq_nil_iff.1 hall
      exact ⟨c₀, .nil, .nil⟩
    | @snoc es₁ e c c' hrun hstep ih =>
      rcases List.eq_nil_or_concat es' with rfl | ⟨es₂, e', rfl⟩
      · rw [List.append_nil] at hall
        rw [hall]
        exact ⟨c', .snoc hrun hstep, .nil⟩
      · rw [List.concat_eq_append, ← List.append_assoc] at hall
        obtain ⟨hfront, hlast⟩ := List.append_inj' hall rfl
        obtain ⟨d, hd, hd'⟩ := ih hfront
        rw [List.concat_eq_append, hlast]
        exact ⟨d, hd, .snoc hd' hstep⟩
  · rintro ⟨c, h, h'⟩
    induction h' with
    | nil => rwa [List.append_nil]
    | snoc _ hstep ih =>
      rw [← List.append_assoc]
      exact .snoc ih hstep

/-- A run that begins with an event begins with its step. -/
theorem run_cons : Run Step c₀ (e :: es) c' ↔ ∃ c, Step c₀ e c ∧ Run Step c es c' := by
  rw [← List.singleton_append, run_append]
  constructor
  · rintro ⟨c, h, h'⟩
    rw [← List.nil_append [e]] at h
    generalize hall : [] ++ [e] = all at h
    cases h with
    | nil => cases hall
    | snoc hrun hstep =>
      obtain ⟨hfront, hlast⟩ := List.append_inj' hall rfl
      rw [← hfront] at hrun
      obtain ⟨rfl⟩ := List.singleton_inj.1 hlast
      generalize hnil : [] = none at hrun
      cases hrun with
      | nil => exact ⟨c, hstep, h'⟩
      | snoc _ _ => simp at hnil
  · rintro ⟨c, hstep, h'⟩
    exact ⟨c, show Run Step c₀ ([] ++ [e]) c from .snoc .nil hstep, h'⟩

/-- **Runs of a step function** are its iteration. -/
theorem run_iff_foldlM {f : σ → ε → Option σ} :
    Run (fun c e c' => f c e = some c') c₀ es c ↔ es.foldlM f c₀ = some c := by
  induction es generalizing c₀ with
  | nil => exact run_nil.trans Option.some_inj.symm
  | cons e es ih =>
    rw [run_cons, List.foldlM_cons]
    constructor
    · rintro ⟨d, hstep, hrun⟩
      rw [hstep]
      exact ih.1 hrun
    · intro h
      obtain ⟨d, hstep, hrun⟩ := Option.bind_eq_some_iff.1 h
      exact ⟨d, hstep, ih.2 hrun⟩

/-! ## Runs that write -/

variable {ω : Type} {out : σ → ε → List ω} {w w' : List ω}

/-- A step that also writes what `out` says to the end of a text. -/
def Writing (Step : σ → ε → σ → Prop) (out : σ → ε → List ω) (c : σ × List ω) (e : ε)
    (c' : σ × List ω) : Prop :=
  Step c.1 e c'.1 ∧ c'.2 = c.2 ++ out c.1 e

/-- **Every run writes something**, whatever was written before. -/
theorem Run.writes (hrun : Run Step c₀ es c) (out : σ → ε → List ω) (w : List ω) :
    ∃ w', Run (Writing Step out) (c₀, w) es (c, w') := by
  induction hrun with
  | nil => exact ⟨w, .nil⟩
  | snoc _ hstep ih =>
    obtain ⟨w', hrun⟩ := ih
    exact ⟨_, hrun.snoc ⟨hstep, rfl⟩⟩

end LabelledRuns
