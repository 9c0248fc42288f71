import Gateway.App.Supervision

/-! Runs of a system that takes one step after the other, and what happens in them. -/
namespace Gateway.App

variable {σ α : Type} {step? : σ → α → Option σ}

def takeSteps? (step? : σ → α → Option σ) (s : σ) : List α → Option σ
  | [] => some s
  | a :: rest => (step? s a).bind (takeSteps? step? · rest)

theorem takeSteps?_cons {s v : σ} {a : α} (h : step? s a = some v) (rest : List α) :
    takeSteps? step? s (a :: rest) = takeSteps? step? v rest := by
  rw [takeSteps?, h]
  rfl

theorem takeSteps?_append (s : σ) (as rest : List α) :
    takeSteps? step? s (as ++ rest) =
      (takeSteps? step? s as).bind (takeSteps? step? · rest) := by
  induction as generalizing s with
  | nil => rfl
  | cons a as ih =>
    simp only [List.cons_append, takeSteps?]
    cases step? s a with
    | none => rfl
    | some v => exact ih v

/-- What every step keeps holds after every run. -/
theorem takeSteps?_induct {P : σ → Prop} (hstep : ∀ s v a, P s → step? s a = some v → P v)
    {s s' : σ} {as : List α} (hs : P s) (h : takeSteps? step? s as = some s') : P s' := by
  induction as generalizing s with
  | nil =>
    obtain rfl := Option.some.inj h
    exact hs
  | cons a rest ih =>
    obtain ⟨v, hv, hrest⟩ := Option.bind_eq_some_iff.mp h
    exact ih (hstep s v a hs hv) hrest

/-- Some step of the run is like this. -/
def Takes (step? : σ → α → Option σ) (s : σ) (as : List α) (P : σ → α → Prop) : Prop :=
  ∃ before a rest v, as = before ++ a :: rest ∧ takeSteps? step? s before = some v ∧ P v a

theorem not_takes_nil {s : σ} {P : σ → α → Prop} : ¬ Takes step? s [] P := by
  rintro ⟨before, a, rest, v, hacts, -⟩
  cases before <;> cases hacts

theorem takes_cons {s v : σ} {a : α} {rest : List α} {P : σ → α → Prop}
    (h : step? s a = some v) : Takes step? s (a :: rest) P ↔ P s a ∨ Takes step? v rest P := by
  constructor
  · rintro ⟨before, b, after, u, hacts, hrun, hu⟩
    cases before with
    | nil =>
      obtain ⟨rfl, rfl⟩ := List.cons.inj hacts
      obtain rfl := Option.some.inj hrun
      exact .inl hu
    | cons b' before =>
      obtain ⟨rfl, rfl⟩ := List.cons.inj hacts
      rw [takeSteps?_cons h] at hrun
      exact .inr ⟨before, b, after, u, rfl, hrun, hu⟩
  · rintro (hs | ⟨before, b, after, u, rfl, hrun, hu⟩)
    · exact ⟨[], a, rest, s, rfl, rfl, hs⟩
    · exact ⟨a :: before, b, after, u, rfl, (takeSteps?_cons h before).trans hrun, hu⟩

theorem takes_append {s v : σ} {as rest : List α} {P : σ → α → Prop}
    (h : takeSteps? step? s as = some v) :
    Takes step? s (as ++ rest) P ↔ Takes step? s as P ∨ Takes step? v rest P := by
  induction as generalizing s with
  | nil =>
    obtain rfl := Option.some.inj h
    simp [not_takes_nil]
  | cons a as ih =>
    obtain ⟨u, hu, hrun⟩ := Option.bind_eq_some_iff.mp h
    rw [List.cons_append, takes_cons hu, takes_cons hu, ih hrun, or_assoc]

/-- What a step brings about holds after a run if it held before or some step of the run brings it
about. -/
theorem iff_takes_of_steps {I Q : σ → Prop} {P : σ → α → Prop}
    (hkeeps : ∀ s v a, I s → step? s a = some v → I v)
    (hstep : ∀ s v a, I s → step? s a = some v → (Q v ↔ Q s ∨ P s a))
    {s s' : σ} {as : List α} (hs : I s) (h : takeSteps? step? s as = some s') :
    Q s' ↔ Q s ∨ Takes step? s as P := by
  induction as generalizing s with
  | nil =>
    obtain rfl := Option.some.inj h
    exact (or_iff_left not_takes_nil).symm
  | cons a rest ih =>
    obtain ⟨v, hv, hrest⟩ := Option.bind_eq_some_iff.mp h
    rw [takes_cons hv, ih (hkeeps s v a hs hv) hrest, hstep s v a hs hv, or_assoc]

end Gateway.App
