import Gateway.App.Environment
import Mathlib.Data.List.Basic

/-! The environment of the application: what is set last is found, and the port is among it. -/
namespace Gateway.App

namespace Environment

theorem lookup_map (env : Environment) (name value other : String) :
    (env.map fun e => if e.1 == name then (name, value) else e).lookup other =
      if other = name ∧ env.any (·.1 == name) = true then some value else env.lookup other := by
  induction env with
  | nil => simp
  | cons e env ih =>
    obtain ⟨k, v⟩ := e
    simp only [beq_iff_eq] at ih
    rw [List.map_cons]
    by_cases hk : k = name
    · by_cases ho : other = name
      · simp [hk, ho]
      · have hbeq : (other == name) = false := beq_eq_false_iff_ne.mpr ho
        simpa [hk, List.lookup_cons, ho, hbeq] using ih
    · by_cases ho : other = k
      · simp [hk, ho]
      · have hbeq : (other == k) = false := beq_eq_false_iff_ne.mpr ho
        have hany : List.any ((k, v) :: env) (·.1 == name) = env.any (·.1 == name) := by
          rw [List.any_cons, beq_eq_false_iff_ne.mpr hk, Bool.false_or]
        rw [hany]
        simpa [hk, List.lookup_cons, hbeq] using ih

/-- What is set is found, and nothing else changes. -/
theorem lookup_set (env : Environment) (name value other : String) :
    (env.set name value).lookup other = if other = name then some value else env.lookup other := by
  unfold set
  split
  · rename_i hany
    rw [lookup_map]
    simp [hany]
  · rename_i hany
    rw [List.lookup_append]
    by_cases ho : other = name
    · have hnone : env.lookup other = none := by
        rw [List.lookup_eq_none_iff]
        intro e he
        rw [ho, bne_iff_ne]
        rintro rfl
        exact hany (List.any_eq_true.mpr ⟨e, he, beq_self_eq_true _⟩)
      rw [hnone, if_pos ho, ho]
      simp
    · have hbeq : (other == name) = false := beq_eq_false_iff_ne.mpr ho
      simp [ho, List.lookup_cons, hbeq]
end Environment

/-- The application is told its port, unless its own settings say something else. -/
theorem lookup_port {parent : Environment} {app : Config.AppSettings} (hsocket : app.socket = "")
    (hport : app.port ≠ 0) (henv : ∀ e ∈ app.env, e.1 ≠ "PORT") :
    (appEnvironment parent app).lookup "PORT" = some (toString app.port.toNat) := by
  let parted := if (app.socket = "" && app.port != 0) = true then
    parent.set "PORT" (toString app.port.toNat) else parent
  have hfold (es : List (String × String)) (hes : ∀ e ∈ es, e.1 ≠ "PORT") (env : Environment) :
      (es.foldl (fun env e => env.set e.1 e.2) env).lookup "PORT" = env.lookup "PORT" := by
    induction es generalizing env with
    | nil => rfl
    | cons e es ih =>
      rw [List.foldl_cons, ih fun d hd => hes d (List.mem_cons_of_mem _ hd),
        Environment.lookup_set, if_neg (hes e List.mem_cons_self).symm]
  have hset : (app.socket = "" && app.port != 0) = true := by simp [hsocket, hport]
  calc (appEnvironment parent app).lookup "PORT"
      = (app.env.foldl (fun env e => env.set e.1 e.2) parted).lookup "PORT" := rfl
    _ = parted.lookup "PORT" := hfold app.env henv parted
    _ = some (toString app.port.toNat) := by
      rw [show parted = _ from if_pos hset, Environment.lookup_set, if_pos rfl]

end Gateway.App
