import Gateway.Shell.Program
import Mathlib.Tactic.SplitIfs

/-! The time in which programs run. They can look at it and wait for it, and none of them sets it. -/
namespace Gateway.Shell.Program
open App (Environment)

theorem clock_change {w v : World} {p : Program} {path : String} {f : Bytes → Bytes}
    (h : change w p path f = some v) : v.clock = w.clock := by
  unfold change at h
  split_ifs at h
  · rw [Option.some.inj h]
  · split at h
    · obtain rfl := Option.some.inj h
      rfl
    · split at h
      · obtain rfl := Option.some.inj h
        rfl
      · cases h
    · cases h

theorem clock_redirect {p : Program} {w v : World} {redirects : List Redirect}
    {out out' : Option String} (h : redirect p w redirects out = some (v, out')) :
    v.clock = w.clock := by
  induction w, redirects, out using redirect.induct p with
  | case1 w out =>
    obtain ⟨rfl, -⟩ := Prod.mk.inj (Option.some.inj h)
    rfl
  | case2 w target rest out ih => exact ih h
  | case3 w target rest out node hnode ih =>
    simp only [redirect, hnode] at h
    exact ih h
  | case4 w target rest out e he =>
    simp only [redirect, he] at h
    cases h
  | case5 w target rest out path ih =>
    obtain ⟨u, hu, hrest⟩ := Option.bind_eq_some_iff.mp h
    rw [ih u hrest, clock_change hu]
  | case6 w target rest out path ih =>
    obtain ⟨u, hu, hrest⟩ := Option.bind_eq_some_iff.mp h
    rw [ih u hrest, clock_change hu]

theorem clock_send (w : World) (p : Program) (signal : Nat) (target : String) :
    (send w p signal target).1.clock = w.clock := by
  unfold send
  split_ifs <;> rfl

theorem clock_sendAll (w : World) (p : Program) (signal : Nat) (targets : List String) :
    (sendAll w p signal targets).1.clock = w.clock := by
  induction targets generalizing w p with
  | nil => rfl
  | cons target rest ih => exact (ih _ _).trans (clock_send w p signal target)

/-- A command that takes its arguments one by one keeps the time if it does so for each. -/
theorem clock_foldl {f : World × Program → String → World × Program}
    (hf : ∀ state path, (f state path).1.clock = state.1.clock) (paths : List String)
    (state : World × Program) : (paths.foldl f state).1.clock = state.1.clock := by
  induction paths generalizing state with
  | nil => rfl
  | cons path rest ih => exact (ih _).trans (hf state path)

theorem clock_eq_of_some {state : World × Program} {v : World} {q : Program}
    (h : some state = some (v, q)) : v.clock = state.1.clock := by
  rw [Option.some.inj h]

theorem clock_act? {w v : World} {p q : Program} {words : List String}
    (h : act? w p words = some (v, q)) : v.clock = w.clock := by
  unfold act? at h
  split at h
  -- the command to send a signal, and those that make files and directories
  case h_4 args =>
    split at h
    · exact (clock_eq_of_some h).trans (clock_sendAll _ _ _ _)
    · exact clock_eq_of_some h
  case h_11 paths =>
    apply (clock_eq_of_some h).trans
    apply clock_foldl
    intro state path
    dsimp only
    split
    · exact clock_change (by assumption)
    · rfl
  case h_12 paths =>
    apply (clock_eq_of_some h).trans
    apply clock_foldl
    intro state path
    dsimp only
    split <;> rfl
  case h_15 => cases h
  all_goals
    try split at h
    all_goals exact clock_eq_of_some h

theorem clock_runWords (w : World) (p : Program) (words : List String) (out : Option String) :
    (runWords w p words out).1.clock = w.clock := by
  unfold runWords
  split
  · rfl
  · rfl
  · split_ifs <;> rfl
  · split
    · rfl
    · dsimp only
      split
      · split
        · rename_i path
          show ((change w p path _).getD w).clock = w.clock
          cases hchange : change w p path _ with
          | none => rfl
          | some v => exact clock_change hchange
        · rfl
      · split
        · exact clock_act? (by assumption)
        · rfl

theorem clock_begin (w : World) (p : Program) (n : Node) : (begin w p n).1.clock = w.clock := by
  cases n with
  | simple assigned words redirects =>
    unfold begin
    dsimp only
    split
    · rename_i v out hredirect
      exact (clock_runWords _ _ _ _).trans (clock_redirect hredirect)
    · rfl
  | sequence | conjunction | disjunction | negation | loop | branch | each | subshell
  | background => rfl

theorem clock_step (w : World) (p : Program) : (step w p).1.clock = w.clock := by
  unfold step
  split
  · exact clock_begin w p _
  · rfl
  · split <;> rfl
  · dsimp only
    split
    · rfl
    · split <;> rfl

theorem clock_advance (share : Nat) (w : World) (p : Program) :
    (advance share w p).1.clock = w.clock := by
  induction share generalizing w p with
  | zero => rfl
  | succ share ih =>
    unfold advance
    split_ifs
    · rfl
    · exact (ih _ _).trans (clock_step w p)

end Gateway.Shell.Program
