import Gateway.Proofs.App.Results
import Gateway.Proofs.App.Finding

/-! Starts and stops against a clock, with a journal of what the stops do. The time that a stop gives
its child begins when the child is asked to exit; until it is over the stop cannot run out of it. -/
namespace Gateway.App

/-- What a stop does, with the time where it matters. -/
inductive Deed where
  /-- It finds this child in the slot, or nothing. -/
  | found (child : Option Nat)
  | sent (time pid number : Nat) (answer : SignalAnswer)
  /-- It runs out of time. -/
  | gaveUp (time : Nat)
  /-- It learns that its child has ended. -/
  | noticed (time : Nat)
  deriving DecidableEq

def Slot.child? : Slot → Option Nat
  | running c _ => some c
  | idle => none

structure Clocked where
  sections : Sectioned
  now : Nat
  /-- Milliseconds between the stop signal and the end by force. -/
  grace : Nat
  /-- When the grace of each stop is over. -/
  deadlines : List (Nat × Nat)
  /-- The deeds of all stops, in their order. -/
  journal : List (Nat × Deed)

inductive Happening where
  /-- Time passes. -/
  | pass (millis : Nat)
  | act (a : Act)

namespace Clocked

def new (settings : Config.AppSettings) (grace : Nat) : Clocked := ⟨.new settings, 0, grace, [], []⟩

def supervision (w : Clocked) : Supervision := w.sections.record.supervision

/-- Nothing but the end of its grace lets a stop run out of time. -/
def isDue (w : Clocked) : Act → Bool
  | .free (.timeOut j) => (w.deadlines.lookup j).any (· ≤ w.now)
  | _ => true

def deadlinesBy (w : Clocked) : Act → List (Nat × Nat)
  | .free (.signal j _) => match w.supervision.stops[j]? with
    | some (.marked _) => [(j, w.now + w.grace)]
    | _ => []
  | _ => []

def deedsBy (w : Clocked) : Act → List (Nat × Deed)
  | .enter (.stop j) => if w.supervision.slot = .idle then [(j, .found none)] else []
  | .mark j => [(j, .found w.supervision.slot.child?)]
  | .free (.signal j answer) => match w.supervision.nextSignal? j with
    | some (pid, number) => [(j, .sent w.now pid number answer)]
    | none => []
  | .free (.timeOut j) => [(j, .gaveUp w.now)]
  | .free (.notice j) => [(j, .noticed w.now)]
  | _ => []

/-- What becomes of the rest when an act has led to these sections. -/
def after (w : Clocked) (a : Act) (sections : Sectioned) : Clocked :=
  ⟨sections, w.now, w.grace, w.deadlinesBy a ++ w.deadlines, w.journal ++ w.deedsBy a⟩

def step? (w : Clocked) : Happening → Option Clocked
  | .pass millis => some { w with now := w.now + millis }
  | .act a => if w.isDue a then (w.sections.step? a).map (w.after a) else none

def run? (w : Clocked) (happenings : List Happening) : Option Clocked :=
  takeSteps? step? w happenings

def deeds (w : Clocked) (j : Nat) : List Deed := (w.journal.filter (·.1 = j)).map (·.2)

end Clocked

def Happening.act? : Happening → Option Act
  | pass _ => none
  | act a => some a

namespace Clocked

theorem does_of_step? {w w' : Clocked} {a : Act} (h : w.step? (.act a) = some w') :
    w.isDue a = true ∧ ∃ sections, Sectioned.Does w.sections a sections ∧ w' = w.after a sections := by
  simp only [step?] at h
  split_ifs at h with hdue
  obtain ⟨sections, hsections, rfl⟩ := Option.map_eq_some_iff.mp h
  exact ⟨hdue, sections, Sectioned.does_of_step? hsections, rfl⟩

/-- The clock and the journal have no part in what starts and stops do. -/
theorem run?_sections {w w' : Clocked} {happenings : List Happening}
    (h : w.run? happenings = some w') :
    w.sections.run? (happenings.filterMap (·.act?)) = some w'.sections := by
  induction happenings generalizing w with
  | nil =>
    obtain rfl := Option.some.inj h
    rfl
  | cons happening rest ih =>
    obtain ⟨v, hv, hrest⟩ := Option.bind_eq_some_iff.mp h
    have hsections := ih (w := v) hrest
    cases happening with
    | pass millis =>
      obtain rfl := Option.some.inj hv
      exact hsections
    | act a =>
      obtain ⟨-, sections, hdoes, rfl⟩ := does_of_step? hv
      exact (hdoes.run?_cons _).trans hsections

theorem deeds_after (w : Clocked) (a : Act) (sections : Sectioned) (j : Nat) :
    (w.after a sections).deeds j =
      w.deeds j ++ ((w.deedsBy a).filter (·.1 = j)).map (·.2) := by
  unfold after deeds
  rw [List.filter_append, List.map_append]

section Own
variable (w : Clocked) (sections : Sectioned) {j : Nat}

theorem deeds_after_signal {pid number : Nat} {answer : SignalAnswer}
    (h : w.supervision.nextSignal? j = some (pid, number)) :
    (w.after (.free (.signal j answer)) sections).deeds j =
      w.deeds j ++ [.sent w.now pid number answer] := by
  rw [deeds_after]
  simp [deedsBy, h]

theorem deeds_after_timeOut : (w.after (.free (.timeOut j)) sections).deeds j =
    w.deeds j ++ [.gaveUp w.now] := by
  rw [deeds_after]
  simp [deedsBy]

theorem deeds_after_notice : (w.after (.free (.notice j)) sections).deeds j =
    w.deeds j ++ [.noticed w.now] := by
  rw [deeds_after]
  simp [deedsBy]

theorem deeds_after_mark : (w.after (.mark j) sections).deeds j =
    w.deeds j ++ [.found w.supervision.slot.child?] := by
  rw [deeds_after]
  simp [deedsBy]

theorem deeds_after_enter : (w.after (.enter (.stop j)) sections).deeds j =
    w.deeds j ++ if w.supervision.slot = .idle then [.found none] else [] := by
  rw [deeds_after]
  by_cases hslot : w.supervision.slot = .idle
  · simp [deedsBy, hslot]
  · simp [deedsBy, hslot]

end Own

/-- Only a stop's own acts count among its deeds. -/
theorem deeds_after_other (w : Clocked) {a : Act} {j : Nat} (h : a.party? ≠ some (.stop j))
    (sections : Sectioned) : (w.after a sections).deeds j = w.deeds j := by
  have hother (k : Nat) (d : Deed) (hk : a.party? = some (.stop k)) :
      ([(k, d)].filter (·.1 = j)).map Prod.snd = [] := by
    have hne : k ≠ j := by
      rintro rfl
      exact h hk
    simp [hne]
  have hnone : ((w.deedsBy a).filter (·.1 = j)).map (·.2) = [] := by
    unfold deedsBy
    split
    · split_ifs
      · exact hother _ _ rfl
      · rfl
    · exact hother _ _ rfl
    · split
      · exact hother _ _ rfl
      · rfl
    · exact hother _ _ rfl
    · exact hother _ _ rfl
    · rfl
  rw [deeds_after, hnone, List.append_nil]

theorem lookup_deadlines_other (w : Clocked) {a : Act} {j : Nat} (h : a.party? ≠ some (.stop j))
    (sections : Sectioned) : (w.after a sections).deadlines.lookup j = w.deadlines.lookup j := by
  show (w.deadlinesBy a ++ w.deadlines).lookup j = _
  unfold deadlinesBy
  split
  · rename_i k answer
    have hne : (j == k) = false := by
      rw [beq_eq_false_iff_ne]
      rintro rfl
      exact h rfl
    split
    · rw [List.singleton_append, List.lookup_cons, hne]
    · rfl
  · rfl

end Clocked

end Gateway.App
