import Gateway.Proofs.App.Children

/-! What a stop can rely on once it has taken the lock, and what is left of a single start by then:
a start that may still launch, a child that holds the slot, or nothing that ever runs again. -/
namespace Gateway.App

/-- A start that can still launch a child. -/
def StartPhase.mayLaunch (settings : Config.AppSettings) : StartPhase → Bool
  | called => (Supervision.checked settings (.ok ())).isOk
  | ready _ => true
  | waiting _ | reaped .. | released .. | returned _ => false

def Announced (children : List Child) (c : Nat) : Prop :=
  ∃ child, children[c]? = some child ∧ child.announced = true

/-- What a stop relies on: the child that it found is there, and its end has been announced by the
time that the stop returns. -/
def StopPhase.Knows (children : List Child) : StopPhase → Prop
  | marked c => c < children.length
  | returned (some c) (.ok ()) => Announced children c
  | _ => True

/-- A stop that goes on, or has returned, with a child that it found. -/
def StopPhase.HasFound : StopPhase → Prop
  | called | returned none _ => False
  | marked _ | signalled _ | overdue _ | killed _ | returned (some _) _ => True

theorem StopPhase.Knows.mono {children children' : List Child} {p : StopPhase}
    (h : p.Knows children) (hlength : children.length ≤ children'.length)
    (hannounced : ∀ c, Announced children c → Announced children' c) : p.Knows children' := by
  cases p with
  | marked c => exact Nat.lt_of_lt_of_le h hlength
  | returned found result =>
    cases found with
    | none => trivial
    | some c =>
      cases result with
      | error e => trivial
      | ok u => exact hannounced c h
  | called | signalled | overdue | killed => trivial

namespace Supervision

/-- Whether some start can still launch a child. -/
def mayLaunch (s : Supervision) : Bool := s.starts.any (·.mayLaunch s.settings)

theorem checked_ok {settings : Config.AppSettings} {directory : Except FileError Unit}
    {command : Command} (h : checked settings directory = .ok command) :
    checked settings (.ok ()) = .ok command := by
  unfold checked at h ⊢
  split at h
  · cases h
  · rename_i hparse
    split_ifs at h with hempty
    · rw [if_pos hempty]
      exact h
    · rw [if_neg hempty]
      split at h
      · exact h
      · cases h
      · cases h

theorem Move.length_starts {s s' : Supervision} {e : Step} (h : Move s e s')
    (he : e ≠ .callStart) : s'.starts.length = s.starts.length := by
  cases h with
  | callStart => exact absurd rfl he
  | fit | unfit | busy | unlaunched | launched | reap | missed | release | announce =>
    exact List.length_set
  | callStop | exit | collect | passed | marked | signal | kill | timeOut | notice => rfl

theorem announced_modify {children : List Child} {c : Nat} (h : Announced children c) (d : Nat)
    {f : Child → Child} (hf : ∀ child, child.announced = true → (f child).announced = true) :
    Announced (children.modify d f) c := by
  obtain ⟨child, hchild, hannounced⟩ := h
  rw [Announced, List.getElem?_modify, hchild]
  by_cases hd : d = c
  · exact ⟨f child, by simp [hd], hf child hannounced⟩
  · exact ⟨child, by simp [hd], hannounced⟩

/-- No child goes, and no announcement is taken back. -/
theorem Move.children_mono {s s' : Supervision} {e : Step} (h : Move s e s') :
    s.children.length ≤ s'.children.length ∧
      ∀ c, Announced s.children c → Announced s'.children c := by
  cases h with
  | @launched i pid command hstart hslot =>
    rw [children_launched]
    refine ⟨by simp, ?_⟩
    rintro c ⟨child, hchild, hannounced⟩
    obtain ⟨hlt, -⟩ := List.getElem?_eq_some_iff.mp hchild
    exact ⟨child, (List.getElem?_append_left hlt).trans hchild, hannounced⟩
  | exit | collect | reap =>
    refine ⟨Nat.le_of_eq (List.length_modify ..).symm, fun c hc => ?_⟩
    exact announced_modify hc _ fun _ h => h
  | announce =>
    refine ⟨Nat.le_of_eq (List.length_modify ..).symm, fun c hc => ?_⟩
    exact announced_modify hc _ fun _ _ => rfl
  | callStart | callStop | fit | unfit | busy | unlaunched | missed | release | passed | marked
  | signal | kill | timeOut | notice => exact ⟨Nat.le_refl _, fun _ h => h⟩

/-- What the stops rely on is kept. -/
theorem Move.knows {r : Record} (hr : r.Sound) {s' : Supervision} {e : Step}
    (h : Move r.supervision e s')
    (hknows : ∀ p ∈ r.supervision.stops, p.Knows r.supervision.children) :
    ∀ p ∈ s'.stops, p.Knows s'.children := by
  obtain ⟨hlength, hannounced⟩ := h.children_mono
  have hset (j : Nat) (q : StopPhase) (hq : q.Knows s'.children) :
      ∀ p ∈ r.supervision.stops.set j q, p.Knows s'.children := by
    intro p hp
    rcases List.mem_or_eq_of_mem_set hp with hp | rfl
    · exact (hknows p hp).mono hlength hannounced
    · exact hq
  cases h with
  | callStop =>
    intro p hp
    rcases List.mem_append.mp hp with hp | hp
    · exact hknows p hp
    · rw [List.mem_singleton.mp hp]
      trivial
  | passed => exact hset _ _ trivial
  | @marked j c stopping hstop hslot => exact hset _ _ (hr.slot_lt c stopping hslot)
  | @signal j c answer => exact hset _ _ (by cases answer <;> trivial)
  | @kill j c answer => exact hset _ _ (by cases answer <;> trivial)
  | timeOut => exact hset _ _ trivial
  | notice hstop hp hany => exact hset _ _ ((Option.any_eq_true _ _).mp hany)
  | callStart | fit | unfit | busy | unlaunched | launched | exit | collect | reap | missed
  | release | announce =>
    exact fun p hp => (hknows p hp).mono hlength hannounced

/-- No child runs, and none is going to. -/
structure Quiet (s : Supervision) : Prop where
  past : s.mayLaunch = false
  ended : ∀ (c : Nat) (child : Child), s.children[c]? = some child → child.life ≠ .alive

theorem not_mayLaunch_of_mem {s : Supervision} (h : s.mayLaunch = false) {p : StartPhase}
    (hp : p ∈ s.starts) : p.mayLaunch s.settings = false :=
  Bool.eq_false_iff.mpr (List.any_eq_false.mp h p hp)

theorem not_mayLaunch_of_getElem? {s : Supervision} (h : s.mayLaunch = false) {i : Nat}
    {p : StartPhase} (hp : s.starts[i]? = some p) : p.mayLaunch s.settings = false :=
  not_mayLaunch_of_mem h (List.mem_of_getElem? hp)

/-- A start that cannot launch any more does not come to it again. -/
theorem Move.not_mayLaunch {s s' : Supervision} {e : Step} (h : Move s e s') (he : e ≠ .callStart)
    (hpast : s.mayLaunch = false) : s'.mayLaunch = false := by
  have hset (i : Nat) (q : StartPhase) (hq : q.mayLaunch s.settings = false) :
      (s.starts.set i q).any (·.mayLaunch s.settings) = false := by
    refine List.any_eq_false.mpr fun p hp => Bool.eq_false_iff.mp ?_
    rcases List.mem_or_eq_of_mem_set hp with hp | rfl
    · exact not_mayLaunch_of_mem hpast hp
    · exact hq
  cases h with
  | callStart => exact absurd rfl he
  | fit hstart hchecked =>
    have hnot := not_mayLaunch_of_getElem? hpast hstart
    rw [StartPhase.mayLaunch, checked_ok hchecked] at hnot
    cases hnot
  | unfit | busy | unlaunched | launched | reap | missed | release | announce => exact hset _ _ rfl
  | callStop | exit | collect | passed | marked | signal | kill | timeOut | notice => exact hpast

theorem Move.quiet {s s' : Supervision} {e : Step} (h : Move s e s') (he : e ≠ .callStart)
    (hquiet : s.Quiet) : s'.Quiet := by
  refine ⟨h.not_mayLaunch he hquiet.past, ?_⟩
  have hmodify (d : Nat) (f : Child → Child)
      (hf : ∀ child, child.life ≠ .alive → (f child).life ≠ .alive) (c : Nat) (child' : Child)
      (hchild' : (s.children.modify d f)[c]? = some child') : child'.life ≠ .alive := by
    rw [List.getElem?_modify] at hchild'
    obtain ⟨child, hchild, rfl⟩ := Option.map_eq_some_iff.mp hchild'
    have hended := hquiet.ended c child hchild
    split
    · exact hf child hended
    · exact hended
  cases h with
  | launched hstart => cases not_mayLaunch_of_getElem? hquiet.past hstart
  | exit => exact hmodify _ _ fun _ _ => nofun
  | collect => exact hmodify _ _ fun _ _ => nofun
  | reap => exact hmodify _ _ fun _ _ => nofun
  | announce => exact hmodify _ _ fun _ h => h
  | callStart | callStop | fit | unfit | busy | unlaunched | missed | release | passed | marked
  | signal | kill | timeOut | notice => exact hquiet.ended

/-- A stop that has found a child does not return as one that has found nothing. -/
theorem Move.hasFound {s s' : Supervision} {e : Step} (h : Move s e s') {j : Nat}
    (hfound : ∃ p, s.stops[j]? = some p ∧ p.HasFound) :
    ∃ p, s'.stops[j]? = some p ∧ p.HasFound := by
  obtain ⟨p, hp, hfound⟩ := hfound
  have hset (k : Nat) (q : StopPhase) (hq : k = j → q.HasFound) :
      ∃ p, (s.stops.set k q)[j]? = some p ∧ p.HasFound := by
    by_cases hk : k = j
    · obtain ⟨hlt, -⟩ := List.getElem?_eq_some_iff.mp hp
      exact ⟨q, by rw [hk, List.getElem?_set_self hlt], hq hk⟩
    · exact ⟨p, by rw [List.getElem?_set_ne hk, hp], hfound⟩
  have hnot {k : Nat} (hk : s.stops[k]? = some .called) : k ≠ j := by
    rintro rfl
    obtain rfl := Option.some.inj (hk.symm.trans hp)
    exact hfound
  cases h with
  | callStop =>
    obtain ⟨hlt, -⟩ := List.getElem?_eq_some_iff.mp hp
    exact ⟨p, (List.getElem?_append_left hlt).trans hp, hfound⟩
  | passed hstop => exact hset _ _ fun hk => absurd hk (hnot hstop)
  | marked hstop => exact hset _ _ fun hk => absurd hk (hnot hstop)
  | @signal k c answer => exact hset _ _ fun _ => by cases answer <;> trivial
  | @kill k c answer => exact hset _ _ fun _ => by cases answer <;> trivial
  | timeOut => exact hset _ _ fun _ => trivial
  | notice => exact hset _ _ fun _ => trivial
  | callStart | fit | unfit | busy | unlaunched | launched | exit | collect | reap | missed
  | release | announce =>
    exact ⟨p, hp, hfound⟩

/-- A stop leaves its call by taking the lock. -/
theorem Move.mark_of_called {s s' : Supervision} {e : Step} (h : Move s e s') {j : Nat}
    (hearly : ∀ p ∈ s.stops[j]?, p = .called) {p : StopPhase} (hp : s'.stops[j]? = some p)
    (hlate : p ≠ .called) : e = .mark j ∧ s.stops[j]? = some .called := by
  have hset {k : Nat} {q r : StopPhase} (hk : s.stops[k]? = some q)
      (hr : (s.stops.set k r)[j]? = some p) : k = j ∧ q = .called := by
    by_cases heq : k = j
    · subst heq
      exact ⟨rfl, hearly q hk⟩
    · rw [List.getElem?_set_ne heq] at hr
      exact absurd (hearly p hr) hlate
  cases h with
  | callStop =>
    rw [getElem?_concat] at hp
    split_ifs at hp
    · exact absurd (Option.some.inj hp).symm hlate
    · exact absurd (hearly p hp) hlate
  | passed hstop =>
    obtain ⟨rfl, -⟩ := hset hstop hp
    exact ⟨rfl, hstop⟩
  | marked hstop =>
    obtain ⟨rfl, -⟩ := hset hstop hp
    exact ⟨rfl, hstop⟩
  | signal hstop => cases (hset hstop hp).2
  | kill hstop => cases (hset hstop hp).2
  | timeOut hstop => cases (hset hstop hp).2
  | notice hstop hphase =>
    rcases hphase with rfl | rfl
    · cases (hset hstop hp).2
    · cases (hset hstop hp).2
  | callStart | fit | unfit | busy | unlaunched | launched | exit | collect | reap | missed
  | release | announce =>
    exact absurd (hearly p hp) hlate

/-- A start that may launch does so if nothing keeps it from it. -/
theorem exists_launch {s : Supervision} (hmay : s.mayLaunch = true) (hslot : s.slot = .idle)
    (pid : Nat) : ∃ i steps s', takeSteps? step? s steps = some s' ∧
      (∀ e ∈ steps, e.party? = some (.start i)) ∧ s'.stops = s.stops ∧
      s'.children = s.children ++ [⟨pid, .alive, false⟩] := by
  obtain ⟨p, hp, hlaunch⟩ := List.any_eq_true.mp hmay
  obtain ⟨i, hi⟩ := List.getElem?_of_mem hp
  have hready {s : Supervision} {command : Command} (hi : s.starts[i]? = some (.ready command))
      (hslot : s.slot = .idle) : s.step? (.launch i (.ok pid)) = some (s.launched i pid) :=
    (Move.launched hi hslot).step?_eq
  cases p with
  | called =>
    obtain ⟨command, hchecked⟩ : ∃ command, checked s.settings (.ok ()) = .ok command := by
      rw [StartPhase.mayLaunch] at hlaunch
      cases hchecked : checked s.settings (.ok ()) with
      | error e => rw [hchecked] at hlaunch; cases hlaunch
      | ok command => exact ⟨command, rfl⟩
    have hstart : (s.setStart i (.ready command)).starts[i]? = some (.ready command) := by
      rw [starts_setStart, getElem?_set_start _ hi, if_pos rfl]
    refine ⟨i, [.check i (.ok ()), .launch i (.ok pid)],
      (s.setStart i (.ready command)).launched i pid, ?_, ?_, rfl, rfl⟩
    · rw [takeSteps?_cons (Move.fit hi hchecked).step?_eq, takeSteps?_cons (hready hstart hslot)]
      rfl
    · simp [Step.party?]
  | ready command =>
    refine ⟨i, [.launch i (.ok pid)], s.launched i pid, ?_, ?_, rfl, rfl⟩
    · rw [takeSteps?_cons (hready hi hslot)]
      rfl
    · simp [Step.party?]
  | waiting | reaped | released | returned => cases hlaunch

/-- Starts and stops of which only one is a start. -/
structure StartedOnce (s : Supervision) : Prop where
  recorded : ∃ r : Record, r.Sound ∧ r.supervision = s
  length_starts : s.starts.length = 1
  knows : ∀ p ∈ s.stops, p.Knows s.children

namespace StartedOnce
variable {s : Supervision} (h : s.StartedOnce)
include h

theorem move {s' : Supervision} {e : Step} (he : e ≠ .callStart) (hmove : Move s e s') :
    s'.StartedOnce := by
  obtain ⟨r, hr, rfl⟩ := h.recorded
  refine ⟨⟨_, hr.step (Record.step?_of_move hmove rfl rfl), rfl⟩, ?_, hmove.knows hr h.knows⟩
  rw [hmove.length_starts he, h.length_starts]

theorem not_alive_of_idle (hslot : s.slot = .idle) {c : Nat} {child : Child}
    (hchild : s.children[c]? = some child) : child.life ≠ .alive := by
  obtain ⟨r, hr, rfl⟩ := h.recorded
  intro hlife
  have hrunning := hr.slot_of_unreaped hchild (by rw [hlife]; exact nofun)
  cases hslot.symm.trans hrunning

/-- Every child is followed by the one start. -/
theorem follows {c : Nat} {child : Child} (hchild : s.children[c]? = some child) :
    ∃ marked p, s.starts[0]? = some p ∧ Record.Follows s.slot c marked child p := by
  obtain ⟨r, hr, rfl⟩ := h.recorded
  obtain ⟨i, p, -, hp, hfollows⟩ := hr.launcher hchild
  obtain ⟨hlt, -⟩ := List.getElem?_eq_some_iff.mp hp
  obtain rfl : i = 0 := by
    rw [h.length_starts] at hlt
    omega
  exact ⟨_, p, hp, hfollows⟩

theorem not_alive_of_announced {c : Nat} (hannounced : Announced s.children c) {d : Nat}
    {child : Child} (hchild : s.children[d]? = some child) : child.life ≠ .alive := by
  intro hlife
  obtain ⟨ended, hended, hannounced⟩ := hannounced
  obtain ⟨_, p, hp, hfollows⟩ := h.follows hended
  obtain ⟨_, q, hq, hfollows'⟩ := h.follows hchild
  obtain rfl := Option.some.inj (hp.symm.trans hq)
  have hnone := hfollows.child?_of_announced hannounced
  rw [hfollows'.child?_of_alive hlife] at hnone
  cases hnone

/-- A start that may launch has not launched, so nothing holds the slot. -/
theorem idle_of_mayLaunch (hmay : s.mayLaunch = true) : s.slot = .idle := by
  obtain ⟨p, hp, hlaunch⟩ := List.any_eq_true.mp hmay
  obtain ⟨i, hi⟩ := List.getElem?_of_mem hp
  obtain ⟨hlt, -⟩ := List.getElem?_eq_some_iff.mp hi
  obtain rfl : i = 0 := by
    rw [h.length_starts] at hlt
    omega
  cases hslot : s.slot with
  | idle => rfl
  | running c stopping =>
    obtain ⟨r, hr, rfl⟩ := h.recorded
    have hchild := List.getElem?_eq_getElem (hr.slot_lt c stopping hslot)
    obtain ⟨_, q, hq, hfollows⟩ := h.follows hchild
    obtain rfl := Option.some.inj (hi.symm.trans hq)
    cases p with
    | called => exact absurd rfl hfollows.not_called
    | ready command => exact absurd rfl (hfollows.not_ready command)
    | waiting | reaped | released | returned => cases hlaunch

end StartedOnce

end Supervision

end Gateway.App
