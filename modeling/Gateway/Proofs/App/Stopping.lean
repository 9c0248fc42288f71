import Gateway.App.Lifecycle
import Gateway.Proofs.App.Finding

/-! The gateway stops its application once. A start that has not launched by then is not stopped:
the stop finds nothing, and the child that is launched afterwards is never asked to exit. -/
namespace Gateway.App

namespace Service

def run? (v : Service) (events : List Event) : Option Service := takeSteps? step? v events

theorem run?_append {v u : Service} {before : List Event} (h : v.run? before = some u)
    (rest : List Event) : v.run? (before ++ rest) = u.run? rest := by
  rw [run?, takeSteps?_append, ← run?, h]
  rfl

/-- Nobody but the gateway calls the start, and it does so once, before anything happens. -/
theorem supervision_of_step? {v w : Service} {e : Event} (h : v.step? e = some w) :
    w.supervision = v.supervision ∨ ∃ s a s', v.supervision = some s ∧ w.supervision = some s' ∧
      Supervision.Move s a s' ∧ (a = .callStop ∨ a ≠ .callStart ∧ e = .supervise a) := by
  have hshut (outcome : Except LifecycleError Unit) (joined drained : Bool) :
      (v.shutDown outcome joined drained).supervision = v.supervision ∨
        ∃ s a s', v.supervision = some s ∧
          (v.shutDown outcome joined drained).supervision = some s' ∧
          Supervision.Move s a s' ∧ (a = .callStop ∨ a ≠ .callStart ∧ e = .supervise a) := by
    unfold shutDown
    split
    · rename_i hnone
      exact .inl hnone.symm
    · rename_i s hs
      exact .inr ⟨s, .callStop, _, hs, rfl, .callStop, .inl rfl⟩
  unfold step? at h
  split at h
  · split_ifs at h with hown
    obtain ⟨s', hs', rfl⟩ := Option.map_eq_some_iff.mp h
    obtain ⟨s, hs, hstep⟩ := Option.bind_eq_some_iff.mp hs'
    refine .inr ⟨s, _, s', hs, rfl, Supervision.move_of_step? hstep, .inr ⟨?_, rfl⟩⟩
    rintro rfl
    exact hown rfl
  · obtain rfl := Option.some.inj h
    exact hshut ..
  · obtain rfl := Option.some.inj h
    exact hshut ..
  · obtain ⟨r, -, rfl⟩ := Option.map_eq_some_iff.mp h
    exact hshut ..
  · obtain ⟨r, -, rfl⟩ := Option.map_eq_some_iff.mp h
    split_ifs <;> exact .inl rfl
  · obtain ⟨r, -, rfl⟩ := Option.map_eq_some_iff.mp h
    exact .inl rfl
  · obtain rfl := Option.some.inj h
    exact .inl rfl
  · cases h

/-- What starts and stops keep without another call of a start holds while the gateway runs. -/
theorem run?_induct {P : Supervision → Prop}
    (hmove : ∀ s a s', a ≠ .callStart → Supervision.Move s a s' → P s → P s') {v w : Service}
    {events : List Event} (hrun : v.run? events = some w) (hv : ∀ s ∈ v.supervision, P s) :
    ∀ s ∈ w.supervision, P s := by
  refine takeSteps?_induct (P := fun v : Service => ∀ s ∈ v.supervision, P s) ?_ hv hrun
  intro v w e hv hstep s' hs'
  rcases supervision_of_step? hstep with heq | ⟨s, a, t, hs, ht, hm, ha⟩
  · exact hv s' (heq ▸ hs')
  · obtain rfl := Option.some.inj (ht.symm.trans hs')
    have hcall : a ≠ .callStart := by
      rcases ha with rfl | ⟨ha, -⟩
      · exact nofun
      · exact ha
    exact hmove s a t hcall hm (hv s hs)

theorem startedOnce {settings : Config.Settings} {v : Service} {events : List Event}
    (hrun : (new settings).run? events = some v) : ∀ s ∈ v.supervision, s.StartedOnce := by
  refine run?_induct (fun s a s' ha hm hs => hs.move ha hm) hrun ?_
  intro s hs
  unfold new at hs
  split at hs
  · obtain rfl := Option.some.inj hs
    have hcalled := Record.step?_of_move (r := .new settings.app) .callStart rfl rfl
    exact ⟨⟨_, (Record.sound_new settings.app).step hcalled, rfl⟩, rfl, nofun⟩
  · cases hs

theorem stops_new (settings : Config.Settings) :
    ∀ s ∈ (new settings).supervision, ∀ p ∈ s.stops[0]?, p = .called := by
  intro s hs p hp
  unfold new at hs
  split at hs
  · obtain rfl := Option.some.inj hs
    cases hp
  · cases hs

theorem step?_supervise {v : Service} {s s' : Supervision} {a : Step} (hs : v.supervision = some s)
    (ha : isOwnCall a = false) (hstep : s.step? a = some s') :
    v.step? (.supervise a) = some { v with supervision := some s' } := by
  simp [step?, ha, hs, hstep]

theorem run?_supervise {v : Service} {s s' : Supervision} {steps : List Step}
    (hs : v.supervision = some s) (hsteps : ∀ a ∈ steps, isOwnCall a = false)
    (hrun : takeSteps? Supervision.step? s steps = some s') :
    v.run? (steps.map .supervise) = some { v with supervision := some s' } := by
  induction steps generalizing v s with
  | nil =>
    obtain rfl := Option.some.inj hrun
    rw [← hs]
    rfl
  | cons a rest ih =>
    obtain ⟨u, hu, hrest⟩ := Option.bind_eq_some_iff.mp hrun
    have hstep := step?_supervise hs (hsteps a List.mem_cons_self) hu
    rw [List.map_cons, run?, takeSteps?_cons hstep]
    exact ih rfl (fun b hb => hsteps b (List.mem_cons_of_mem _ hb)) hrest

theorem returned_of_stopResult? {v : Service} {s : Supervision}
    {result : Except SupervisorError Unit} (hs : v.supervision = some s)
    (h : v.stopResult? = some result) : ∃ found, s.stops[0]? = some (.returned found result) := by
  rw [stopResult?, hs, Option.bind_some] at h
  obtain ⟨p, hp, hresult⟩ := Option.bind_eq_some_iff.mp h
  cases p with
  | returned found r =>
    obtain rfl := Option.some.inj hresult
    exact ⟨found, hp⟩
  | called | marked | signalled | overdue | killed => cases hresult

/-- A stop asks this child to exit. -/
def Asks (c : Nat) (v : Service) (e : Event) : Prop :=
  ∃ s j, v.supervision = some s ∧ s.stops[j]? = some (.marked c) ∧
    e = .supervise (.signal j .delivered)

/-- If the stop has returned without an error after all this, every child that still runs has been
asked to exit. -/
def AllAsked (settings : Config.Settings) (events : List Event) : Prop :=
  ∀ v, (new settings).run? events = some v → v.stopResult? = some (.ok ()) →
    ∀ s ∈ v.supervision, ∀ (c : Nat) (child : Child), s.children[c]? = some child →
      child.life = .alive → Takes step? (new settings) events (Asks c)

def waitsForStart (v : Service) : Bool :=
  match v.stage with
  | .joining .. => v.startResult?.isNone
  | .serving | .stopping .. | .draining _ | .ended _ => false

section Marking
variable {settings : Config.Settings} {before : List Event} {v : Service} {s : Supervision}
  (hrun : (new settings).run? before = some v) (hs : v.supervision = some s)
include hrun hs

/-- Nobody has been asked yet to be launched later. -/
theorem not_asked_before : ¬ Takes step? (new settings) before (Asks s.children.length) := by
  rintro ⟨earlier, e, later, u, rfl, hu, t, j, ht, hmarked, rfl⟩
  have hknows := (startedOnce hu t ht).knows _ (List.mem_of_getElem? hmarked)
  have hlater : u.run? (.supervise (.signal j .delivered) :: later) = some v :=
    (run?_append hu _).symm.trans hrun
  have hmono := run?_induct (P := fun s => t.children.length ≤ s.children.length)
    (fun _ _ _ _ hm h => Nat.le_trans h hm.children_mono.1) hlater
    (fun t' ht' => Option.some.inj (ht.symm.trans ht') ▸ Nat.le_refl _)
  exact absurd hknows (Nat.not_lt.mpr (hmono s hs))

theorem not_alive_of_stopped (hstop : s.stops[0]? = some .called) (hnot : s.mayLaunch = false)
    {rest : List Event} {w : Service}
    (hwhole : (new settings).run? (before ++ .supervise (.mark 0) :: rest) = some w)
    (hok : w.stopResult? = some (.ok ())) {t : Supervision} (ht : w.supervision = some t) {c : Nat}
    {child : Child} (hchild : t.children[c]? = some child) : child.life ≠ .alive := by
  have honce := startedOnce hrun s hs
  have honce' := startedOnce hwhole t ht
  rw [run?_append hrun] at hwhole
  obtain ⟨u, hu, hrest⟩ := Option.bind_eq_some_iff.mp hwhole
  have hu' := hu
  simp only [step?, isOwnCall, hs, Option.bind_some, Bool.false_eq_true, if_false] at hu'
  obtain ⟨s₁, hs₁, rfl⟩ := Option.map_eq_some_iff.mp hu'
  obtain ⟨found, hreturned⟩ := returned_of_stopResult? ht hok
  -- the stop waited for the child that it found, and one start launches no other
  cases found with
  | some d =>
    have hannounced : Announced t.children d := honce'.knows _ (List.mem_of_getElem? hreturned)
    exact honce'.not_alive_of_announced hannounced hchild
  | none =>
    have hlater {P : Supervision → Prop} (hP : P s₁)
        (hmove : ∀ s a s', a ≠ .callStart → Supervision.Move s a s' → P s → P s') : P t :=
      run?_induct hmove hrest (fun s hs => Option.some.inj hs ▸ hP) t ht
    cases Supervision.move_of_step? hs₁ with
    | passed _ hslot =>
      have hquiet : t.Quiet := hlater ⟨hnot, fun d e he => honce.not_alive_of_idle hslot he⟩
        fun _ _ _ ha hm hq => hm.quiet ha hq
      exact hquiet.ended c child hchild
    | @marked _ d =>
      have hmarked : (s.stops.set 0 (.marked d))[0]? = some (.marked d) := by
        obtain ⟨hlt, -⟩ := List.getElem?_eq_some_iff.mp hstop
        exact List.getElem?_set_self hlt
      obtain ⟨p, hp, hfound⟩ :=
        hlater ⟨_, hmarked, trivial⟩ fun _ _ _ _ hm hf => hm.hasFound (j := 0) hf
      obtain rfl := Option.some.inj (hreturned.symm.trans hp)
      cases hfound

omit hrun hs in
/-- Nobody is asked while the stop takes the lock and the start takes its steps. -/
theorem not_asked_by_start {c i : Nat} {steps : List Step}
    (hparty : ∀ a ∈ steps, a.party? = some (.start i)) :
    ¬ Takes step? v (.supervise (.mark 0) :: steps.map .supervise) (Asks c) := by
  rintro ⟨earlier, e, later, u, hevents, -, t, j, -, -, rfl⟩
  have hmem : Event.supervise (.signal j .delivered) ∈
      Event.supervise (.mark 0) :: steps.map .supervise := by
    rw [hevents]
    simp
  obtain ⟨a, ha, heq⟩ : ∃ a ∈ steps, Event.supervise a = .supervise (.signal j .delivered) := by
    simpa using hmem
  obtain rfl := Event.supervise.inj heq
  cases hparty _ ha

/-- A start that may still launch when the stop takes the lock can go on to a child that runs and
that nobody has asked to exit. -/
theorem exists_not_allAsked (hstop : s.stops[0]? = some .called) (hmay : s.mayLaunch = true) :
    ∃ rest, ¬ AllAsked settings (before ++ .supervise (.mark 0) :: rest) := by
  have hslot := (startedOnce hrun s hs).idle_of_mayLaunch hmay
  have hmark := (Supervision.Move.passed hstop hslot).step?_eq
  obtain ⟨i, steps, t, hsteps, hparty, hstops, hchildren⟩ :=
    (s.setStop 0 (.returned none (.ok ()))).exists_launch hmay hslot 1
  have hown : ∀ a ∈ steps, isOwnCall a = false := by
    intro a ha
    have hstart := hparty a ha
    cases a <;> first | rfl | cases hstart
  let w : Service := ⟨some t, v.stage⟩
  have hrest : v.run? (.supervise (.mark 0) :: steps.map .supervise) = some w := by
    rw [run?, takeSteps?_cons (step?_supervise hs rfl hmark)]
    exact run?_supervise rfl hown hsteps
  have hok : w.stopResult? = some (.ok ()) := by
    obtain ⟨hlt, -⟩ := List.getElem?_eq_some_iff.mp hstop
    simp [w, stopResult?, hstops, List.getElem?_set_self hlt, StopPhase.result?]
  have hchild : t.children[s.children.length]? = some ⟨1, .alive, false⟩ := by
    rw [hchildren]
    exact List.getElem?_concat_length
  refine ⟨steps.map .supervise, fun hall => ?_⟩
  have hasked := hall w ((run?_append hrun _).trans hrest) hok t rfl _ _ hchild rfl
  rcases (takes_append hrun).mp hasked with hearly | hlate
  · exact not_asked_before hrun hs hearly
  · exact not_asked_by_start hparty hlate

end Marking

/-- A stop that has returned has taken the lock at some moment. -/
theorem exists_mark {v w : Service} {events : List Event} {t : Supervision} {p : StopPhase}
    (hearly : ∀ s ∈ v.supervision, ∀ p ∈ s.stops[0]?, p = .called) (hrun : v.run? events = some w)
    (ht : w.supervision = some t) (hp : t.stops[0]? = some p) (hlate : p ≠ .called) :
    ∃ before u s rest, events = before ++ .supervise (.mark 0) :: rest ∧
      v.run? before = some u ∧ u.supervision = some s ∧ s.stops[0]? = some .called := by
  induction events generalizing v with
  | nil =>
    obtain rfl := Option.some.inj hrun
    exact absurd (hearly t ht p hp) hlate
  | cons e rest ih =>
    obtain ⟨u, hu, hrest⟩ := Option.bind_eq_some_iff.mp hrun
    by_cases hnext : ∀ s ∈ u.supervision, ∀ p ∈ s.stops[0]?, p = .called
    · obtain ⟨before, x, s, after, rfl, hx, hs, hstop⟩ := ih hnext hrest
      exact ⟨e :: before, x, s, after, rfl, (takeSteps?_cons hu before).trans hx, hs, hstop⟩
    -- with this event the stop leaves its call, so this is the moment
    · push Not at hnext
      obtain ⟨s', hs', q, hq, hqlate⟩ := hnext
      rcases supervision_of_step? hu with heq | ⟨s, a, s₁, hs, hs₁, hmove, ha⟩
      · exact absurd (hearly s' (heq ▸ hs') q hq) hqlate
      · obtain rfl := Option.some.inj (hs₁.symm.trans hs')
        obtain ⟨rfl, hstop⟩ := hmove.mark_of_called (hearly s hs) hq hqlate
        rcases ha with ha | ⟨-, rfl⟩
        · cases ha
        · exact ⟨[], v, s, rest, rfl, rfl, hs, hstop⟩

/-- Whenever the stop has returned without an error, there was the moment when it took the lock. If
the start could not launch any more then, every child that runs later has been asked to exit; and if
it could, this does not hold of everything that can follow. -/
theorem allAsked_iff_not_mayLaunch {settings : Config.Settings} {events : List Event} {w : Service}
    (hrun : (new settings).run? events = some w) (hok : w.stopResult? = some (.ok ())) :
    ∃ before v s rest, events = before ++ .supervise (.mark 0) :: rest ∧
      (new settings).run? before = some v ∧ v.supervision = some s ∧
      s.stops[0]? = some .called ∧
      ((∀ rest, AllAsked settings (before ++ .supervise (.mark 0) :: rest)) ↔
        s.mayLaunch = false) := by
  obtain ⟨t, ht⟩ : ∃ t, w.supervision = some t := by
    obtain ⟨t, ht, -⟩ := Option.bind_eq_some_iff.mp hok
    exact ⟨t, ht⟩
  obtain ⟨found, hreturned⟩ := returned_of_stopResult? ht hok
  obtain ⟨before, v, s, rest, hevents, hv, hs, hstop⟩ :=
    exists_mark (stops_new settings) hrun ht hreturned nofun
  refine ⟨before, v, s, rest, hevents, hv, hs, hstop, ?_⟩
  constructor
  · intro hall
    by_contra hmay
    obtain ⟨rest, hnot⟩ := exists_not_allAsked hv hs hstop (Bool.not_eq_false _ ▸ hmay)
    exact hnot (hall rest)
  · intro hnot rest w hw hok t ht c child hchild hlife
    exact absurd hlife (not_alive_of_stopped hv hs hstop hnot hw hok ht hchild)

/-- The stop takes the lock while the child runs, so it is asked, whatever happens later. -/
theorem allAsked_of_running_child :
    let settings : Config.Settings := { app := { enabled := true, command := "app" } }
    ∀ rest, AllAsked settings ([.signalled, .supervise (.check 0 (.ok ())),
      .supervise (.launch 0 (.ok 7))] ++ .supervise (.mark 0) :: rest) := by
  intro settings
  let before : List Event :=
    [.signalled, .supervise (.check 0 (.ok ())), .supervise (.launch 0 (.ok 7))]
  let later : List Event := [.supervise (.signal 0 .delivered), .supervise (.exit 0 (.exited 0)),
    .supervise (.reap 0), .supervise (.release 0), .supervise (.announce 0), .supervise (.notice 0)]
  let events := before ++ .supervise (.mark 0) :: later
  have hrun : ((new settings).run? events).isSome = true := by decide +kernel
  obtain ⟨w, hw⟩ := Option.isSome_iff_exists.mp hrun
  have hok : w.stopResult? = some (.ok ()) := by
    have hresult : ((new settings).run? events).bind (·.stopResult?) = some (.ok ()) := by
      decide +kernel
    rwa [hw] at hresult
  obtain ⟨before', v, s, rest, hevents, hv, hs, -, hiff⟩ := allAsked_iff_not_mayLaunch hw hok
  have hfront : Event.supervise (.mark 0) ∉ before := by simp [before]
  have hback : Event.supervise (.mark 0) ∉ later := by simp [later]
  obtain ⟨rfl, -⟩ := (List.append_cons_inj_of_notMem hfront hback).mp hevents
  refine hiff.mpr ?_
  have hmay : (((new settings).run? before).bind (·.supervision)).map (·.mayLaunch) =
      some false := by
    decide +kernel
  rw [hv, Option.bind_some, hs] at hmay
  exact Option.some.inj hmay

/-- The start is called and has done nothing when the gateway is told to end: the stop finds nothing
and returns, and while the gateway waits for the start, this launches a child. -/
theorem not_allAsked_of_late_launch :
    let settings : Config.Settings := { app := { enabled := true, command := "app" } }
    let events : List Event := [.signalled, .supervise (.mark 0), .stopReturned,
      .supervise (.check 0 (.ok ())), .supervise (.launch 0 (.ok 7))]
    ((new settings).run? events).any (·.waitsForStart) = true ∧ ¬ AllAsked settings events := by
  intro settings events
  refine ⟨by decide +kernel, fun hall => ?_⟩
  have hlast : (((new settings).run? events).bind fun w => w.stopResult?.bind fun result =>
      w.supervision.map fun s => (result, s.children)) = some (.ok (), [⟨7, .alive, false⟩]) := by
    decide +kernel
  obtain ⟨w, hw, hlast⟩ := Option.bind_eq_some_iff.mp hlast
  obtain ⟨result, hok, hlast⟩ := Option.bind_eq_some_iff.mp hlast
  obtain ⟨s, hs, hlast⟩ := Option.map_eq_some_iff.mp hlast
  obtain ⟨rfl, hchildren⟩ := Prod.mk.inj hlast
  obtain ⟨before, e, rest, v, hevents, -, t, j, -, -, rfl⟩ :=
    hall w hw hok s hs 0 ⟨7, .alive, false⟩ (by rw [hchildren]; rfl) rfl
  have hmem : Event.supervise (.signal j .delivered) ∈ events := by
    rw [hevents]
    simp
  simp [events] at hmem

end Service

end Gateway.App
