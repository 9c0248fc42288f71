import Gateway.Proofs.App.Clocked

/-! What a stop does, in any order in which starts and stops, ends of children and timers can take
their turns. It asks the child that it has found to exit, it uses force only when the time to do so is
over, and it does not return before the child is gone. -/
namespace Gateway.App

namespace Supervision

def pidOf? (s : Supervision) (c : Nat) : Option Nat := (s.children[c]?).map (·.pid)

variable {s s' : Supervision} {e : Step} {c j pid : Nat}

theorem pidOf?_of_lt (h : c < s.children.length) : ∃ pid, s.pidOf? c = some pid := by
  unfold pidOf?
  rw [List.getElem?_eq_getElem h]
  exact ⟨_, rfl⟩

theorem nextSignal?_of_marked (hstop : s.stops[j]? = some (.marked c))
    (hpid : s.pidOf? c = some pid) :
    s.nextSignal? j = some (pid, (StopSignal.ofSetting s.settings.stopSignal).number) := by
  obtain ⟨child, hchild, rfl⟩ := Option.map_eq_some_iff.mp hpid
  simp only [nextSignal?, hstop, hchild, Option.map_some]

theorem nextSignal?_of_overdue (hstop : s.stops[j]? = some (.overdue c))
    (hpid : s.pidOf? c = some pid) : s.nextSignal? j = some (pid, StopSignal.kill.number) := by
  obtain ⟨child, hchild, rfl⟩ := Option.map_eq_some_iff.mp hpid
  simp only [nextSignal?, hstop, hchild, Option.map_some]

theorem Move.settings_eq (h : Move s e s') : s'.settings = s.settings := by
  cases h <;> rfl

/-- A child keeps its process number. -/
theorem Move.pidOf?_eq (h : Move s e s') (hpid : s.pidOf? c = some pid) :
    s'.pidOf? c = some pid := by
  have hmodify (d : Nat) (f : Child → Child) (hf : ∀ child, (f child).pid = child.pid) :
      ((s.children.modify d f)[c]?).map (·.pid) = some pid := by
    obtain ⟨child, hchild, rfl⟩ := Option.map_eq_some_iff.mp hpid
    rw [List.getElem?_modify, hchild]
    by_cases hd : d = c
    · simp [hd, hf]
    · simp [hd]
  cases h with
  | @launched i newPid command hstart hslot =>
    obtain ⟨child, hchild, rfl⟩ := Option.map_eq_some_iff.mp hpid
    obtain ⟨hlt, -⟩ := List.getElem?_eq_some_iff.mp hchild
    unfold pidOf?
    rw [children_launched, List.getElem?_append_left hlt, hchild]
    rfl
  | exit => exact hmodify _ _ fun _ => rfl
  | collect => exact hmodify _ _ fun _ => rfl
  | reap => exact hmodify _ _ fun _ => rfl
  | announce => exact hmodify _ _ fun _ => rfl
  | callStart | callStop | fit | unfit | busy | unlaunched | missed | release | passed | marked
  | signal | kill | timeOut | notice => exact hpid

/-- A stop stays where it is while others take steps, unless it is called just then. -/
theorem Move.stops_other (h : Move s e s') (he : e.party? ≠ some (.stop j)) :
    s'.stops[j]? = s.stops[j]? ∨ s.stops[j]? = none ∧ s'.stops[j]? = some .called := by
  have hset (k : Nat) (p : StopPhase) (hk : e.party? = some (.stop k)) :
      (s.stops.set k p)[j]? = s.stops[j]? := by
    apply List.getElem?_set_ne
    rintro rfl
    exact he hk
  cases h with
  | callStop =>
    rw [getElem?_concat]
    split_ifs with hj
    · exact .inr ⟨List.getElem?_eq_none (Nat.le_of_eq hj.symm), rfl⟩
    · exact .inl rfl
  | passed => exact .inl (hset _ _ rfl)
  | marked => exact .inl (hset _ _ rfl)
  | signal => exact .inl (hset _ _ rfl)
  | kill => exact .inl (hset _ _ rfl)
  | timeOut => exact .inl (hset _ _ rfl)
  | notice => exact .inl (hset _ _ rfl)
  | callStart | fit | unfit | busy | unlaunched | launched | exit | collect | reap | missed
  | release | announce => exact .inl rfl

theorem stops_of_result? {result : Except SupervisorError Unit}
    (h : s.stops[j]?.bind (·.result?) = some result) :
    ∃ found, s.stops[j]? = some (.returned found result) := by
  obtain ⟨p, hp, hresult⟩ := Option.bind_eq_some_iff.mp h
  cases p <;> cases hresult
  exact ⟨_, hp⟩

theorem getElem?_set_stop {q : StopPhase} (p : StopPhase) (h : s.stops[j]? = some q) :
    (s.stops.set j p)[j]? = some p := by
  obtain ⟨hlt, -⟩ := List.getElem?_eq_some_iff.mp h
  exact List.getElem?_set_self hlt

end Supervision

namespace Sectioned
variable {w w' : Sectioned} {a : Act} {c j pid : Nat}

theorem Does.settings_eq (h : Does w a w') :
    w'.record.supervision.settings = w.record.supervision.settings := by
  cases h with
  | free hlocked hparty hstep =>
    obtain ⟨s, hs, rfl⟩ := Option.map_eq_some_iff.mp hstep
    exact (Supervision.move_of_step? hs).settings_eq
  | busy | launching | clearing | passed | marking | unspawned | spawned | occupied | cleared
  | marked => rfl

theorem Does.pidOf?_eq (h : Does w a w') (hpid : w.record.supervision.pidOf? c = some pid) :
    w'.record.supervision.pidOf? c = some pid := by
  cases h with
  | free hlocked hparty hstep =>
    obtain ⟨s, hs, rfl⟩ := Option.map_eq_some_iff.mp hstep
    exact (Supervision.move_of_step? hs).pidOf?_eq hpid
  | spawned hholder =>
    obtain ⟨child, hchild, rfl⟩ := Option.map_eq_some_iff.mp hpid
    obtain ⟨hlt, -⟩ := List.getElem?_eq_some_iff.mp hchild
    exact congrArg (Option.map (·.pid)) ((List.getElem?_append_left hlt).trans hchild)
  | busy | launching | clearing | passed | marking | unspawned | occupied | cleared | marked =>
    exact hpid

theorem Does.stops_other (h : Does w a w') (ha : a.party? ≠ some (.stop j)) :
    w'.record.supervision.stops[j]? = w.record.supervision.stops[j]? ∨
      w.record.supervision.stops[j]? = none ∧
        w'.record.supervision.stops[j]? = some .called := by
  have hset (k : Nat) (p : StopPhase) (hk : a.party? = some (.stop k)) :
      (w.record.supervision.stops.set k p)[j]? = w.record.supervision.stops[j]? := by
    apply List.getElem?_set_ne
    rintro rfl
    exact ha hk
  cases h with
  | free hlocked hparty hstep =>
    obtain ⟨s, hs, rfl⟩ := Option.map_eq_some_iff.mp hstep
    exact (Supervision.move_of_step? hs).stops_other ha
  | passed => exact .inl (hset _ _ rfl)
  | marked => exact .inl (hset _ _ rfl)
  | busy | launching | clearing | marking | unspawned | spawned | occupied | cleared =>
    exact .inl rfl

theorem Does.sound (h : Does w a w') (hheld : Held w.record.supervision w.holder)
    (hsound : w.atomic.Sound) : w'.atomic.Sound := by
  obtain ⟨steps, hsteps, -⟩ := steps_of_does hheld h
  exact hsound.run hsteps

theorem stops_atomic (w : Sectioned) :
    w.atomic.supervision.stops = w.record.supervision.stops := by
  unfold atomic
  split <;> rfl

theorem knows_run {settings : Config.AppSettings} {acts : List Act} {w : Sectioned}
    (h : (new settings).run? acts = some w) :
    ∀ p ∈ w.record.supervision.stops, p.Knows w.record.supervision.children := by
  obtain ⟨steps, hsteps, -⟩ := atomic_run .none h
  have hknows : w.atomic.Sound ∧
      ∀ p ∈ w.atomic.supervision.stops, p.Knows w.atomic.supervision.children := by
    apply takeSteps?_induct (P := fun r : Record => r.Sound ∧
      ∀ p ∈ r.supervision.stops, p.Knows r.supervision.children) _ _ hsteps
    · intro r r' e hr hstep
      refine ⟨hr.1.step hstep, ?_⟩
      obtain ⟨s, hs, rfl⟩ := Option.map_eq_some_iff.mp hstep
      exact (Supervision.move_of_step? hs).knows hr.1 hr.2
    · exact ⟨Record.sound_new settings, fun p hp => absurd hp List.not_mem_nil⟩
  have hstops := hknows.2
  rw [stops_atomic, children_atomic] at hstops
  exact hstops

/-- By the time that a stop returns, its child has ended and is reaped, and the slot has let it go. -/
theorem gone_of_returned {settings : Config.AppSettings} {acts : List Act} {w : Sectioned}
    (h : (new settings).run? acts = some w)
    (hstop : w.record.supervision.stops[j]? = some (.returned (some c) (.ok ()))) :
    ∃ pid status, w.record.supervision.children[c]? = some ⟨pid, .reaped status, true⟩ ∧
      .free (.exit c status) ∈ acts ∧ ∀ stopping, w.record.supervision.slot ≠ .running c stopping := by
  obtain ⟨child, hchild, hannounced⟩ := knows_run h _ (List.mem_of_getElem? hstop)
  have hatomic := hchild
  rw [← children_atomic] at hatomic
  obtain ⟨i, p, -, -, hfollows⟩ := (sound_run h).launcher hatomic
  -- the others are told last, when the child is reaped and the slot is free of it
  cases hfollows with
  | waiting | reaped | released => cases hannounced
  | @returned pid status known hslot =>
    refine ⟨pid, status, hchild, ?_, ?_⟩
    · rcases exit_mem h hchild rfl with hmem | ⟨before, hnone, -⟩
      · exact hmem
      · cases hnone
    · intro stopping hrunning
      exact hslot stopping (slot_atomic h hrunning)

end Sectioned

def asked (settings : Config.AppSettings) (c time pid : Nat) (answer : SignalAnswer) : List Deed :=
  [.found (some c), .sent time pid (StopSignal.ofSetting settings.stopSignal).number answer]

def forced (settings : Config.AppSettings) (c time pid late later : Nat)
    (answer last : SignalAnswer) : List Deed :=
  asked settings c time pid answer ++
    [.gaveUp late, .sent later pid StopSignal.kill.number last]

namespace Clocked

/-- A child was asked to exit, and the time to do so was over. -/
structure Overdue (w : Clocked) (c time pid late : Nat) (answer : SignalAnswer) : Prop where
  pid : w.supervision.pidOf? c = some pid
  answer : answer ≠ .refused
  late : time + w.grace ≤ late

/-- How a stop has come to its phase, with what it has done by then. -/
inductive Course (w : Clocked) (j : Nat) : Option StopPhase → List Deed → Prop
  | uncalled : Course w j none []
  | called : Course w j (some .called) []
  | passed : Course w j (some (.returned none (.ok ()))) [.found none]
  | marked {c pid : Nat} (hpid : w.supervision.pidOf? c = some pid) :
    Course w j (some (.marked c)) [.found (some c)]
  | refused {c time pid : Nat} (hpid : w.supervision.pidOf? c = some pid) :
    Course w j (some (.returned (some c) (.error .signalRefused)))
      (asked w.supervision.settings c time pid .refused)
  | signalled {c time pid : Nat} {answer : SignalAnswer}
      (hpid : w.supervision.pidOf? c = some pid) (hanswer : answer ≠ .refused)
      (hdeadline : w.deadlines.lookup j = some (time + w.grace)) :
    Course w j (some (.signalled c)) (asked w.supervision.settings c time pid answer)
  | noticed {c time pid later : Nat} {answer : SignalAnswer}
      (hpid : w.supervision.pidOf? c = some pid) :
    Course w j (some (.returned (some c) (.ok ())))
      (asked w.supervision.settings c time pid answer ++ [.noticed later])
  | overdue {c time pid late : Nat} {answer : SignalAnswer}
      (hoverdue : w.Overdue c time pid late answer) (hnow : late ≤ w.now) :
    Course w j (some (.overdue c))
      (asked w.supervision.settings c time pid answer ++ [.gaveUp late])
  | unforced {c time pid late later : Nat} {answer : SignalAnswer}
      (hoverdue : w.Overdue c time pid late answer) (hlater : late ≤ later) :
    Course w j (some (.returned (some c) (.error .signalRefused)))
      (forced w.supervision.settings c time pid late later answer .refused)
  | killed {c time pid late later : Nat} {answer last : SignalAnswer}
      (hoverdue : w.Overdue c time pid late answer) (hlater : late ≤ later) :
    Course w j (some (.killed c))
      (forced w.supervision.settings c time pid late later answer last)
  | ended {c time pid late later final : Nat} {answer last : SignalAnswer}
      (hoverdue : w.Overdue c time pid late answer) (hlater : late ≤ later) :
    Course w j (some (.returned (some c) (.ok ())))
      (forced w.supervision.settings c time pid late later answer last ++ [.noticed final])

section Inversion
variable {w : Clocked} {j c : Nat} {deeds : List Deed}

theorem Course.deeds_of_uncalled (h : Course w j none deeds) : deeds = [] := by
  cases h
  rfl

theorem Course.deeds_of_called (h : Course w j (some .called) deeds) : deeds = [] := by
  cases h
  rfl

theorem Course.of_marked (h : Course w j (some (.marked c)) deeds) :
    ∃ pid, w.supervision.pidOf? c = some pid ∧ deeds = [.found (some c)] := by
  cases h with
  | marked hpid => exact ⟨_, hpid, rfl⟩

theorem Course.of_signalled (h : Course w j (some (.signalled c)) deeds) :
    ∃ time pid answer, w.supervision.pidOf? c = some pid ∧ answer ≠ .refused ∧
      w.deadlines.lookup j = some (time + w.grace) ∧
      deeds = asked w.supervision.settings c time pid answer := by
  cases h with
  | signalled hpid hanswer hdeadline => exact ⟨_, _, _, hpid, hanswer, hdeadline, rfl⟩

theorem Course.of_overdue (h : Course w j (some (.overdue c)) deeds) :
    ∃ time pid late answer, w.Overdue c time pid late answer ∧ late ≤ w.now ∧
      deeds = asked w.supervision.settings c time pid answer ++ [.gaveUp late] := by
  cases h with
  | overdue hoverdue hnow => exact ⟨_, _, _, _, hoverdue, hnow, rfl⟩

theorem Course.of_killed (h : Course w j (some (.killed c)) deeds) :
    ∃ time pid late later answer last, w.Overdue c time pid late answer ∧ late ≤ later ∧
      deeds = forced w.supervision.settings c time pid late later answer last := by
  cases h with
  | killed hoverdue hlater => exact ⟨_, _, _, _, _, _, hoverdue, hlater, rfl⟩

end Inversion

/-- Nothing that the course of a stop rests on is taken back. -/
structure Extends (w w' : Clocked) : Prop where
  settings : w'.supervision.settings = w.supervision.settings
  grace : w'.grace = w.grace
  now : w.now ≤ w'.now
  pid : ∀ c pid, w.supervision.pidOf? c = some pid → w'.supervision.pidOf? c = some pid

section Extends
variable {w w' : Clocked} (h : w.Extends w')
include h

theorem Extends.overdue {c time pid late : Nat} {answer : SignalAnswer}
    (hoverdue : w.Overdue c time pid late answer) : w'.Overdue c time pid late answer where
  pid := h.pid c pid hoverdue.pid
  answer := hoverdue.answer
  late := by
    rw [h.grace]
    exact hoverdue.late

theorem Course.extend {j : Nat} {p : Option StopPhase} {deeds : List Deed}
    (hdeadline : w'.deadlines.lookup j = w.deadlines.lookup j) (hcourse : Course w j p deeds) :
    Course w' j p deeds := by
  cases hcourse with
  | uncalled => exact .uncalled
  | called => exact .called
  | passed => exact .passed
  | marked hpid => exact .marked (h.pid _ _ hpid)
  | refused hpid =>
    rw [← h.settings]
    exact .refused (h.pid _ _ hpid)
  | signalled hpid hanswer hset =>
    rw [← h.settings]
    apply Course.signalled (h.pid _ _ hpid) hanswer
    rw [hdeadline, hset, h.grace]
  | noticed hpid =>
    rw [← h.settings]
    exact .noticed (h.pid _ _ hpid)
  | overdue hoverdue hnow =>
    rw [← h.settings]
    exact .overdue (h.overdue hoverdue) (Nat.le_trans hnow h.now)
  | unforced hoverdue hlater =>
    rw [← h.settings]
    exact .unforced (h.overdue hoverdue) hlater
  | killed hoverdue hlater =>
    rw [← h.settings]
    exact .killed (h.overdue hoverdue) hlater
  | ended hoverdue hlater =>
    rw [← h.settings]
    exact .ended (h.overdue hoverdue) hlater

end Extends

theorem extends_pass (w : Clocked) (millis : Nat) : w.Extends { w with now := w.now + millis } where
  settings := rfl
  grace := rfl
  now := Nat.le_add_right w.now millis
  pid := fun _ _ h => h

theorem extends_after {w : Clocked} {a : Act} {sections : Sectioned}
    (hdoes : Sectioned.Does w.sections a sections) : w.Extends (w.after a sections) where
  settings := hdoes.settings_eq
  grace := rfl
  now := Nat.le_refl w.now
  pid := fun _ _ => hdoes.pidOf?_eq

/-- What is true of every state: the slot is sound, and every stop keeps to its course. -/
structure Tracked (w : Clocked) : Prop where
  held : Sectioned.Held w.supervision w.sections.holder
  sound : w.sections.atomic.Sound
  course : ∀ j, Course w j w.supervision.stops[j]? (w.deeds j)

theorem tracked_new (settings : Config.AppSettings) (grace : Nat) :
    (new settings grace).Tracked where
  held := .none
  sound := Record.sound_new settings
  course := fun _ => .uncalled

theorem Tracked.pass {w : Clocked} (h : w.Tracked) (millis : Nat) :
    Tracked { w with now := w.now + millis } where
  held := h.held
  sound := h.sound
  course := fun j => (h.course j).extend (extends_pass w millis) rfl

section Step
variable {w : Clocked} (h : w.Tracked) {a : Act} {sections : Sectioned} {j : Nat}
include h

theorem Tracked.of_stop {p : Option StopPhase} (hstop : w.supervision.stops[j]? = p) :
    Course w j p (w.deeds j) := hstop ▸ h.course j

/-- Others change nothing of what a stop has done. -/
theorem Tracked.course_other (hdoes : Sectioned.Does w.sections a sections)
    (ha : a.party? ≠ some (.stop j)) : Course (w.after a sections) j
      sections.record.supervision.stops[j]? ((w.after a sections).deeds j) := by
  rw [deeds_after_other w ha]
  rcases hdoes.stops_other ha with hsame | ⟨hnone, hcalled⟩
  · rw [hsame]
    exact (h.course j).extend (extends_after hdoes) (lookup_deadlines_other w ha sections)
  · rw [hcalled, (h.of_stop hnone).deeds_of_uncalled]
    exact .called

theorem Tracked.course_signal {c : Nat} {answer : SignalAnswer}
    (hdoes : Sectioned.Does w.sections (.free (.signal j answer)) sections)
    (hstop : w.supervision.stops[j]? = some (.marked c)) :
    Course (w.after (.free (.signal j answer)) sections) j
      (some (Supervision.step?.after c (.signalled c) answer))
      ((w.after (.free (.signal j answer)) sections).deeds j) := by
  have hextends := extends_after hdoes
  obtain ⟨pid, hpid, hdeeds⟩ := (h.of_stop hstop).of_marked
  rw [deeds_after_signal w sections (Supervision.nextSignal?_of_marked hstop hpid), hdeeds,
    ← hextends.settings]
  have hdeadline : (w.after (.free (.signal j answer)) sections).deadlines.lookup j =
      some (w.now + w.grace) := by
    show (w.deadlinesBy _ ++ w.deadlines).lookup j = _
    simp only [deadlinesBy, hstop, List.singleton_append, List.lookup_cons_self]
  cases answer with
  | refused => exact .refused (hextends.pid c pid hpid)
  | delivered => exact .signalled (hextends.pid c pid hpid) nofun hdeadline
  | noSuchProcess => exact .signalled (hextends.pid c pid hpid) nofun hdeadline

theorem Tracked.course_kill {c : Nat} {answer : SignalAnswer}
    (hdoes : Sectioned.Does w.sections (.free (.signal j answer)) sections)
    (hstop : w.supervision.stops[j]? = some (.overdue c)) :
    Course (w.after (.free (.signal j answer)) sections) j
      (some (Supervision.step?.after c (.killed c) answer))
      ((w.after (.free (.signal j answer)) sections).deeds j) := by
  have hextends := extends_after hdoes
  obtain ⟨time, pid, late, first, hoverdue, hnow, hdeeds⟩ := (h.of_stop hstop).of_overdue
  rw [deeds_after_signal w sections (Supervision.nextSignal?_of_overdue hstop hoverdue.pid), hdeeds,
    ← hextends.settings, List.append_assoc]
  have hafter := hextends.overdue hoverdue
  cases answer with
  | refused => exact .unforced hafter hnow
  | delivered => exact .killed hafter hnow
  | noSuchProcess => exact .killed hafter hnow

theorem Tracked.course_timeOut {c : Nat} (hdue : w.isDue (.free (.timeOut j)) = true)
    (hdoes : Sectioned.Does w.sections (.free (.timeOut j)) sections)
    (hstop : w.supervision.stops[j]? = some (.signalled c)) :
    Course (w.after (.free (.timeOut j)) sections) j (some (.overdue c))
      ((w.after (.free (.timeOut j)) sections).deeds j) := by
  have hextends := extends_after hdoes
  obtain ⟨time, pid, answer, hpid, hanswer, hdeadline, hdeeds⟩ := (h.of_stop hstop).of_signalled
  have hlate : time + w.grace ≤ w.now := by
    simp only [isDue, hdeadline] at hdue
    simpa using hdue
  rw [deeds_after_timeOut, hdeeds, ← hextends.settings]
  exact .overdue (hextends.overdue ⟨hpid, hanswer, hlate⟩) (Nat.le_refl w.now)

theorem Tracked.course_notice {c : Nat} {p : StopPhase}
    (hdoes : Sectioned.Does w.sections (.free (.notice j)) sections)
    (hstop : w.supervision.stops[j]? = some p) (hp : p = .signalled c ∨ p = .killed c) :
    Course (w.after (.free (.notice j)) sections) j (some (.returned (some c) (.ok ())))
      ((w.after (.free (.notice j)) sections).deeds j) := by
  have hextends := extends_after hdoes
  rw [deeds_after_notice]
  rcases hp with rfl | rfl
  · obtain ⟨time, pid, answer, hpid, -, -, hdeeds⟩ := (h.of_stop hstop).of_signalled
    rw [hdeeds, ← hextends.settings]
    exact .noticed (hextends.pid c pid hpid)
  · obtain ⟨time, pid, late, later, answer, last, hoverdue, hlater, hdeeds⟩ := (h.of_stop hstop).of_killed
    rw [hdeeds, ← hextends.settings]
    exact .ended (hextends.overdue hoverdue) hlater

theorem Tracked.called_of_marking {c : Nat} (hholder : w.sections.holder = some (.marking j c)) :
    w.supervision.stops[j]? = some .called := by
  have hheld := h.held
  rw [hholder] at hheld
  cases hheld with
  | marking hstop hslot => exact hstop

theorem Tracked.course_mark {c : Nat}
    (hdoes : Sectioned.Does w.sections (.mark j) sections)
    (hholder : w.sections.holder = some (.marking j c)) :
    Course (w.after (.mark j) sections) j (some (.marked c))
      ((w.after (.mark j) sections).deeds j) := by
  have hheld := h.held
  have hatomic : w.sections.atomic = w.sections.record := Sectioned.atomic_eq (by simp [hholder])
  have hsound := h.sound
  rw [hatomic] at hsound
  rw [hholder] at hheld
  cases hheld with
  | marking hstop hslot =>
    obtain ⟨pid, hpid⟩ := Supervision.pidOf?_of_lt (hsound.slot_lt c _ hslot)
    rw [deeds_after_mark, (h.of_stop hstop).deeds_of_called, hslot]
    exact .marked ((extends_after hdoes).pid c pid hpid)

/-- A stop goes on in its course with each act of its own. -/
theorem Tracked.course_own (hdue : w.isDue a = true)
    (hdoes : Sectioned.Does w.sections a sections) (ha : a.party? = some (.stop j)) :
    Course (w.after a sections) j sections.record.supervision.stops[j]?
      ((w.after a sections).deeds j) := by
  have hown {q : StopPhase} (p : StopPhase) (hstop : w.supervision.stops[j]? = some q) :
      (w.supervision.stops.set j p)[j]? = some p := Supervision.getElem?_set_stop p hstop
  have hact := hdoes
  cases hdoes with
  | free hlocked hparty hstep =>
    obtain ⟨s, hs, rfl⟩ := Option.map_eq_some_iff.mp hstep
    cases Supervision.move_of_step? hs with
    | signal hstop =>
      obtain rfl := Party.stop.inj (Option.some.inj ha)
      exact (hown _ hstop).symm ▸ h.course_signal hact hstop
    | kill hstop =>
      obtain rfl := Party.stop.inj (Option.some.inj ha)
      exact (hown _ hstop).symm ▸ h.course_kill hact hstop
    | timeOut hstop =>
      obtain rfl := Party.stop.inj (Option.some.inj ha)
      exact (hown _ hstop).symm ▸ h.course_timeOut hdue hact hstop
    | notice hstop hp hannounced =>
      obtain rfl := Party.stop.inj (Option.some.inj ha)
      exact (hown _ hstop).symm ▸ h.course_notice hact hstop hp
    | passed | marked => cases hlocked
    | callStart | callStop | fit | unfit | busy | unlaunched | launched | exit | collect | reap
    | missed | release | announce => cases ha
  | @passed k hholder hstop hslot =>
    have hk : k = j := Party.stop.inj (Option.some.inj ha)
    subst hk
    have hidle : w.supervision.slot = .idle := hslot
    rw [deeds_after_enter, if_pos hidle, (h.of_stop hstop).deeds_of_called]
    exact (hown _ hstop).symm ▸ .passed
  | @marking k c stopping hholder hstop hslot =>
    have hk : k = j := Party.stop.inj (Option.some.inj ha)
    subst hk
    have hbusy : w.supervision.slot ≠ .idle := by
      intro hidle
      cases hidle.symm.trans hslot
    rw [deeds_after_enter, if_neg hbusy, (h.of_stop hstop).deeds_of_called]
    exact hstop.symm ▸ .called
  | @marked k c hholder =>
    have hk : k = j := Party.stop.inj (Option.some.inj ha)
    subst hk
    exact (hown _ (h.called_of_marking hholder)).symm ▸ h.course_mark hact hholder
  | busy | launching | clearing | unspawned | spawned | occupied | cleared => cases ha

/-- Every act keeps all stops to their courses. -/
theorem Tracked.act (hdue : w.isDue a = true) (hdoes : Sectioned.Does w.sections a sections) :
    (w.after a sections).Tracked where
  held := h.held.step hdoes
  sound := hdoes.sound h.held h.sound
  course := by
    intro j
    by_cases ha : a.party? = some (.stop j)
    · exact h.course_own hdue hdoes ha
    · exact h.course_other hdoes ha

end Step

theorem tracked_run {settings : Config.AppSettings} {grace : Nat} {happenings : List Happening}
    {w : Clocked} (h : (new settings grace).run? happenings = some w) : w.Tracked := by
  refine takeSteps?_induct (P := Tracked) ?_ (tracked_new settings grace) h
  intro w v happening htracked hstep
  cases happening with
  | pass millis =>
    obtain rfl := Option.some.inj hstep
    exact htracked.pass millis
  | act a =>
    obtain ⟨hdue, sections, hdoes, rfl⟩ := does_of_step? hstep
    exact htracked.act hdue hdoes

/-- All that a stop can come to do, from first to last. -/
inductive Script (w : Clocked) : List Deed → Prop
  | idle : Script w [.found none]
  | obeyed (c time pid later : Nat) (answer : SignalAnswer)
      (hpid : w.supervision.pidOf? c = some pid) :
    Script w (asked w.supervision.settings c time pid answer ++ [.noticed later])
  | forced (c time pid late later final : Nat) (answer last : SignalAnswer)
      (hoverdue : w.Overdue c time pid late answer) (hlater : late ≤ later) :
    Script w (forced w.supervision.settings c time pid late later answer last ++ [.noticed final])

/-- What a stop has done so far can always be completed; the times and answers to come are arbitrary. -/
theorem Course.prefix_script {w : Clocked} {j : Nat} {p : Option StopPhase} {deeds : List Deed}
    (h : Course w j p deeds) : ∃ script, w.Script script ∧ deeds <+: script := by
  cases h with
  | uncalled => exact ⟨_, .idle, List.nil_prefix⟩
  | called => exact ⟨_, .idle, List.nil_prefix⟩
  | passed => exact ⟨_, .idle, List.prefix_rfl⟩
  | marked hpid => exact ⟨_, .obeyed _ 0 _ 0 .delivered hpid, _, rfl⟩
  | refused hpid => exact ⟨_, .obeyed _ _ _ 0 _ hpid, List.prefix_append _ _⟩
  | signalled hpid => exact ⟨_, .obeyed _ _ _ 0 _ hpid, List.prefix_append _ _⟩
  | noticed hpid => exact ⟨_, .obeyed _ _ _ _ _ hpid, List.prefix_rfl⟩
  | overdue hoverdue hnow =>
    exact ⟨_, .forced _ _ _ _ _ 0 _ .delivered hoverdue hnow, _, rfl⟩
  | unforced hoverdue hlater =>
    exact ⟨_, .forced _ _ _ _ _ 0 _ _ hoverdue hlater, List.prefix_append _ _⟩
  | killed hoverdue hlater =>
    exact ⟨_, .forced _ _ _ _ _ 0 _ _ hoverdue hlater, List.prefix_append _ _⟩
  | ended hoverdue hlater => exact ⟨_, .forced _ _ _ _ _ _ _ _ hoverdue hlater, List.prefix_rfl⟩

section Script
variable {w : Clocked} {script : List Deed} (h : w.Script script)
include h

/-- Whoever finds nothing does nothing else. -/
theorem Script.eq_of_found_none {deeds : List Deed} (hstart : deeds <+: script)
    (hfound : .found none ∈ deeds) : deeds = [.found none] := by
  have hmem := hstart.subset hfound
  cases h with
  | idle =>
    apply hstart.eq_of_length_le
    exact List.length_pos_of_mem hfound
  | obeyed c time pid later answer hpid => simp [asked] at hmem
  | forced c time pid late later final answer last => simp [asked, App.forced] at hmem

/-- A stop sends the signal that is set when it has found its child, and the forcing one when the time
to obey the first is over. -/
theorem Script.of_sent {before after : List Deed} {time pid number : Nat} {answer : SignalAnswer}
    (hstart : before ++ .sent time pid number answer :: after <+: script) :
    ∃ c, w.supervision.pidOf? c = some pid ∧
      (before = [.found (some c)] ∧
          number = (StopSignal.ofSetting w.supervision.settings.stopSignal).number ∨
        ∃ first reply late, before = asked w.supervision.settings c first pid reply ++ [.gaveUp late] ∧
          reply ≠ .refused ∧ first + w.grace ≤ late ∧ late ≤ time ∧
          number = StopSignal.kill.number) := by
  obtain ⟨rest, hrest⟩ := hstart
  rw [List.append_assoc, List.cons_append] at hrest
  generalize after ++ rest = tail at hrest
  cases h with
  | idle => simp [List.append_eq_cons_iff] at hrest
  | obeyed c first own later reply hpid =>
    have hfirst : before = [.found (some c)] ∧ pid = own ∧
        number = (StopSignal.ofSetting w.supervision.settings.stopSignal).number := by
      simp only [asked, List.cons_append, List.nil_append, List.append_eq_cons_iff, List.cons.injEq,
        reduceCtorEq, false_and, and_false, List.cons_eq_append_iff, Deed.sent.injEq, List.nil_eq,
        List.append_eq_nil_iff, exists_const, or_self, or_false, ↓existsAndEq, true_and,
        false_or] at hrest
      simp [hrest]
    obtain ⟨hbefore, rfl, hnumber⟩ := hfirst
    exact ⟨c, hpid, .inl ⟨hbefore, hnumber⟩⟩
  | forced c first own late later final reply last hoverdue hlater =>
    have hone : (before = [.found (some c)] ∧ pid = own ∧
          number = (StopSignal.ofSetting w.supervision.settings.stopSignal).number) ∨
        before = asked w.supervision.settings c first own reply ++ [.gaveUp late] ∧ pid = own ∧
          time = later ∧ number = StopSignal.kill.number := by
      simp only [App.forced, asked, List.cons_append, List.nil_append, List.append_eq_cons_iff,
        List.cons.injEq, reduceCtorEq, false_and, and_false, List.cons_eq_append_iff,
        Deed.sent.injEq, List.nil_eq, List.append_eq_nil_iff, exists_const, or_self, or_false,
        ↓existsAndEq, true_and, false_or] at hrest ⊢
      obtain ⟨others, hbefore, ⟨rfl, h⟩ | ⟨rfl, h⟩⟩ := hrest
      · simp [hbefore, h]
      · simp [hbefore, h]
    refine ⟨c, ?_⟩
    rcases hone with ⟨hbefore, rfl, hnumber⟩ | ⟨hbefore, rfl, rfl, hnumber⟩
    · exact ⟨hoverdue.pid, .inl ⟨hbefore, hnumber⟩⟩
    · exact ⟨hoverdue.pid,
        .inr ⟨first, reply, late, hbefore, hoverdue.answer, hoverdue.late, hlater, hnumber⟩⟩

end Script

/-- A stop that has returned says which child it has found. -/
theorem Course.found_eq {w : Clocked} {j c : Nat} {found : Option Nat} {deeds : List Deed}
    (h : Course w j (some (.returned found (.ok ()))) deeds) (hfound : .found (some c) ∈ deeds) :
    found = some c := by
  cases h with
  | passed => simp at hfound
  | @noticed d =>
    have hd : c = d := by simpa [asked] using hfound
    rw [hd]
  | @ended d =>
    have hd : c = d := by simpa [asked, forced] using hfound
    rw [hd]

theorem extends_of_step? {w w' : Clocked} {happening : Happening}
    (h : w.step? happening = some w') : w.Extends w' := by
  cases happening with
  | pass millis =>
    obtain rfl := Option.some.inj h
    exact extends_pass w millis
  | act a =>
    obtain ⟨-, sections, hdoes, rfl⟩ := does_of_step? h
    exact extends_after hdoes

theorem given_run {settings : Config.AppSettings} {grace : Nat} {happenings : List Happening}
    {w : Clocked} (h : (new settings grace).run? happenings = some w) :
    w.supervision.settings = settings ∧ w.grace = grace := by
  refine takeSteps?_induct
    (P := fun v : Clocked => v.supervision.settings = settings ∧ v.grace = grace) ?_ ⟨rfl, rfl⟩ h
  intro v v' happening hv hstep
  have hextends := extends_of_step? hstep
  exact ⟨hextends.settings.trans hv.1, hextends.grace.trans hv.2⟩

/-- In any interleaving of starts, stops, ends of children and timers, every stop keeps to the child
that it has found: it does not return well before that child has ended, is reaped and is out of the
slot; it signals this child alone, as it is set at first, and by force only when the grace has passed
since then and it has not learned of the end; and when it finds nothing it sends nothing. A run may
end anywhere, so all this holds from the return of the stop on. -/
theorem stop_ends_its_child {settings : Config.AppSettings} {grace : Nat}
    {happenings : List Happening} {w : Clocked}
    (h : (new settings grace).run? happenings = some w) (j : Nat) :
    (∀ c found, .found (some c) ∈ w.deeds j →
      w.supervision.stops[j]? = some (.returned found (.ok ())) →
      ∃ pid status, w.supervision.children[c]? = some ⟨pid, .reaped status, true⟩ ∧
        .act (.free (.exit c status)) ∈ happenings ∧
        ∀ stopping, w.supervision.slot ≠ .running c stopping) ∧
    (∀ before time pid number answer after,
      w.deeds j = before ++ .sent time pid number answer :: after →
      ∃ c, w.supervision.pidOf? c = some pid ∧
        (before = [.found (some c)] ∧
            number = (StopSignal.ofSetting settings.stopSignal).number ∨
          ∃ first reply late, before = [.found (some c),
              .sent first pid (StopSignal.ofSetting settings.stopSignal).number reply,
              .gaveUp late] ∧
            reply ≠ .refused ∧ first + grace ≤ late ∧ late ≤ time ∧
            number = StopSignal.kill.number)) ∧
    (.found none ∈ w.deeds j → w.deeds j = [.found none]) := by
  have htracked := tracked_run h
  obtain ⟨hsettings, hgrace⟩ := given_run h
  obtain ⟨script, hscript, hstart⟩ := (htracked.course j).prefix_script
  refine ⟨?_, ?_, hscript.eq_of_found_none hstart⟩
  · intro c found hfound hstop
    obtain rfl := (htracked.of_stop hstop).found_eq hfound
    obtain ⟨pid, status, hchild, hexit, hslot⟩ := Sectioned.gone_of_returned (run?_sections h) hstop
    obtain ⟨happening, hmem, hact⟩ := List.mem_filterMap.mp hexit
    cases happening with
    | pass millis => cases hact
    | act a =>
      obtain rfl := Option.some.inj hact
      exact ⟨pid, status, hchild, hmem, hslot⟩
  · intro before time pid number answer after hdeeds
    rw [hdeeds] at hstart
    have hsent := hscript.of_sent hstart
    rw [hsettings, hgrace] at hsent
    exact hsent

/-- Two stops find the first child, which does not obey; the one that asked it first uses force and
both return while a second child runs. A third stop was there before either child. -/
theorem stop_ends_its_child_of_three_stops :
    let settings : Config.AppSettings := { enabled := true, command := "app" }
    let acts : List Act := [.free .callStart, .free .callStart, .free .callStop, .free .callStop,
      .free .callStop, .enter (.stop 2), .free (.check 0 (.ok ())), .free (.check 1 (.ok ())),
      .enter (.start 0), .spawn 0 (.ok 7), .occupy 0, .enter (.stop 0), .mark 0, .enter (.stop 1),
      .mark 1, .free (.signal 0 .delivered)]
    let later : List Act := [.free (.timeOut 0), .free (.signal 0 .delivered),
      .free (.exit 0 (.signalled 9)), .free (.reap 0), .enter (.start 0), .clear 0,
      .enter (.start 1), .free (.announce 0), .spawn 1 (.ok 8), .free (.notice 1), .occupy 1,
      .free (.notice 0)]
    let happenings := acts.map .act ++ [.pass 4, .act (.free (.signal 1 .delivered)), .pass 8] ++
      later.map .act
    ∃ w, (new settings 10).run? happenings = some w ∧ w.supervision.slot = .running 1 false ∧
      w.deeds 0 = [.found (some 0), .sent 0 7 15 .delivered, .gaveUp 12, .sent 12 7 9 .delivered,
        .noticed 12] ∧
      w.deeds 1 = [.found (some 0), .sent 4 7 15 .delivered, .noticed 12] ∧
      w.deeds 2 = [.found none] ∧ w.supervision.pidOf? 0 = some 7 ∧
      ∃ pid status, w.supervision.children[0]? = some ⟨pid, .reaped status, true⟩ ∧
        .act (.free (.exit 0 status)) ∈ happenings := by
  intro settings acts later happenings
  have hrun : ((new settings 10).run? happenings).isSome = true := by decide +kernel
  obtain ⟨w, hw⟩ := Option.isSome_iff_exists.mp hrun
  have hof {α : Type} (f : Clocked → α) (a : α)
      (h : ((new settings 10).run? happenings).map f = some a) : f w = a := by
    rw [hw] at h
    exact Option.some.inj h
  have hslot := hof (fun w => w.supervision.slot) (.running 1 false) (by decide +kernel)
  have hfirst := hof (fun w => w.deeds 0) [.found (some 0), .sent 0 7 15 .delivered, .gaveUp 12,
    .sent 12 7 9 .delivered, .noticed 12] (by decide +kernel)
  have hsecond := hof (fun w => w.deeds 1) [.found (some 0), .sent 4 7 15 .delivered, .noticed 12]
    (by decide +kernel)
  have hfound : Deed.found none ∈ w.deeds 2 :=
    of_decide_eq_true (hof (fun w => decide (Deed.found none ∈ w.deeds 2)) true (by decide +kernel))
  obtain ⟨found, hstop⟩ := Supervision.stops_of_result? (hof
    (fun w => w.supervision.stops[0]?.bind (·.result?)) (some (.ok ())) (by decide +kernel))
  obtain ⟨hgone, hsent, -⟩ := stop_ends_its_child hw 0
  obtain ⟨pid, status, hchild, hexit, -⟩ := hgone 0 found (by simp [hfirst]) hstop
  obtain ⟨c, hpid, ⟨hbefore, -⟩ | ⟨first, reply, late, hbefore, -⟩⟩ :=
    hsent [.found (some 0), .sent 0 7 15 .delivered, .gaveUp 12] 12 7 9 .delivered [.noticed 12] hfirst
  · cases hbefore
  · obtain rfl := Option.some.inj (Deed.found.inj (List.cons.inj hbefore).1)
    have hnone := (stop_ends_its_child hw 2).2.2 hfound
    exact ⟨w, hw, hslot, hfirst, hsecond, hnone, hpid, pid, status, hchild, hexit⟩

end Clocked

end Gateway.App
