import Gateway.App.Session
import Gateway.Proofs.App.Escalation
import Gateway.Proofs.Shell.Time

/-! A session carries starts and stops out one after the other on a host. Whatever it does is one of
the interleavings that the clock allows, so what is true of all of these is true of it. -/
namespace Gateway.App

namespace Host

theorem world_signal (h : Host) (pid number : Nat) : (h.signal pid number).2.world = h.world := by
  unfold signal
  split
  · split_ifs <;> rfl
  · rfl

theorem clock_advance (h : Host) : h.advance.world.clock = h.world.clock := by
  unfold advance
  split
  · rfl
  · exact Shell.Program.clock_advance _ _ _

end Host

namespace Clocked

/-- With the lock free, the session is where the interleaving has come to. -/
structure Shows (w : Clocked) (s : Session) : Prop where
  holder : w.sections.holder = none
  supervision : w.supervision = s.supervision
  now : w.now = s.host.world.clock
  grace : w.grace = s.grace
  deadlines : w.deadlines = s.deadlines

/-- Some happenings lead from here to where the session is. -/
def Leads (w : Clocked) (s : Session) : Prop :=
  ∃ happenings v, w.run? happenings = some v ∧ v.Shows s

/-- They do so while no time passes. -/
def LeadsAtOnce (w : Clocked) (s : Session) : Prop :=
  ∃ happenings v, w.run? happenings = some v ∧ v.Shows s ∧ v.now = w.now

/-- Acts that need the lock look at no deadline and set none. -/
theorem run?_locked {w : Clocked} {acts : List Act} {sections : Sectioned}
    (hacts : ∀ a ∈ acts, ∀ e, a ≠ .free e) (h : w.sections.run? acts = some sections) :
    ∃ journal, w.run? (acts.map .act) = some { w with sections, journal } := by
  induction acts generalizing w with
  | nil =>
    obtain rfl := Option.some.inj h
    exact ⟨w.journal, rfl⟩
  | cons a rest ih =>
    obtain ⟨v, hv, hrest⟩ := Option.bind_eq_some_iff.mp h
    have hfree := hacts a List.mem_cons_self
    have hstep : w.step? (.act a) =
        some { w with sections := v, journal := w.journal ++ w.deedsBy a } := by
      cases a with
      | free e => exact absurd rfl (hfree e)
      | enter | spawn | occupy | clear | mark =>
        simp only [step?, isDue, if_true, hv]
        rfl
    obtain ⟨journal, hjournal⟩ := ih
      (w := { w with sections := v, journal := w.journal ++ w.deedsBy a })
      (fun b hb => hacts b (List.mem_cons_of_mem _ hb)) hrest
    exact ⟨journal, (takeSteps?_cons hstep _).trans hjournal⟩

/-- A whole step can be taken as its single accesses, when it is due. -/
theorem run?_step {w : Clocked} {e : Step} {s : Supervision} (hholder : w.sections.holder = none)
    (hdue : w.isDue (.free e) = true) (h : w.supervision.step? e = some s) :
    ∃ happenings v, w.run? happenings = some v ∧ v.sections.holder = none ∧ v.supervision = s ∧
      v.now = w.now ∧ v.grace = w.grace ∧ v.deadlines = w.deadlinesBy (.free e) ++ w.deadlines := by
  obtain ⟨r, hr, hs⟩ : ∃ r, w.sections.record.step? e = some r ∧ r.supervision = s :=
    ⟨_, Option.map_eq_some_iff.mpr ⟨s, h, rfl⟩, rfl⟩
  have hrun := Sectioned.run?_accesses hr
  rw [← hholder] at hrun
  cases hlocked : e.isLocked with
  | false =>
    rw [Sectioned.accesses_of_free _ hlocked] at hrun
    obtain ⟨sections, hsections, hnil⟩ := Option.bind_eq_some_iff.mp hrun
    obtain rfl := Option.some.inj hnil
    have hstep : w.step? (.act (.free e)) = some (w.after (.free e) ⟨r, w.sections.holder⟩) := by
      show (if w.isDue (.free e) = true then (w.sections.step? (.free e)).map _ else none) = _
      rw [if_pos hdue, hsections]
      rfl
    exact ⟨[.act (.free e)], _, (takeSteps?_cons hstep []).trans rfl, hholder, hs, rfl, rfl, rfl⟩
  | true =>
    obtain ⟨journal, hjournal⟩ := run?_locked (Sectioned.accesses_of_locked _ hlocked) hrun
    have hnone : w.deadlinesBy (.free e) = [] := by
      cases e <;> first | rfl | cases hlocked
    rw [hnone]
    exact ⟨_, _, hjournal, hholder, hs, rfl, rfl, rfl⟩

section Session
variable {w : Clocked} {s s' : Session}

theorem Shows.atOnce (h : w.Shows s) : w.LeadsAtOnce s := ⟨[], w, rfl, h, rfl⟩

/-- Steps that have to do with no deadline. -/
theorem Shows.take {e : Step} (h : w.Shows s) (hdue : w.isDue (.free e) = true)
    (hdeadlines : w.deadlinesBy (.free e) = []) (hs : s.take? e = some s') : w.LeadsAtOnce s' := by
  obtain ⟨t, ht, rfl⟩ := Option.map_eq_some_iff.mp hs
  rw [← h.supervision] at ht
  obtain ⟨happenings, v, hv, hholder, hsupervision, hnow, hgrace, hset⟩ := run?_step h.holder hdue ht
  have hshown : v.deadlines = s.deadlines := by rw [hset, hdeadlines, List.nil_append, h.deadlines]
  exact ⟨happenings, v, hv,
    ⟨hholder, hsupervision, hnow.trans h.now, hgrace.trans h.grace, hshown⟩, hnow⟩

/-- A signal, with the deadline that is set for it. -/
theorem Shows.sendSignal {i : Nat} {deadlines : List (Nat × Nat)} (h : w.Shows s)
    (hdeadlines : ∀ answer, w.deadlinesBy (.free (.signal i answer)) ++ s.deadlines = deadlines)
    (hs : { s with deadlines }.sendSignal? i = some s') : w.LeadsAtOnce s' := by
  obtain ⟨⟨pid, number⟩, -, hanswered⟩ := Option.bind_eq_some_iff.mp hs
  obtain ⟨t, ht, rfl⟩ := Option.map_eq_some_iff.mp hanswered
  rw [← h.supervision] at ht
  obtain ⟨happenings, v, hv, hholder, hsupervision, hnow, hgrace, hset⟩ :=
    run?_step h.holder rfl ht
  have hclock : v.now = (s.host.signal pid number).2.world.clock := by
    rw [s.host.world_signal, hnow, h.now]
  have hshown : v.deadlines = deadlines := by rw [hset, h.deadlines, hdeadlines]
  exact ⟨happenings, v, hv, ⟨hholder, hsupervision, hclock, hgrace.trans h.grace, hshown⟩, hnow⟩

theorem Shows.launch {i : Nat} {command : Command} (h : w.Shows s)
    (hs : s.launch? i command = some s') : w.LeadsAtOnce s' := by
  unfold Session.launch? at hs
  dsimp only at hs
  split at hs
  · exact h.take rfl rfl hs
  · split at hs
    · exact h.take rfl rfl hs
    · have hshown (latest : Option (Nat × Shell.Program)) :
          w.Shows { s with host := { s.host with latest } } :=
        ⟨h.holder, h.supervision, h.now, h.grace, h.deadlines⟩
      exact (hshown _).take rfl rfl hs

theorem Shows.advanceStart {i : Nat} (h : w.Shows s) (hs : s.advanceStart? i = some s') :
    w.LeadsAtOnce s' := by
  unfold Session.advanceStart? at hs
  split at hs
  · exact h.take rfl rfl hs
  · exact h.launch hs
  · exact h.take rfl rfl hs
  · exact h.take rfl rfl hs
  · exact h.take rfl rfl hs
  · cases hs

theorem Shows.advanceStop {i : Nat} (h : w.Shows s) (hs : s.advanceStop? i = some s') :
    w.LeadsAtOnce s' := by
  unfold Session.advanceStop? at hs
  split at hs
  case h_1 => exact h.take rfl rfl hs
  case h_2 c hstop =>
    apply h.sendSignal _ hs
    intro answer
    rw [← h.supervision] at hstop
    simp only [deadlinesBy, hstop, h.now, h.grace, List.singleton_append]
  case h_3 c hstop =>
    rw [Option.orElse_eq_orElse, Option.orElse_eq_or] at hs
    rcases Option.or_eq_some_iff.mp hs with hnotice | ⟨-, hlate⟩
    · exact h.take rfl rfl hnotice
    · split_ifs at hlate with hdue
      rw [← h.deadlines, ← h.now] at hdue
      have hover : w.isDue (.free (.timeOut i)) = true := hdue
      exact h.take hover rfl hlate
  case h_4 c hstop =>
    apply h.sendSignal _ hs
    intro answer
    rw [← h.supervision] at hstop
    simp only [deadlinesBy, hstop, List.nil_append]
  case h_5 => exact h.take rfl rfl hs
  case h_6 => cases hs

theorem Shows.advanceAny {first : Option TaskId} (h : w.Shows s)
    (hs : s.advanceAny? first = some s') : w.LeadsAtOnce s' := by
  obtain ⟨task, -, htask⟩ := List.exists_of_findSome?_eq_some hs
  cases task with
  | start i => exact h.advanceStart htask
  | stop i => exact h.advanceStop htask

theorem Shows.advanceProcess (h : w.Shows s) : w.LeadsAtOnce s.advanceProcess := by
  have hshown : w.Shows { s with host := s.host.advance } :=
    ⟨h.holder, h.supervision, h.now.trans s.host.clock_advance.symm, h.grace, h.deadlines⟩
  unfold Session.advanceProcess
  dsimp only
  split
  · rename_i child status hended
    cases htake : { s with host := s.host.advance }.take? (.exit child status) with
    | none => exact hshown.atOnce
    | some s' => exact hshown.take rfl rfl htake
  · exact hshown.atOnce

theorem Shows.pass (h : w.Shows s) {t : Nat} (ht : s.host.world.clock ≤ t) :
    w.Leads (s.setClock t) := by
  have hnow : w.now + (t - w.now) = t := by
    have hw := h.now
    omega
  exact ⟨[.pass (t - w.now)], { w with now := t }, by rw [← hnow]; simp [run?, takeSteps?, step?],
    h.holder, h.supervision, rfl, h.grace, h.deadlines⟩

theorem Leads.step (h : w.Leads s) (hstep : ∀ v : Clocked, v.Shows s → v.Leads s') :
    w.Leads s' := by
  obtain ⟨happenings, v, hv, hshows⟩ := h
  obtain ⟨more, u, hu, hshown⟩ := hstep v hshows
  refine ⟨happenings ++ more, u, ?_, hshown⟩
  exact (takeSteps?_append _ _ _).trans (Option.bind_eq_some_iff.mpr ⟨v, hv, hu⟩)

/-- What a session does at once keeps its clock. -/
theorem Leads.stepAtOnce (h : w.Leads s) (hstep : ∀ v : Clocked, v.Shows s → v.LeadsAtOnce s') :
    w.Leads s' ∧ s'.host.world.clock = s.host.world.clock := by
  constructor
  · apply h.step
    intro v hshows
    obtain ⟨happenings, u, hu, hshown, -⟩ := hstep v hshows
    exact ⟨happenings, u, hu, hshown⟩
  · obtain ⟨-, v, -, hshows⟩ := h
    obtain ⟨-, u, -, hshown, hnow⟩ := hstep v hshows
    rw [← hshown.now, hnow, hshows.now]

theorem lt_of_nextTime? {t : Nat} (ht : s.nextTime? = some t) : s.host.world.clock < t := by
  have hmem := List.min?_mem ht
  exact of_decide_eq_true (List.mem_filter.mp hmem).2

/-- A session that waits is never late. -/
theorem between_of_next {limit : Option Nat} {t : Nat}
    (h : (match s.nextTime?, limit with
      | some t, some l => if t < l then some t else none
      | t, _ => t) = some t) : s.host.world.clock < t ∧ ∀ l ∈ limit, t ≤ l := by
  split at h
  · rename_i u l hnext
    split_ifs at h with hlt
    obtain rfl := Option.some.inj h
    refine ⟨lt_of_nextTime? hnext, fun m hm => ?_⟩
    obtain rfl := Option.some.inj hm
    exact Nat.le_of_lt hlt
  · rename_i hlimit
    exact ⟨lt_of_nextTime? h, fun l hl => absurd hl (hlimit t l h)⟩

/-- However long a session goes on, and whatever it waits for, the happenings go on with it. -/
theorem Leads.runUntil {limit : Option Nat} {first : Option TaskId} {holds : Session → Bool}
    (fuel : Nat) (h : w.Leads s) (hlimit : ∀ l ∈ limit, s.host.world.clock ≤ l) :
    w.Leads (Session.runUntil limit first holds fuel s) := by
  induction fuel generalizing s with
  | zero => exact h
  | succ fuel ih =>
    unfold Session.runUntil
    by_cases hholds : holds s = true
    · rw [if_pos hholds]
      exact h
    rw [if_neg hholds]
    cases hany : s.advanceAny? first with
    | some s' =>
      obtain ⟨hleads, hclock⟩ := h.stepAtOnce fun v hv => hv.advanceAny hany
      apply ih hleads
      rw [hclock]
      exact hlimit
    | none =>
      obtain ⟨hleads, hclock⟩ := h.stepAtOnce fun v hv => hv.advanceProcess
      rw [← hclock] at hlimit
      dsimp only
      split_ifs
      · exact ih hleads hlimit
      · split
        · rename_i t hnext
          obtain ⟨hlt, hle⟩ := between_of_next hnext
          apply ih (hleads.step fun v hv => hv.pass (Nat.le_of_lt hlt))
          exact hle
        · apply hleads.step
          intro v hv
          apply hv.pass
          cases limit with
          | none => exact Nat.le_refl _
          | some l => exact hlimit l rfl

theorem Leads.await (h : w.Leads s) (task : TaskId) (first : Bool) :
    w.Leads (s.await task first) := h.runUntil _ nofun

theorem Leads.waitFor (h : w.Leads s) (millis : Nat) (holds : Session → Bool) :
    w.Leads (s.waitFor millis holds).2 := by
  apply h.runUntil
  intro l hl
  obtain rfl := Option.some.inj hl
  exact Nat.le_add_right _ _

theorem Leads.start (h : w.Leads s) : w.Leads s.start.2 :=
  (h.stepAtOnce fun _ hv => hv.take (e := .callStart) rfl rfl rfl).1

theorem Leads.stop (h : w.Leads s) : w.Leads s.stop.2 :=
  (h.stepAtOnce fun _ hv => hv.take (e := .callStop) rfl rfl rfl).1

end Session

theorem leads_new (settings : Config.AppSettings) (host : Host) (grace : Nat) :
    (new settings grace).Leads (.new settings host grace) := by
  have hbegin : (new settings grace).Shows (.new settings { host with world.clock := 0 } grace) :=
    ⟨rfl, rfl, rfl, rfl, rfl⟩
  exact hbegin.pass (Nat.zero_le host.world.clock)

/-- In a session too, no stop returns well before the child that it has found is gone. -/
theorem Leads.gone_of_returned {settings : Config.AppSettings} {grace : Nat} {s : Session}
    (h : (new settings grace).Leads s) {j c : Nat}
    (hstop : s.supervision.stops[j]? = some (.returned (some c) (.ok ()))) :
    ∃ pid status, s.supervision.children[c]? = some ⟨pid, .reaped status, true⟩ ∧
      ∀ stopping, s.supervision.slot ≠ .running c stopping := by
  obtain ⟨happenings, w, hrun, hshows⟩ := h
  rw [← hshows.supervision] at hstop ⊢
  obtain ⟨pid, status, hchild, -, hslot⟩ := Sectioned.gone_of_returned (run?_sections hrun) hstop
  exact ⟨pid, status, hchild, hslot⟩

end Clocked

end Gateway.App
