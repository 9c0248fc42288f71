import Gateway.Proofs.App.Escalation

/-! Whom the signals of a stop reach. A stop takes the process number of its child along when it has
marked it, and signals that number without the lock. The child has the number until it is reaped, by
its start or by somebody else; afterwards the number may be another process's. -/
namespace Gateway.App

namespace Sectioned

/-- Somebody else reaps this child, or its start learns what has become of it. -/
def Reaps (c : Nat) (w : Sectioned) (a : Act) : Prop :=
  a = .free (.collect c) ∨
    ∃ i, a = .free (.reap i) ∧ w.record.supervision.starts[i]? = some (.waiting c)

theorem isReaped_of_does {w w' : Sectioned} {a : Act} (hdoes : Does w a w') (c : Nat) :
    w'.record.supervision.isReaped c = true ↔
      w.record.supervision.isReaped c = true ∨ Reaps c w a := by
  have hother (ha : ∀ e, a ≠ .free e)
      (hsame : w'.record.supervision.isReaped c = w.record.supervision.isReaped c) :
      w'.record.supervision.isReaped c = true ↔
        w.record.supervision.isReaped c = true ∨ Reaps c w a := by
    rw [hsame]
    refine (or_iff_left ?_).symm
    rintro (hcollect | ⟨i, hi, -⟩)
    · exact ha _ hcollect
    · exact ha _ hi
  cases hdoes with
  | free hlocked hparty hstep =>
    obtain ⟨s, hs, rfl⟩ := Option.map_eq_some_iff.mp hstep
    simpa [Reaps] using (Supervision.move_of_step? hs).isReaped_iff
  | spawned => exact hother nofun (Supervision.isReaped_of_launch rfl)
  | busy | launching | clearing | passed | marking | unspawned | occupied | cleared | marked =>
    exact hother nofun rfl

theorem isReaped_iff {w w' : Sectioned} {acts : List Act} (hrun : w.run? acts = some w') (c : Nat) :
    w'.record.supervision.isReaped c = true ↔
      w.record.supervision.isReaped c = true ∨ Takes step? w acts (Reaps c) := by
  refine iff_takes_of_steps (I := fun _ => True)
    (Q := fun v => v.record.supervision.isReaped c = true) (fun _ _ _ _ _ => trivial) ?_ trivial hrun
  exact fun _ _ _ _ hstep => isReaped_of_does (does_of_step? hstep) c

/-- There is one child at most whose process number is taken. -/
theorem unreaped_unique {settings : Config.AppSettings} {acts : List Act} {w : Sectioned}
    (h : (new settings).run? acts = some w) {c d : Nat} {child other : Child}
    (hchild : w.record.supervision.children[c]? = some child)
    (hother : w.record.supervision.children[d]? = some other)
    (hc : child.life.isReaped = false) (hd : other.life.isReaped = false) : c = d := by
  have hlife {life : Life} (hlife : life.isReaped = false) (status : ExitStatus) :
      life ≠ .reaped status := by
    rintro rfl
    cases hlife
  rw [← children_atomic] at hchild hother
  have hslot := (sound_run h).slot_of_unreaped hchild (hlife hc)
  have hslot' := (sound_run h).slot_of_unreaped hother (hlife hd)
  exact (Slot.running.inj (hslot.symm.trans hslot')).1

end Sectioned

namespace Clocked

/-- What is known of a stop that signals. -/
theorem Tracked.of_signal {w w' : Clocked} (h : w.Tracked) {j : Nat} {answer : SignalAnswer}
    (hstep : w.step? (.act (.free (.signal j answer))) = some w') :
    ∃ c pid number, .found (some c) ∈ w.deeds j ∧ w.supervision.pidOf? c = some pid ∧
      w'.deeds j = w.deeds j ++ [.sent w.now pid number answer] := by
  obtain ⟨-, sections, hdoes, rfl⟩ := does_of_step? hstep
  cases hdoes with
  | free hlocked hparty hrecord =>
    obtain ⟨s, hs, rfl⟩ := Option.map_eq_some_iff.mp hrecord
    cases Supervision.move_of_step? hs with
    | @signal _ c _ hstop =>
      obtain ⟨pid, hpid, hdeeds⟩ := (h.of_stop hstop).of_marked
      have hnext := Supervision.nextSignal?_of_marked hstop hpid
      exact ⟨c, pid, _, by simp [hdeeds], hpid, deeds_after_signal w _ hnext⟩
    | @kill _ c _ hstop =>
      obtain ⟨time, pid, late, reply, hoverdue, -, hdeeds⟩ := (h.of_stop hstop).of_overdue
      have hnext := Supervision.nextSignal?_of_overdue hstop hoverdue.pid
      exact ⟨c, pid, _, by simp [hdeeds, asked], hoverdue.pid, deeds_after_signal w _ hnext⟩

/-- In any interleaving every signal goes to the process number of the child that the stop has found in
the slot. The number is no longer this child's exactly if its start or somebody else has reaped it by
then, and nothing keeps them from that while the stop is on its way; until they do, the child is the
only one that is not reaped. -/
theorem signal_targets_found_child {settings : Config.AppSettings} {grace : Nat}
    {happenings : List Happening} {w w' : Clocked}
    (h : (new settings grace).run? happenings = some w) {j : Nat} {answer : SignalAnswer}
    (hsignal : w.step? (.act (.free (.signal j answer))) = some w') :
    ∃ c pid number, .found (some c) ∈ w.deeds j ∧ w.supervision.pidOf? c = some pid ∧
      w'.deeds j = w.deeds j ++ [.sent w.now pid number answer] ∧
      (w.supervision.isReaped c = true ↔ Takes Sectioned.step? (.new settings)
        (happenings.filterMap (·.act?)) (Sectioned.Reaps c)) ∧
      (w.supervision.isReaped c = false → ∀ d other, w.supervision.children[d]? = some other →
        other.life.isReaped = false → d = c) := by
  obtain ⟨c, pid, number, hfound, hpid, hdeeds⟩ := (tracked_run h).of_signal hsignal
  have hrun := run?_sections h
  refine ⟨c, pid, number, hfound, hpid, hdeeds, ?_, ?_⟩
  · have hreaped := Sectioned.isReaped_iff hrun c
    rwa [or_iff_right (by exact nofun)] at hreaped
  · intro hunreaped d other hother hlife
    obtain ⟨child, hchild, -⟩ := Option.map_eq_some_iff.mp hpid
    refine Sectioned.unreaped_unique hrun hother hchild hlife ?_
    simpa [Supervision.isReaped, hchild] using hunreaped

/-- Two stops have found a child, and one of them has asked it to exit. When it is about to use force
and the other to ask, the child has ended and is reaped, and the next one has its process number: both
signals go to a child that neither stop has found. -/
theorem signal_targets_next_child :
    let settings : Config.AppSettings := { enabled := true, command := "app" }
    let before : List Act := [.free .callStart, .free .callStart, .free .callStop, .free .callStop,
      .free (.check 0 (.ok ())), .free (.check 1 (.ok ())), .enter (.start 0), .spawn 0 (.ok 7),
      .occupy 0, .enter (.stop 0), .mark 0, .enter (.stop 1), .mark 1,
      .free (.signal 0 .delivered)]
    let after : List Act := [.free (.exit 0 (.exited 0)), .free (.reap 0), .free (.timeOut 0),
      .enter (.start 0), .clear 0, .free (.announce 0), .enter (.start 1), .spawn 1 (.ok 7),
      .occupy 1, .free (.signal 0 .delivered)]
    let happenings := before.map .act ++ .pass 10 :: after.map .act
    ∃ w w', (new settings 10).run? happenings = some w ∧
      w.step? (.act (.free (.signal 1 .delivered))) = some w' ∧
      w.supervision.children = [⟨7, .reaped (.exited 0), true⟩, ⟨7, .alive, false⟩] ∧
      w.supervision.slot = .running 1 false ∧
      w'.deeds 0 = [.found (some 0), .sent 0 7 15 .delivered, .gaveUp 10, .sent 10 7 9 .delivered] ∧
      w'.deeds 1 = [.found (some 0), .sent 10 7 15 .delivered] ∧
      Takes Sectioned.step? (.new settings) (happenings.filterMap (·.act?)) (Sectioned.Reaps 0) := by
  intro settings before after happenings
  have hends : ((new settings 10).run? happenings).bind (fun w =>
      (w.step? (.act (.free (.signal 1 .delivered)))).map fun w' =>
        (w.supervision.children, w.supervision.slot, w.deeds 1, w'.deeds 0, w'.deeds 1)) =
      some ([⟨7, .reaped (.exited 0), true⟩, ⟨7, .alive, false⟩], .running 1 false,
        [.found (some 0)], [.found (some 0), .sent 0 7 15 .delivered, .gaveUp 10,
          .sent 10 7 9 .delivered], [.found (some 0), .sent 10 7 15 .delivered]) := by
    decide +kernel
  obtain ⟨w, hw, hmap⟩ := Option.bind_eq_some_iff.mp hends
  obtain ⟨w', hw', heq⟩ := Option.map_eq_some_iff.mp hmap
  simp only [Prod.mk.injEq] at heq
  obtain ⟨hchildren, hslot, hbefore, hfirst, hsecond⟩ := heq
  obtain ⟨c, pid, number, hfound, -, -, hreaped, -⟩ := signal_targets_found_child hw hw'
  rw [hbefore, List.mem_singleton] at hfound
  obtain rfl := Option.some.inj (Deed.found.inj hfound)
  have hgone : w.supervision.isReaped 0 = true := by
    unfold Supervision.isReaped
    rw [hchildren]
    rfl
  exact ⟨w, w', hw, hw', hchildren, hslot, hfirst, hsecond, hreaped.mp hgone⟩

end Clocked

end Gateway.App
