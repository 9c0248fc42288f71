import Gateway.Proofs.App.Reaping
import Gateway.Proofs.App.Withdrawal

/-! What becomes of the children in any interleaving of starts and stops. There is one at a time,
and what its start returns tells how it ended and whether a stop had marked it. -/
namespace Gateway.App

namespace Sectioned

def Launches (i c : Nat) (w : Sectioned) (a : Act) : Prop :=
  (∃ pid, a = .spawn i (.ok pid)) ∧ w.record.supervision.children.length = c

/-- A stop marks this child while it holds the slot. -/
def Marks (c : Nat) (w : Sectioned) (a : Act) : Prop :=
  (∃ j, a = .mark j ∧ w.holder = some (.marking j c)) ∧
    ∃ stopping, w.record.supervision.slot = .running c stopping

theorem mem_marks_of_does {w w' : Sectioned} {a : Act}
    (hheld : Held w.record.supervision w.holder) (hdoes : Does w a w') (c : Nat) :
    c ∈ w'.record.marks ↔ c ∈ w.record.marks ∨ Marks c w a := by
  have hother (h : ∀ j, a ≠ .mark j) (heq : w'.record.marks = w.record.marks) :
      c ∈ w'.record.marks ↔ c ∈ w.record.marks ∨ Marks c w a := by
    rw [heq]
    refine (or_iff_left ?_).symm
    rintro ⟨⟨j, hj, -⟩, -⟩
    exact h j hj
  cases hdoes with
  | free hlocked _ hstep =>
    obtain ⟨s, -, rfl⟩ := Option.map_eq_some_iff.mp hstep
    refine hother nofun ?_
    rw [Record.markedBy_of_free _ hlocked]
    exact List.append_nil _
  | @marked j d hholder =>
    have hlast : (w.marked j d).record.marks = w.record.marks ++ [d] := rfl
    rw [hlast, List.mem_append, List.mem_singleton]
    refine or_congr_right ?_
    rw [hholder] at hheld
    cases hheld with
    | marking hstop hslot =>
      constructor
      · rintro rfl
        exact ⟨⟨j, rfl, hholder⟩, _, hslot⟩
      · rintro ⟨⟨k, -, hk⟩, -⟩
        exact (Holder.marking.inj (Option.some.inj (hk.symm.trans hholder))).2
  | busy | launching | clearing | passed | marking | unspawned | spawned | occupied | cleared =>
    exact hother nofun rfl

theorem mem_marks_iff {w w' : Sectioned} {acts : List Act}
    (hheld : Held w.record.supervision w.holder) (hrun : w.run? acts = some w') (c : Nat) :
    c ∈ w'.record.marks ↔ c ∈ w.record.marks ∨ Takes step? w acts (Marks c) := by
  refine iff_takes_of_steps (I := fun v => Held v.record.supervision v.holder)
    (Q := fun v => c ∈ v.record.marks) ?_ ?_ hheld hrun
  · exact fun _ _ _ hv hstep => hv.step (does_of_step? hstep)
  · exact fun _ _ _ hv hstep => mem_marks_of_does hv (does_of_step? hstep) c

theorem launches_of_does {w w' : Sectioned} {a : Act}
    (hlength : w.record.launches.length = w.record.supervision.children.length)
    (hdoes : Does w a w') :
    w'.record.launches.length = w'.record.supervision.children.length ∧
      ∀ c i, w'.record.launches[c]? = some i ↔
        w.record.launches[c]? = some i ∨ Launches i c w a := by
  have hother (h : ∀ i pid, a ≠ .spawn i (.ok pid)) (heq : w'.record.launches = w.record.launches)
      (hlength' : w'.record.supervision.children.length = w.record.supervision.children.length) :
      w'.record.launches.length = w'.record.supervision.children.length ∧
        ∀ c i, w'.record.launches[c]? = some i ↔
          w.record.launches[c]? = some i ∨ Launches i c w a := by
    rw [heq, hlength']
    refine ⟨hlength, fun c i => (or_iff_left ?_).symm⟩
    rintro ⟨⟨pid, ha⟩, -⟩
    exact h i pid ha
  cases hdoes with
  | free hlocked _ hstep =>
    obtain ⟨s, hs, rfl⟩ := Option.map_eq_some_iff.mp hstep
    refine hother nofun ?_ ?_
    · rw [Record.launchedBy_of_free _ hlocked]
      exact List.append_nil _
    · exact (Supervision.move_of_step? hs).length_children hlocked
  | @spawned k pid hholder =>
    have hlaunches : (w.spawned k pid).record.launches = w.record.launches ++ [k] := rfl
    have hchildren : (w.spawned k pid).record.supervision.children =
      w.record.supervision.children ++ [⟨pid, .alive, false⟩] := rfl
    refine ⟨by simp [hlaunches, hchildren, hlength], fun c i => ?_⟩
    rw [hlaunches, Supervision.getElem?_concat]
    split_ifs with hc
    · rw [hc, List.getElem?_eq_none (Nat.le_refl _), or_iff_right nofun]
      constructor
      · rintro heq
        obtain rfl := Option.some.inj heq
        exact ⟨⟨pid, rfl⟩, hlength.symm⟩
      · rintro ⟨⟨pid', heq⟩, -⟩
        exact congrArg some (Act.spawn.inj heq).1
    · refine (or_iff_left ?_).symm
      rintro ⟨-, rfl⟩
      exact hc hlength.symm
  | busy | launching | clearing | passed | marking | unspawned | occupied | cleared | marked =>
    exact hother nofun rfl rfl

theorem launches_iff {w w' : Sectioned} {acts : List Act}
    (hlength : w.record.launches.length = w.record.supervision.children.length)
    (hrun : w.run? acts = some w') (c i : Nat) :
    w'.record.launches[c]? = some i ↔
      w.record.launches[c]? = some i ∨ Takes step? w acts (Launches i c) := by
  refine iff_takes_of_steps
    (I := fun v => v.record.launches.length = v.record.supervision.children.length)
    (Q := fun v => v.record.launches[c]? = some i) ?_ ?_ hlength hrun
  · exact fun _ _ _ hv hstep => (launches_of_does hv (does_of_step? hstep)).1
  · exact fun _ _ _ hv hstep => (launches_of_does hv (does_of_step? hstep)).2 c i

theorem exit_mem {w w' : Sectioned} {acts : List Act} (hrun : w.run? acts = some w') {c : Nat}
    {child' : Child} {status : ExitStatus}
    (hchild' : w'.record.supervision.children[c]? = some child')
    (hstatus : child'.life.status? = some status) :
    .free (.exit c status) ∈ acts ∨ ∃ child, w.record.supervision.children[c]? = some child ∧
      child.life.status? = some status := by
  induction acts generalizing w with
  | nil =>
    obtain rfl := Option.some.inj hrun
    exact .inr ⟨child', hchild', hstatus⟩
  | cons a rest ih =>
    obtain ⟨v, hv, hrest⟩ := Option.bind_eq_some_iff.mp hrun
    rcases ih hrest with hmem | ⟨child, hchild, hlife⟩
    · exact .inl (List.mem_cons_of_mem a hmem)
    · cases does_of_step? hv with
      | free hlocked _ hstep =>
        obtain ⟨s, hs, rfl⟩ := Option.map_eq_some_iff.mp hstep
        rcases (Supervision.move_of_step? hs).status hchild hlife with rfl | hbefore
        · exact .inl List.mem_cons_self
        · exact .inr hbefore
      | @spawned k pid hholder =>
        have hchildren : (w.spawned k pid).record.supervision.children =
          w.record.supervision.children ++ [⟨pid, .alive, false⟩] := rfl
        rw [hchildren, Supervision.getElem?_concat] at hchild
        split_ifs at hchild
        · cases hchild
          cases hlife
        · exact .inr ⟨child, hchild, hlife⟩
      | busy | launching | clearing | passed | marking | unspawned | occupied | cleared | marked =>
        exact .inr ⟨child, hchild, hlife⟩

section Atomic
variable (w : Sectioned)

theorem children_atomic : w.atomic.supervision.children = w.record.supervision.children := by
  unfold atomic
  split <;> rfl

theorem starts_atomic : w.atomic.supervision.starts = w.record.supervision.starts := by
  unfold atomic
  split <;> rfl

theorem launches_atomic : w.atomic.launches = w.record.launches := by
  unfold atomic
  split <;> rfl

theorem marks_atomic : w.atomic.marks = w.record.marks := by
  unfold atomic
  split <;> rfl

end Atomic

/-- While a child is launched the slot is still idle. -/
theorem slot_atomic {settings : Config.AppSettings} {acts : List Act} {w : Sectioned}
    (h : (new settings).run? acts = some w) {c : Nat} {stopping : Bool}
    (hslot : w.record.supervision.slot = .running c stopping) :
    w.atomic.supervision.slot = .running c stopping := by
  have hheld := held_run h
  unfold atomic
  split
  · rename_i i d hholder
    rw [hholder] at hheld
    cases hheld with
    | occupying hstart hidle => exact nomatch hslot.symm.trans hidle
  · exact hslot

/-- A start that has returned does not hold the lock. -/
theorem withdraw_of_returned {settings : Config.AppSettings} {acts : List Act} {w : Sectioned}
    (h : (new settings).run? acts = some w) {i : Nat} {result : Except SupervisorError Unit}
    (hstart : w.record.supervision.starts[i]? = some (.returned result)) :
    w.withdraw i = w.setStart i .called := by
  have hheld := held_run h
  obtain ⟨r, holder⟩ := w
  have hother {k : Nat} {p : StartPhase} (hk : r.supervision.starts[k]? = some p)
      (hp : ∀ result, p ≠ .returned result) : Party.start k ≠ .start i := by
    rintro heq
    obtain rfl := Party.start.inj heq
    exact hp result (Option.some.inj (hk.symm.trans hstart))
  cases hheld with
  | none => rfl
  | launching hphase => exact withdraw_other_holder r (hother hphase nofun)
  | occupying hphase => exact withdraw_other_holder r (hother hphase nofun)
  | clearing hphase => exact withdraw_other_holder r (hother hphase nofun)
  | marking => exact withdraw_other_holder r nofun

theorem missed_iff {settings : Config.AppSettings} {acts : List Act} {w : Sectioned}
    (h : (new settings).run? acts = some w) (c : Nat) :
    w.atomic.Missed c ↔ .free (.collect c) ∈ acts := by
  obtain ⟨steps, hsteps, hfree⟩ := atomic_run .none h
  rw [(Record.sound_new settings).missed_run hsteps c, hfree _ rfl]
  refine or_iff_right ?_
  rintro ⟨i, p, hlaunch, -⟩
  cases hlaunch

/-- What a start that has launched a child knows of the child's end, and returns. -/
theorem result_of_launches {settings : Config.AppSettings} {acts : List Act} {w : Sectioned}
    (h : (new settings).run? acts = some w) {i c : Nat} {result : Except SupervisorError Unit}
    (hlaunches : Takes step? (new settings) acts (Launches i c))
    (hstart : w.record.supervision.starts[i]? = some (.returned result)) :
    ∃ status, ∃ known : Option ExitStatus, .free (.exit c status) ∈ acts ∧
      (known = none ↔ .free (.collect c) ∈ acts) ∧ (∀ st ∈ known, st = status) ∧
      result = Supervision.resultOf known (decide (c ∈ w.record.marks)) := by
  have hlaunch : w.atomic.launches[c]? = some i := by
    rw [w.launches_atomic]
    exact (launches_iff rfl h c i).mpr (.inr hlaunches)
  rw [← w.starts_atomic] at hstart
  obtain ⟨pid, status, hchild, known, hknown, hresult⟩ := (sound_run h).result hlaunch hstart
  rw [w.children_atomic] at hchild
  refine ⟨status, known, ?_, ?_, hknown, ?_⟩
  · rcases exit_mem h hchild rfl with hmem | ⟨child, hnone, -⟩
    · exact hmem
    · cases hnone
  · rw [← missed_iff h c, Record.missed_iff hlaunch hstart, hresult,
      StartPhase.misses_resultOf, Option.isNone_iff_eq_none]
  · rw [← w.marks_atomic]
    exact hresult

/-- In any interleaving of starts, stops, ends of children and failures to wait for them: at most one
child is not reaped; a start that fails before it has a child leaves everything as if it were still
to begin; a start that has launched a child fails to wait for it if and only if somebody else has
reaped the child, and otherwise returns what the child's end and the stops that marked it make of it;
and a mark is seen for the marked child only. -/
theorem one_child_and_its_result {settings : Config.AppSettings} {acts : List Act} {w : Sectioned}
    (h : (new settings).run? acts = some w) :
    (∀ c d : Nat, ∀ child child' : Child, w.record.supervision.children[c]? = some child →
      w.record.supervision.children[d]? = some child' → (∀ status, child.life ≠ .reaped status) →
      (∀ status, child'.life ≠ .reaped status) → c = d) ∧
    (∀ i error, w.record.supervision.starts[i]? = some (.returned (.error error)) →
      (∀ status, error ≠ .exited status) → error ≠ .wait →
      (new settings).run? (acts.filter (·.party? ≠ some (.start i))) =
        some (w.setStart i .called)) ∧
    (∀ i c result, Takes step? (new settings) acts (Launches i c) →
      w.record.supervision.starts[i]? = some (.returned result) →
      ∃ status, .free (.exit c status) ∈ acts ∧
        (result = .error .wait ↔ .free (.collect c) ∈ acts) ∧
        (.free (.collect c) ∉ acts →
          (result = .ok () ↔
            status.isSuccess = true ∨ Takes step? (new settings) acts (Marks c)) ∧
          (result = .ok () ∨ result = .error (.exited status)))) ∧
    (∀ c stopping, w.record.supervision.slot = .running c stopping →
      (stopping = true ↔ Takes step? (new settings) acts (Marks c))) := by
  have hsound := sound_run h
  have hmarks (c : Nat) : c ∈ w.record.marks ↔ Takes step? (new settings) acts (Marks c) := by
    rw [mem_marks_iff .none h c]
    exact or_iff_right List.not_mem_nil
  refine ⟨fun c d child child' hchild hchild' hlife hlife' => ?_,
    fun i error hstart hexited hwait => ?_, fun i c result hlaunches hstart => ?_,
    fun c stopping hslot => ?_⟩
  · rw [← w.children_atomic] at hchild hchild'
    have hc := hsound.slot_of_unreaped hchild hlife
    have hd := hsound.slot_of_unreaped hchild' hlife'
    exact (Slot.running.inj (hc.symm.trans hd)).1
  · have hapart : ∀ p ∈ w.record.supervision.starts[i]?, p.isApart = true := by
      intro p hp
      obtain rfl := Option.some.inj (hp.symm.trans hstart)
      cases error with
      | exited status => exact absurd rfl (hexited status)
      | wait => exact absurd rfl hwait
      | _ => rfl
    obtain ⟨-, hrun⟩ := run?_withdraw .none h hapart
    rw [withdraw_of_returned h hstart] at hrun
    exact hrun
  · obtain ⟨status, known, hexit, hmissed, hknown, hresult⟩ :=
      result_of_launches h hlaunches hstart
    refine ⟨status, hexit, ?_, fun huncollected => ?_⟩
    · rw [← hmissed, hresult]
      exact Supervision.resultOf_eq_wait
    · obtain ⟨st, rfl⟩ := Option.ne_none_iff_exists'.mp (mt hmissed.mp huncollected)
      obtain rfl := hknown st rfl
      rw [← hmarks, hresult]
      unfold Supervision.resultOf Supervision.isClean
      dsimp only
      split_ifs with hclean
      · exact ⟨iff_of_true rfl (by simpa using hclean), .inl rfl⟩
      · exact ⟨iff_of_false nofun (by simpa using hclean), .inr rfl⟩
  · rw [← hmarks, ← w.marks_atomic]
    exact hsound.stopping_iff (slot_atomic h hslot)

/-- The first child is marked before it ends, a second start comes while it runs, and a third one
launches a child that ends in the same way and is not marked. The child of a fourth start ends well
and is reaped by somebody else. -/
theorem one_child_and_its_result_of_four_starts :
    let settings : Config.AppSettings := { enabled := true, command := "app" }
    let acts : List Act := [.free .callStart, .free .callStart, .free .callStart, .free .callStop,
      .free (.check 0 (.ok ())), .free (.check 1 (.ok ())), .free (.check 2 (.ok ())),
      .enter (.start 0), .spawn 0 (.ok 7), .occupy 0, .enter (.start 1), .enter (.stop 0),
      .free (.exit 0 (.exited 3)), .mark 0, .free (.reap 0), .free (.signal 0 .noSuchProcess),
      .enter (.start 0), .clear 0, .enter (.start 2), .free (.announce 0), .spawn 2 (.ok 7),
      .free (.exit 1 (.exited 3)), .occupy 2, .free (.reap 2), .enter (.start 2), .clear 2,
      .free (.announce 2), .free .callStart, .free (.check 3 (.ok ())), .enter (.start 3),
      .spawn 3 (.ok 7), .occupy 3, .free (.exit 2 (.exited 0)), .free (.collect 2), .free (.reap 3),
      .enter (.start 3), .clear 3, .free (.announce 3)]
    ∃ w, (new settings).run? acts = some w ∧
      (new settings).run? (acts.filter (·.party? ≠ some (.start 1))) = some (w.setStart 1 .called) ∧
      Takes step? (new settings) acts (Marks 0) ∧ ¬ Takes step? (new settings) acts (Marks 1) ∧
      w.record.supervision.starts[3]? = some (.returned (.error .wait)) := by
  intro settings acts
  have hrun : ((new settings).run? acts).isSome = true := by decide +kernel
  obtain ⟨w, hw⟩ := Option.isSome_iff_exists.mp hrun
  have hresult (i : Nat) (result : Except SupervisorError Unit)
      (h : (((new settings).run? acts).bind fun w =>
        w.record.supervision.starts[i]?.bind (·.result?)) = some result) :
      w.record.supervision.starts[i]? = some (.returned result) := by
    rw [hw] at h
    exact Supervision.starts_of_result? h
  have hzero := hresult 0 (.ok ()) (by decide +kernel)
  have hone := hresult 1 (.error .alreadyRunning) (by decide +kernel)
  obtain ⟨result, hreturned⟩ : ∃ result, (((new settings).run? acts).bind fun w =>
      w.record.supervision.starts[3]?.bind (·.result?)) = some result :=
    Option.isSome_iff_exists.mp (by decide +kernel)
  have hthree := hresult 3 result hreturned
  have htwo := hresult 2 (.error (.exited (.exited 3))) (by decide +kernel)
  have hlaunches (n i c : Nat)
      (hn : acts = acts.take n ++ .spawn i (.ok 7) :: acts.drop (n + 1))
      (hc : (((new settings).run? (acts.take n)).map fun w =>
        w.record.supervision.children.length) = some c) :
      Takes step? (new settings) acts (Launches i c) := by
    obtain ⟨v, hv, hlength⟩ := Option.map_eq_some_iff.mp hc
    exact ⟨acts.take n, _, acts.drop (n + 1), v, hn, hv, ⟨7, rfl⟩, hlength⟩
  obtain ⟨-, hwithdraw, hresults, -⟩ := one_child_and_its_result hw
  obtain ⟨status, hexit, -, hzeros⟩ :=
    hresults 0 0 _ (hlaunches 8 0 0 rfl (by decide +kernel)) hzero
  obtain ⟨_, -, -, hones⟩ := hresults 2 1 _ (hlaunches 20 2 1 rfl (by decide +kernel)) htwo
  obtain ⟨_, -, hwait, -⟩ := hresults 3 2 _ (hlaunches 30 3 2 rfl (by decide +kernel)) hthree
  refine ⟨w, hw, hwithdraw 1 _ hone nofun nofun, ?_, ?_, ?_⟩
  · have hstatus : status = .exited 3 := by simpa [acts] using hexit
    rcases (hzeros (by simp [acts])).1.mp rfl with hsuccess | hmarked
    · exact absurd hsuccess (by rw [hstatus]; decide)
    · exact hmarked
  · intro hmarked
    exact nomatch (hones (by simp [acts])).1.mpr (.inr hmarked)
  · rw [hthree, hwait.mpr (by simp [acts])]

end Sectioned

end Gateway.App
