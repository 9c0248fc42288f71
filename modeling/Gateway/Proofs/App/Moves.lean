import Gateway.Proofs.App.Runs

/-! Everything that one step of a start, of a stop or of the world can do. -/
namespace Gateway.App

/-- Whether a stop has asked for the end of what runs. -/
def Slot.isStopping : Slot → Bool
  | running _ stopping => stopping
  | idle => false

def Life.status? : Life → Option ExitStatus
  | alive => none
  | dead status | reaped status => some status

inductive Party where
  | start (i : Nat)
  | stop (j : Nat)
  deriving DecidableEq

def Step.party? : Step → Option Party
  | check i _ | launch i _ | reap i | release i | announce i => some (.start i)
  | mark j | signal j _ | timeOut j | notice j => some (.stop j)
  | callStart | callStop | exit _ _ | collect _ => none

def Step.isLocked : Step → Bool
  | launch .. | release _ | mark _ => true
  | _ => false

namespace Supervision

section Parts
variable (s : Supervision) (i pid c : Nat) (p : StartPhase) (q : StopPhase) (f : Child → Child)

@[simp] theorem slot_setStart : (s.setStart i p).slot = s.slot := rfl
@[simp] theorem children_setStart : (s.setStart i p).children = s.children := rfl
@[simp] theorem starts_setStart : (s.setStart i p).starts = s.starts.set i p := rfl
@[simp] theorem stops_setStart : (s.setStart i p).stops = s.stops := rfl
@[simp] theorem slot_setStop : (s.setStop i q).slot = s.slot := rfl
@[simp] theorem children_setStop : (s.setStop i q).children = s.children := rfl
@[simp] theorem starts_setStop : (s.setStop i q).starts = s.starts := rfl
@[simp] theorem stops_setStop : (s.setStop i q).stops = s.stops.set i q := rfl
@[simp] theorem slot_changeChild : (s.changeChild c f).slot = s.slot := rfl
@[simp] theorem children_changeChild : (s.changeChild c f).children = s.children.modify c f := rfl
@[simp] theorem starts_changeChild : (s.changeChild c f).starts = s.starts := rfl
@[simp] theorem stops_changeChild : (s.changeChild c f).stops = s.stops := rfl

@[simp] theorem children_launched :
    (s.launched i pid).children = s.children ++ [⟨pid, .alive, false⟩] := rfl

@[simp] theorem starts_launched :
    (s.launched i pid).starts = s.starts.set i (.waiting s.children.length) := rfl

@[simp] theorem slot_launched : (s.launched i pid).slot = .running s.children.length false := rfl

end Parts

theorem getElem?_kept {α : Type} {l : List α} {i : Nat} {a : α} (h : l[i]? = some a) (k : Nat) :
    l[k]? = if k = i then some a else l[k]? := by
  split
  · rename_i hk
    rw [hk, h]
  · rfl

theorem getElem?_concat {α : Type} (l : List α) (a : α) (k : Nat) :
    (l ++ [a])[k]? = if k = l.length then some a else l[k]? := by
  split
  · rename_i hk
    rw [hk, List.getElem?_concat_length]
  · rename_i hk
    rcases Nat.lt_or_gt_of_ne hk with hlt | hgt
    · exact List.getElem?_append_left hlt
    · have hle := Nat.le_of_lt hgt
      rw [List.getElem?_append_right hle, List.getElem?_eq_none hle]
      exact List.getElem?_eq_none (by rw [List.length_singleton]; omega)

theorem getElem?_set_start {s : Supervision} {i : Nat} {p : StartPhase} (q : StartPhase)
    (h : s.starts[i]? = some p) (k : Nat) :
    (s.starts.set i q)[k]? = if k = i then some q else s.starts[k]? := by
  obtain ⟨hlt, -⟩ := List.getElem?_eq_some_iff.mp h
  rw [List.getElem?_set]
  by_cases hk : k = i
  · rw [if_pos hk.symm, if_pos hk, if_pos hlt]
  · rw [if_neg (Ne.symm hk), if_neg hk]

theorem getElem?_modify_child {s : Supervision} {c : Nat} {child : Child} (f : Child → Child)
    (h : s.children[c]? = some child) (d : Nat) :
    (s.children.modify c f)[d]? = if d = c then some (f child) else s.children[d]? := by
  split
  · rename_i hd
    rw [hd, List.getElem?_modify_eq, h]
    rfl
  · rename_i hd
    exact List.getElem?_modify_ne f _ (Ne.symm hd)

inductive Move (s : Supervision) : Step → Supervision → Prop
  | callStart : Move s .callStart { s with starts := s.starts ++ [.called] }
  | callStop : Move s .callStop { s with stops := s.stops ++ [.called] }
  | fit {i : Nat} {directory : Except FileError Unit} {command : Command}
      (hstart : s.starts[i]? = some .called)
      (hchecked : checked s.settings directory = .ok command) :
    Move s (.check i directory) (s.setStart i (.ready command))
  | unfit {i : Nat} {directory : Except FileError Unit} {error : SupervisorError}
      (hstart : s.starts[i]? = some .called)
      (hchecked : checked s.settings directory = .error error) :
    Move s (.check i directory) (s.setStart i (.returned (.error error)))
  | busy {i c : Nat} {stopping : Bool} {command : Command} {answer : Except SpawnError Nat}
      (hstart : s.starts[i]? = some (.ready command)) (hslot : s.slot = .running c stopping) :
    Move s (.launch i answer) (s.setStart i (.returned (.error .alreadyRunning)))
  | unlaunched {i : Nat} {command : Command} {error : SpawnError}
      (hstart : s.starts[i]? = some (.ready command)) (hslot : s.slot = .idle) :
    Move s (.launch i (.error error)) (s.setStart i (.returned (.error (.spawn error))))
  | launched {i pid : Nat} {command : Command}
      (hstart : s.starts[i]? = some (.ready command)) (hslot : s.slot = .idle) :
    Move s (.launch i (.ok pid)) (s.launched i pid)
  | exit {c pid : Nat} {announced : Bool} {status : ExitStatus}
      (hchild : s.children[c]? = some ⟨pid, .alive, announced⟩) :
    Move s (.exit c status) (s.changeChild c ({ · with life := .dead status }))
  | collect {c pid : Nat} {announced : Bool} {status : ExitStatus}
      (hchild : s.children[c]? = some ⟨pid, .dead status, announced⟩) :
    Move s (.collect c) (s.changeChild c ({ · with life := .reaped status }))
  | reap {i c pid : Nat} {announced : Bool} {status : ExitStatus}
      (hstart : s.starts[i]? = some (.waiting c))
      (hchild : s.children[c]? = some ⟨pid, .dead status, announced⟩) :
    Move s (.reap i)
      ((s.changeChild c ({ · with life := .reaped status })).setStart i (.reaped c (some status)))
  | missed {i c pid : Nat} {announced : Bool} {status : ExitStatus}
      (hstart : s.starts[i]? = some (.waiting c))
      (hchild : s.children[c]? = some ⟨pid, .reaped status, announced⟩) :
    Move s (.reap i) (s.setStart i (.reaped c none))
  | release {i c : Nat} {status : Option ExitStatus} (hstart : s.starts[i]? = some (.reaped c status)) :
    Move s (.release i)
      { s.setStart i (.released c status s.slot.isStopping) with slot := .idle }
  | announce {i c : Nat} {status : Option ExitStatus} {stopping : Bool}
      (hstart : s.starts[i]? = some (.released c status stopping)) :
    Move s (.announce i)
      { (s.changeChild c ({ · with announced := true })).setStart i
          (.returned (resultOf status stopping)) with
        metrics := countExit s.metrics status stopping }
  | passed {j : Nat} (hstop : s.stops[j]? = some .called) (hslot : s.slot = .idle) :
    Move s (.mark j) (s.setStop j (.returned none (.ok ())))
  | marked {j c : Nat} {stopping : Bool} (hstop : s.stops[j]? = some .called)
      (hslot : s.slot = .running c stopping) :
    Move s (.mark j) { s.setStop j (.marked c) with slot := .running c true }
  | signal {j c : Nat} {answer : SignalAnswer} (hstop : s.stops[j]? = some (.marked c)) :
    Move s (.signal j answer) (s.setStop j (step?.after c (.signalled c) answer))
  | kill {j c : Nat} {answer : SignalAnswer} (hstop : s.stops[j]? = some (.overdue c)) :
    Move s (.signal j answer) (s.setStop j (step?.after c (.killed c) answer))
  | timeOut {j c : Nat} (hstop : s.stops[j]? = some (.signalled c)) :
    Move s (.timeOut j) (s.setStop j (.overdue c))
  | notice {j c : Nat} {p : StopPhase} (hstop : s.stops[j]? = some p)
      (hp : p = .signalled c ∨ p = .killed c)
      (hannounced : (s.children[c]?).any (·.announced) = true) :
    Move s (.notice j) (s.setStop j (.returned (some c) (.ok ())))

theorem move_of_step? {s s' : Supervision} {e : Step} (h : s.step? e = some s') :
    Move s e s' := by
  cases e with
  | callStart =>
    obtain rfl := Option.some.inj h
    exact .callStart
  | callStop =>
    obtain rfl := Option.some.inj h
    exact .callStop
  | check i directory =>
    simp only [step?] at h
    split at h
    · split at h
      · obtain rfl := Option.some.inj h
        exact .fit ‹_› ‹_›
      · obtain rfl := Option.some.inj h
        exact .unfit ‹_› ‹_›
    · cases h
  | launch i answer =>
    simp only [step?] at h
    split at h
    · split at h
      · obtain rfl := Option.some.inj h
        exact .busy ‹_› ‹_›
      · obtain rfl := Option.some.inj h
        exact .unlaunched ‹_› ‹_›
      · obtain rfl := Option.some.inj h
        exact .launched ‹_› ‹_›
    · cases h
  | exit c status =>
    simp only [step?] at h
    split at h
    · obtain rfl := Option.some.inj h
      exact .exit ‹_›
    · cases h
  | collect c =>
    simp only [step?] at h
    split at h
    · obtain rfl := Option.some.inj h
      exact .collect ‹_›
    · cases h
  | reap i =>
    simp only [step?] at h
    split at h
    · split at h
      · obtain rfl := Option.some.inj h
        exact .reap ‹_› ‹_›
      · obtain rfl := Option.some.inj h
        exact .missed ‹_› ‹_›
      · cases h
    · cases h
  | release i =>
    simp only [step?] at h
    split at h
    · obtain rfl := Option.some.inj h
      exact .release ‹_›
    · cases h
  | announce i =>
    simp only [step?] at h
    split at h
    · obtain rfl := Option.some.inj h
      exact .announce ‹_›
    · cases h
  | mark j =>
    simp only [step?] at h
    split at h
    · split at h
      · obtain rfl := Option.some.inj h
        exact .passed ‹_› ‹_›
      · obtain rfl := Option.some.inj h
        exact .marked ‹_› ‹_›
    · cases h
  | signal j answer =>
    simp only [step?] at h
    split at h
    · obtain rfl := Option.some.inj h
      exact .signal ‹_›
    · obtain rfl := Option.some.inj h
      exact .kill ‹_›
    · cases h
  | timeOut j =>
    simp only [step?] at h
    split at h
    · obtain rfl := Option.some.inj h
      exact .timeOut ‹_›
    · cases h
  | notice j =>
    simp only [step?] at h
    split at h
    · split at h
      · obtain rfl := Option.some.inj h
        exact .notice ‹_› (.inl rfl) ‹_›
      · cases h
    · split at h
      · obtain rfl := Option.some.inj h
        exact .notice ‹_› (.inr rfl) ‹_›
      · cases h
    · cases h

theorem Move.step?_eq {s s' : Supervision} {e : Step} (h : Move s e s') : s.step? e = some s' := by
  cases h with
  | callStart | callStop => rfl
  | fit hstart hchecked | unfit hstart hchecked => simp only [step?, hstart, hchecked]
  | busy hstart hslot => simp only [step?, hstart, hslot]
  | unlaunched hstart hslot | launched hstart hslot => simp only [step?, hstart, hslot]
  | exit hchild | collect hchild => simp only [step?, hchild]
  | reap hstart hchild | missed hstart hchild => simp only [step?, hstart, hchild]
  | release hstart | announce hstart => simp only [step?, hstart]; rfl
  | passed hstop hslot | marked hstop hslot => simp only [step?, hstop, hslot]
  | signal hstop | kill hstop | timeOut hstop => simp only [step?, hstop]
  | notice hstop hp hannounced =>
    rcases hp with rfl | rfl
    · simp only [step?, hstop, hannounced, if_true]
    · simp only [step?, hstop, hannounced, if_true]

/-- A start stays where it is while others take steps. -/
theorem starts_of_step? {s s' : Supervision} {e : Step} {i : Nat} {p : StartPhase}
    (h : s.step? e = some s') (he : e.party? ≠ some (.start i)) (hi : s.starts[i]? = some p) :
    s'.starts[i]? = some p := by
  have hset (k : Nat) (q : StartPhase) (hk : Step.party? e = some (.start k)) :
      (s.starts.set k q)[i]? = some p := by
    rw [List.getElem?_set_ne, hi]
    rintro rfl
    exact he hk
  cases move_of_step? h with
  | callStart =>
    obtain ⟨hlt, -⟩ := List.getElem?_eq_some_iff.mp hi
    exact (List.getElem?_append_left hlt).trans hi
  | fit => exact hset _ _ rfl
  | unfit => exact hset _ _ rfl
  | busy => exact hset _ _ rfl
  | unlaunched => exact hset _ _ rfl
  | launched => exact hset _ _ rfl
  | reap => exact hset _ _ rfl
  | missed => exact hset _ _ rfl
  | release => exact hset _ _ rfl
  | announce => exact hset _ _ rfl
  | callStop | exit | collect | passed | marked | signal | kill | timeOut | notice => exact hi

theorem stops_of_step? {s s' : Supervision} {e : Step} {j : Nat} {p : StopPhase}
    (h : s.step? e = some s') (he : e.party? ≠ some (.stop j)) (hj : s.stops[j]? = some p) :
    s'.stops[j]? = some p := by
  have hset (k : Nat) (q : StopPhase) (hk : Step.party? e = some (.stop k)) :
      (s.stops.set k q)[j]? = some p := by
    rw [List.getElem?_set_ne, hj]
    rintro rfl
    exact he hk
  cases move_of_step? h with
  | callStop =>
    obtain ⟨hlt, -⟩ := List.getElem?_eq_some_iff.mp hj
    exact (List.getElem?_append_left hlt).trans hj
  | passed => exact hset _ _ rfl
  | marked => exact hset _ _ rfl
  | signal => exact hset _ _ rfl
  | kill => exact hset _ _ rfl
  | timeOut => exact hset _ _ rfl
  | notice => exact hset _ _ rfl
  | callStart | fit | unfit | busy | unlaunched | launched | exit | collect | reap | missed
  | release | announce => exact hj

/-- A process that has ended has ended with this step or before. -/
theorem Move.status {s s' : Supervision} {e : Step} (h : Move s e s') {c : Nat} {child' : Child}
    {status : ExitStatus} (hchild' : s'.children[c]? = some child')
    (hstatus : child'.life.status? = some status) :
    e = .exit c status ∨
      ∃ child, s.children[c]? = some child ∧ child.life.status? = some status := by
  have hreaped {d pid : Nat} {announced : Bool} {status' : ExitStatus}
      (hchild : s.children[d]? = some ⟨pid, .dead status', announced⟩)
      (hmodify : (s.children.modify d ({ · with life := .reaped status' }))[c]? = some child') :
      ∃ child, s.children[c]? = some child ∧ child.life.status? = some status := by
    rw [getElem?_modify_child _ hchild] at hmodify
    split at hmodify
    · rename_i hd
      cases hmodify
      exact ⟨⟨pid, .dead status', announced⟩, hd ▸ hchild, hstatus⟩
    · exact ⟨child', hmodify, hstatus⟩
  cases h with
  | @launched i pid command hstart hslot =>
    refine .inr ?_
    rw [children_launched, List.getElem?_append] at hchild'
    split at hchild'
    · exact ⟨child', hchild', hstatus⟩
    · obtain rfl := List.mem_singleton.mp (List.mem_of_getElem? hchild')
      cases hstatus
  | @exit d pid announced status' hchild =>
    rw [children_changeChild, getElem?_modify_child _ hchild] at hchild'
    split at hchild'
    · rename_i hd
      cases hchild'
      cases hstatus
      exact .inl (by rw [hd])
    · exact .inr ⟨child', hchild', hstatus⟩
  | collect hchild => exact .inr (hreaped hchild hchild')
  | reap hstart hchild => exact .inr (hreaped hchild hchild')
  | @announce i d status' stopping hstart =>
    refine .inr ?_
    have hmodify : (s.children.modify d ({ · with announced := true }))[c]? = some child' := hchild'
    rw [List.getElem?_modify] at hmodify
    obtain ⟨child, hchild, rfl⟩ := Option.map_eq_some_iff.mp hmodify
    refine ⟨child, hchild, ?_⟩
    split at hstatus
    · exact hstatus
    · exact hstatus
  | callStart | callStop | fit | unfit | busy | unlaunched | missed | release | passed | marked
  | signal | kill | timeOut | notice => exact .inr ⟨child', hchild', hstatus⟩

theorem starts_of_result? {s : Supervision} {i : Nat} {result : Except SupervisorError Unit}
    (h : s.starts[i]?.bind (·.result?) = some result) :
    s.starts[i]? = some (.returned result) := by
  obtain ⟨p, hp, hresult⟩ := Option.bind_eq_some_iff.mp h
  cases p <;> cases hresult
  exact hp

/-- Without the lock nobody looks at the slot or changes it. -/
theorem Move.setSlot {s s' : Supervision} {e : Step} (h : Move s e s') (he : e.isLocked = false)
    (slot : Slot) : s'.slot = s.slot ∧ Move { s with slot } e { s' with slot } := by
  cases h with
  | callStart => exact ⟨rfl, .callStart⟩
  | callStop => exact ⟨rfl, .callStop⟩
  | fit hstart hchecked => exact ⟨rfl, .fit (s := { s with slot }) hstart hchecked⟩
  | unfit hstart hchecked => exact ⟨rfl, .unfit (s := { s with slot }) hstart hchecked⟩
  | exit hchild => exact ⟨rfl, .exit (s := { s with slot }) hchild⟩
  | collect hchild => exact ⟨rfl, .collect (s := { s with slot }) hchild⟩
  | reap hstart hchild => exact ⟨rfl, .reap (s := { s with slot }) hstart hchild⟩
  | missed hstart hchild => exact ⟨rfl, .missed (s := { s with slot }) hstart hchild⟩
  | announce hstart => exact ⟨rfl, .announce (s := { s with slot }) hstart⟩
  | signal hstop => exact ⟨rfl, .signal (s := { s with slot }) hstop⟩
  | kill hstop => exact ⟨rfl, .kill (s := { s with slot }) hstop⟩
  | timeOut hstop => exact ⟨rfl, .timeOut (s := { s with slot }) hstop⟩
  | notice hstop hp hannounced =>
    exact ⟨rfl, .notice (s := { s with slot }) hstop hp hannounced⟩
  | busy | unlaunched | launched | release | passed | marked => cases he

theorem Move.length_children {s s' : Supervision} {e : Step} (h : Move s e s')
    (he : e.isLocked = false) : s'.children.length = s.children.length := by
  cases h with
  | exit | collect | reap | announce => exact List.length_modify ..
  | callStart | callStop | fit | unfit | missed | signal | kill | timeOut | notice => rfl
  | busy | unlaunched | launched | release | passed | marked => cases he

theorem getElem?_starts_setStart_ne (s : Supervision) {i k : Nat} (p : StartPhase) (h : k ≠ i) :
    (s.setStart i p).starts[k]? = s.starts[k]? := List.getElem?_set_ne (Ne.symm h)

theorem set_concat_called (ps : List StartPhase) (i : Nat) :
    (ps ++ [StartPhase.called]).set i .called = ps.set i .called ++ [.called] := by
  rw [List.set_append]
  split
  · rfl
  · rename_i hi
    rw [List.set_eq_of_length_le (Nat.le_of_not_lt hi)]
    cases i - ps.length <;> rfl

/-- The others take the same steps if a start is put back to its call. -/
theorem Move.reset {s s' : Supervision} {e : Step} {i : Nat} (h : Move s e s')
    (he : e.party? ≠ some (.start i)) :
    Move (s.setStart i .called) e (s'.setStart i .called) := by
  have hne (k : Nat) (hk : e.party? = some (.start k)) : k ≠ i := by
    rintro rfl
    exact he hk
  have hkept (k : Nat) (p : StartPhase) (hk : e.party? = some (.start k))
      (hp : s.starts[k]? = some p) : (s.setStart i .called).starts[k]? = some p :=
    (s.getElem?_starts_setStart_ne _ (hne k hk)).trans hp
  have hcomm (k : Nat) (p : StartPhase) (hk : e.party? = some (.start k)) :
      (s.starts.set k p).set i .called = (s.starts.set i .called).set k p :=
    List.set_comm _ _ (hne k hk)
  -- the start that moves is another one, so it moves as it does without the call
  cases h with
  | callStart =>
    have hmove : Move (s.setStart i .called) .callStart _ := .callStart
    rw [starts_setStart, ← set_concat_called] at hmove
    exact hmove
  | callStop => exact .callStop (s := s.setStart i .called)
  | fit hstart hchecked =>
    have hmove := Move.fit (s := s.setStart i .called) (hkept _ _ rfl hstart) hchecked
    unfold setStart at hmove ⊢
    rwa [hcomm _ _ rfl]
  | unfit hstart hchecked =>
    have hmove := Move.unfit (s := s.setStart i .called) (hkept _ _ rfl hstart) hchecked
    unfold setStart at hmove ⊢
    rwa [hcomm _ _ rfl]
  | @busy k c stopping command answer hstart hslot =>
    have hmove : Move (s.setStart i .called) (.launch k answer) _ :=
      .busy (hkept _ _ rfl hstart) hslot
    unfold setStart at hmove ⊢
    rwa [hcomm _ _ rfl]
  | @unlaunched k command error hstart hslot =>
    have hmove : Move (s.setStart i .called) (.launch k (.error error)) _ :=
      .unlaunched (hkept _ _ rfl hstart) hslot
    unfold setStart at hmove ⊢
    rwa [hcomm _ _ rfl]
  | @launched k pid command hstart hslot =>
    have hmove : Move (s.setStart i .called) (.launch k (.ok pid)) _ :=
      .launched (hkept _ _ rfl hstart) hslot
    unfold Supervision.launched setStart at hmove ⊢
    rwa [hcomm _ _ rfl]
  | exit hchild => exact .exit (s := s.setStart i .called) hchild
  | collect hchild => exact .collect (s := s.setStart i .called) hchild
  | reap hstart hchild =>
    have hmove := Move.reap (s := s.setStart i .called) (hkept _ _ rfl hstart) hchild
    unfold setStart changeChild at hmove ⊢
    rwa [hcomm _ _ rfl]
  | missed hstart hchild =>
    have hmove := Move.missed (s := s.setStart i .called) (hkept _ _ rfl hstart) hchild
    unfold setStart at hmove ⊢
    rwa [hcomm _ _ rfl]
  | release hstart =>
    have hmove := Move.release (s := s.setStart i .called) (hkept _ _ rfl hstart)
    unfold setStart at hmove ⊢
    rwa [hcomm _ _ rfl]
  | announce hstart =>
    have hmove := Move.announce (s := s.setStart i .called) (hkept _ _ rfl hstart)
    unfold setStart changeChild at hmove ⊢
    rwa [hcomm _ _ rfl]
  | passed hstop hslot => exact .passed (s := s.setStart i .called) hstop hslot
  | marked hstop hslot => exact .marked (s := s.setStart i .called) hstop hslot
  | signal hstop => exact .signal (s := s.setStart i .called) hstop
  | kill hstop => exact .kill (s := s.setStart i .called) hstop
  | timeOut hstop => exact .timeOut (s := s.setStart i .called) hstop
  | notice hstop hp hannounced =>
    exact .notice (s := s.setStart i .called) hstop hp hannounced

end Supervision

end Gateway.App
