import Gateway.Proofs.App.Children

/-! Who reaps a child, and what its start learns from waiting for it. Waiting fails if and only if
somebody else has reaped the child. -/
namespace Gateway.App

def Life.isReaped : Life → Bool
  | reaped _ => true
  | alive | dead _ => false

/-- Whether waiting has failed, or is going to, for a start whose child is reaped or not. -/
def StartPhase.misses (isReaped : Bool) : StartPhase → Bool
  | waiting _ => isReaped
  | reaped _ status | released _ status _ => status.isNone
  | returned (.error .wait) => true
  | called | ready _ | returned _ => false

theorem StartPhase.misses_resultOf (isReaped : Bool) (status : Option ExitStatus)
    (stopping : Bool) :
    (returned (Supervision.resultOf status stopping)).misses isReaped = status.isNone := by
  cases status with
  | none => rfl
  | some status =>
    unfold Supervision.resultOf
    dsimp only
    split_ifs <;> rfl

namespace Supervision

theorem resultOf_eq_wait {status : Option ExitStatus} {stopping : Bool} :
    resultOf status stopping = .error .wait ↔ status = none := by
  cases status with
  | none => exact iff_of_true rfl rfl
  | some status =>
    unfold resultOf
    dsimp only
    split_ifs <;> simp

/-- Whether this child's process number is free again. -/
def isReaped (s : Supervision) (c : Nat) : Bool := (s.children[c]?).any (·.life.isReaped)

variable {s s' : Supervision} {e : Step} {c : Nat}

theorem isReaped_of_modify {d : Nat} {f : Child → Child}
    (hchildren : s'.children = s.children.modify d f)
    (hf : ∀ child ∈ s.children[d]?, (f child).life.isReaped = child.life.isReaped) :
    s'.isReaped c = s.isReaped c := by
  unfold isReaped
  rw [hchildren, List.getElem?_modify]
  cases hchild : s.children[c]? with
  | none => rfl
  | some child =>
    by_cases hd : d = c
    · subst hd
      simp [hf child hchild]
    · simp [hd]

theorem isReaped_of_launch {pid : Nat}
    (hchildren : s'.children = s.children ++ [⟨pid, .alive, false⟩]) :
    s'.isReaped c = s.isReaped c := by
  unfold isReaped
  rw [hchildren, getElem?_concat]
  split_ifs with hc
  · rw [hc, List.getElem?_eq_none (Nat.le_refl _)]
    rfl
  · rfl

/-- A child that is dead is reaped now. -/
theorem isReaped_of_reap (s' : Supervision) {d pid : Nat} {announced : Bool} {status : ExitStatus}
    (hchild : s.children[d]? = some ⟨pid, .dead status, announced⟩)
    (hchildren : s'.children = s.children.modify d ({ · with life := .reaped status })) :
    s'.isReaped c = true ↔ s.isReaped c = true ∨ c = d := by
  unfold isReaped
  rw [hchildren, getElem?_modify_child _ hchild]
  split_ifs with hc
  · exact iff_of_true rfl (.inr hc)
  · exact (or_iff_left hc).symm

/-- A child is reaped by its start or by somebody else, and in no other way. -/
theorem Move.isReaped_iff (h : Move s e s') : s'.isReaped c = true ↔
    s.isReaped c = true ∨ e = .collect c ∨
      ∃ i, e = .reap i ∧ s.starts[i]? = some (.waiting c) := by
  have hother (hcollect : ∀ d, e ≠ .collect d) (hreap : ∀ i, e ≠ .reap i)
      (hsame : s'.isReaped c = s.isReaped c) :
      s'.isReaped c = true ↔ s.isReaped c = true ∨ e = .collect c ∨
        ∃ i, e = .reap i ∧ s.starts[i]? = some (.waiting c) := by
    rw [hsame]
    refine (or_iff_left ?_).symm
    rintro (hc | ⟨i, hi, -⟩)
    · exact hcollect c hc
    · exact hreap i hi
  cases h with
  | launched => exact hother nofun nofun (isReaped_of_launch rfl)
  | @exit d pid announced status hchild =>
    refine hother nofun nofun (isReaped_of_modify rfl fun child hd => ?_)
    obtain rfl := Option.some.inj (hd.symm.trans hchild)
    rfl
  | @collect d pid announced status hchild =>
    rw [isReaped_of_reap (s.changeChild d _) hchild rfl]
    refine or_congr_right ⟨fun hc => .inl (by rw [hc]), ?_⟩
    rintro (hc | ⟨i, hi, -⟩)
    · exact (Step.collect.inj hc).symm
    · cases hi
  | @reap i d pid announced status hstart hchild =>
    rw [isReaped_of_reap ((s.changeChild d _).setStart i _) hchild rfl]
    refine or_congr_right ⟨fun hc => .inr ⟨i, rfl, hc ▸ hstart⟩, ?_⟩
    rintro (hc | ⟨k, hk, hwaiting⟩)
    · cases hc
    · obtain rfl := Step.reap.inj hk
      exact StartPhase.waiting.inj (Option.some.inj (hwaiting.symm.trans hstart))
  | @missed i d pid announced status hstart hchild =>
    refine ⟨.inl, ?_⟩
    rintro (hreaped | hc | ⟨k, hk, hwaiting⟩)
    · exact hreaped
    · cases hc
    · obtain rfl := Step.reap.inj hk
      obtain rfl := StartPhase.waiting.inj (Option.some.inj (hwaiting.symm.trans hstart))
      have hreaped : s.isReaped c = true := by
        unfold isReaped
        rw [hchild]
        rfl
      exact hreaped
  | announce => exact hother nofun nofun (isReaped_of_modify rfl fun _ _ => rfl)
  | callStart | callStop | fit | unfit | busy | unlaunched | release | passed | marked | signal
  | kill | timeOut | notice => exact hother nofun nofun rfl

theorem isReaped_eq {child : Child} (hchild : s.children[c]? = some child) :
    s.isReaped c = child.life.isReaped := by
  unfold isReaped
  rw [hchild]
  rfl

/-- A start with a child takes a step of its own. -/
theorem Move.misses_own (h : Move s e s') {i : Nat} (he : e.party? = some (.start i))
    {slot : Slot} {marked : Bool} {child : Child} {p : StartPhase}
    (hchild : s.children[c]? = some child) (hstart : s.starts[i]? = some p)
    (hfollows : Record.Follows slot c marked child p) :
    ∃ p', s'.starts[i]? = some p' ∧ p'.misses (s'.isReaped c) = p.misses (s.isReaped c) := by
  have hafter {q : StartPhase} (hq : q.misses (s'.isReaped c) = p.misses (s.isReaped c))
      (hstarts : s'.starts = s.starts.set i q) :
      ∃ p', s'.starts[i]? = some p' ∧ p'.misses (s'.isReaped c) = p.misses (s.isReaped c) := by
    refine ⟨q, ?_, hq⟩
    rw [hstarts, getElem?_set_start q hstart, if_pos rfl]
  cases h with
  | fit hcalled | unfit hcalled =>
    obtain rfl := Party.start.inj (Option.some.inj he)
    exact absurd (Option.some.inj (hstart.symm.trans hcalled)) hfollows.not_called
  | busy hready | unlaunched hready | launched hready =>
    obtain rfl := Party.start.inj (Option.some.inj he)
    exact absurd (Option.some.inj (hstart.symm.trans hready)) (hfollows.not_ready _)
  | @reap k d pid announced status hwaiting hdead =>
    obtain rfl := Party.start.inj (Option.some.inj he)
    obtain rfl := Option.some.inj (hstart.symm.trans hwaiting)
    obtain rfl := hfollows.eq_of_child? rfl
    refine hafter ?_ rfl
    exact (isReaped_eq hdead).symm
  | @missed k d pid announced status hwaiting hreaped =>
    obtain rfl := Party.start.inj (Option.some.inj he)
    obtain rfl := Option.some.inj (hstart.symm.trans hwaiting)
    obtain rfl := hfollows.eq_of_child? rfl
    refine hafter ?_ rfl
    exact (isReaped_eq hreaped).symm
  | @release k d status hreaped =>
    obtain rfl := Party.start.inj (Option.some.inj he)
    obtain rfl := Option.some.inj (hstart.symm.trans hreaped)
    exact hafter (q := .released d status s.slot.isStopping) rfl rfl
  | announce hreleased =>
    obtain rfl := Party.start.inj (Option.some.inj he)
    obtain rfl := Option.some.inj (hstart.symm.trans hreleased)
    exact hafter (StartPhase.misses_resultOf ..) rfl
  | callStart | callStop | exit | collect | passed | marked | signal | kill | timeOut | notice =>
    cases he

end Supervision

namespace Record

/-- Waiting for this child has failed, or is going to. -/
def Missed (r : Record) (c : Nat) : Prop :=
  ∃ i p, r.launches[c]? = some i ∧ r.supervision.starts[i]? = some p ∧
    p.misses (r.supervision.isReaped c) = true

variable {r r' : Record} {e : Step} {c i : Nat}

theorem missed_iff {p : StartPhase} (hlaunch : r.launches[c]? = some i)
    (hstart : r.supervision.starts[i]? = some p) :
    r.Missed c ↔ p.misses (r.supervision.isReaped c) = true := by
  refine ⟨?_, fun hmisses => ⟨i, p, hlaunch, hstart, hmisses⟩⟩
  rintro ⟨k, q, hk, hq, hmisses⟩
  obtain rfl := Option.some.inj (hk.symm.trans hlaunch)
  obtain rfl := Option.some.inj (hq.symm.trans hstart)
  exact hmisses

theorem Sound.isReaped_of_missed (h : r.Sound) (hmissed : r.Missed c) :
    r.supervision.isReaped c = true := by
  obtain ⟨i, p, hlaunch, hstart, hmisses⟩ := hmissed
  obtain ⟨child, q, hchild, hq, hfollows⟩ := h.followed c i hlaunch
  obtain rfl := Option.some.inj (hq.symm.trans hstart)
  rw [Supervision.isReaped_eq hchild] at hmisses ⊢
  cases hfollows with
  | waiting => exact hmisses
  | reaped | released | returned => rfl

/-- While another takes a step, waiting goes wrong just if that step reaps the child. -/
theorem Sound.misses_other (h : r.Sound) {s : Supervision}
    (hmove : Supervision.Move r.supervision e s) (he : e.party? ≠ some (.start i))
    {marked : Bool} {child : Child} {p : StartPhase}
    (hchild : r.supervision.children[c]? = some child)
    (hstart : r.supervision.starts[i]? = some p)
    (hfollows : Follows r.supervision.slot c marked child p) :
    p.misses (s.isReaped c) = true ↔
      p.misses (r.supervision.isReaped c) = true ∨ e = .collect c := by
  have hreaped {status : ExitStatus} (hlife : child.life = .reaped status) : e ≠ .collect c := by
    rintro rfl
    cases hmove with
    | collect hdead =>
      obtain rfl := Option.some.inj (hchild.symm.trans hdead)
      cases hlife
  cases hfollows with
  | waiting =>
    refine hmove.isReaped_iff.trans (or_congr_right (or_iff_left ?_))
    -- no other start waits for this child
    rintro ⟨k, rfl, hwaiting⟩
    have hk := h.own k c _ hwaiting rfl
    obtain rfl := Option.some.inj (hk.symm.trans (h.own i c _ hstart rfl))
    exact he rfl
  | reaped => exact (or_iff_left (hreaped rfl)).symm
  | released => exact (or_iff_left (hreaped rfl)).symm
  | returned =>
    rw [StartPhase.misses_resultOf, StartPhase.misses_resultOf]
    exact (or_iff_left (hreaped rfl)).symm

/-- Nobody waits for a child that is not there, and nobody reaps it. -/
theorem Sound.not_missed_of_unborn (h : r.Sound) (hstep : r.step? e = some r')
    (hlaunch : r.launches[c]? = none) : ¬ r'.Missed c ∧ ¬ r.Missed c ∧ e ≠ .collect c := by
  have hafter := h.step hstep
  obtain ⟨s, hs, rfl⟩ := Option.map_eq_some_iff.mp hstep
  have hmove := Supervision.move_of_step? hs
  have hunborn (child : Child) : r.supervision.children[c]? ≠ some child := by
    intro hchild
    obtain ⟨i, p, hi, -⟩ := h.launcher hchild
    exact nomatch hlaunch.symm.trans hi
  have huncollected : e ≠ .collect c := by
    rintro rfl
    cases hmove with
    | collect hdead => exact hunborn _ hdead
  refine ⟨fun hmissed => ?_, ?_, huncollected⟩
  · rcases hmove.isReaped_iff.mp (hafter.isReaped_of_missed hmissed) with
      hreaped | hcollect | ⟨i, rfl, hwaiting⟩
    · obtain ⟨child, hchild, -⟩ := (Option.any_eq_true _ _).mp hreaped
      exact hunborn child hchild
    · exact huncollected hcollect
    · exact nomatch hlaunch.symm.trans (h.own i c _ hwaiting rfl)
  · rintro ⟨i, p, hi, -⟩
    exact nomatch hlaunch.symm.trans hi

/-- Waiting fails if and only if somebody else reaps the child. -/
theorem Sound.missed_step (h : r.Sound) (hstep : r.step? e = some r') (c : Nat) :
    r'.Missed c ↔ r.Missed c ∨ e = .collect c := by
  cases hlaunch : r.launches[c]? with
  | none =>
    obtain ⟨hafter, hbefore, huncollected⟩ := h.not_missed_of_unborn hstep hlaunch
    exact iff_of_false hafter (not_or.mpr ⟨hbefore, huncollected⟩)
  | some i =>
    obtain ⟨s, hs, rfl⟩ := Option.map_eq_some_iff.mp hstep
    have hmove := Supervision.move_of_step? hs
    obtain ⟨child, p, hchild, hstart, hfollows⟩ := h.followed c i hlaunch
    obtain ⟨hlt, -⟩ := List.getElem?_eq_some_iff.mp hlaunch
    have hlaunch' : (r.launches ++ r.launchedBy e)[c]? = some i :=
      (List.getElem?_append_left hlt).trans hlaunch
    rw [missed_iff hlaunch hstart]
    by_cases he : e.party? = some (.start i)
    · obtain ⟨p', hstart', heq⟩ := hmove.misses_own he hchild hstart hfollows
      rw [missed_iff hlaunch' hstart', heq]
      refine (or_iff_left ?_).symm
      rintro rfl
      cases he
    · rw [missed_iff hlaunch' (Supervision.starts_of_step? hs he hstart)]
      exact h.misses_other hmove he hchild hstart hfollows

theorem Sound.missed_run (h : r.Sound) {steps : List Step} (hrun : r.run? steps = some r')
    (c : Nat) : r'.Missed c ↔ r.Missed c ∨ .collect c ∈ steps := by
  induction steps generalizing r with
  | nil =>
    obtain rfl := Option.some.inj hrun
    simp
  | cons e rest ih =>
    obtain ⟨v, hv, hrest⟩ := Option.bind_eq_some_iff.mp hrun
    rw [ih (h.step hv) hrest, h.missed_step hv, List.mem_cons, or_assoc, eq_comm]

end Record

end Gateway.App
