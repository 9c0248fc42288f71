import Gateway.Proofs.App.Sections

/-! A start that launches nothing leaves no trace: without its steps the others run as they did. -/
namespace Gateway.App

namespace Sectioned

def withdraw (w : Sectioned) (i : Nat) : Sectioned :=
  ⟨(w.setStart i .called).record, w.holder.filter (·.party ≠ .start i)⟩

end Sectioned

/-- Nothing has been launched in this phase, nor ever was. -/
def StartPhase.isApart : StartPhase → Bool
  | called | ready _ => true
  | returned (.error .wait) | returned (.error (.exited _)) => false
  | returned (.error _) => true
  | waiting _ | reaped .. | released .. | returned (.ok ()) => false

theorem StartPhase.not_isApart_of_resultOf (status : Option ExitStatus) (stopping : Bool) :
    (returned (Supervision.resultOf status stopping)).isApart = false := by
  cases status with
  | none => rfl
  | some status =>
    unfold Supervision.resultOf
    dsimp only
    split_ifs <;> rfl

namespace Sectioned

theorem withdraw_own_holder (r : Record) {i : Nat} {holder : Holder}
    (h : holder.party = .start i) :
    withdraw ⟨r, some holder⟩ i = withdraw ⟨r, none⟩ i := by
  unfold withdraw
  rw [Option.filter_some, if_neg (by simp [h])]
  rfl

theorem withdraw_other_holder (r : Record) {i : Nat} {holder : Holder}
    (h : holder.party ≠ .start i) :
    withdraw ⟨r, some holder⟩ i = ⟨(withdraw ⟨r, none⟩ i).record, some holder⟩ := by
  unfold withdraw
  rw [Option.filter_some, if_pos (by simp [h])]
  rfl

theorem withdraw_setStart_self (w : Sectioned) (i : Nat) (p : StartPhase) :
    (w.setStart i p).withdraw i = w.withdraw i := by
  unfold withdraw setStart Supervision.setStart
  simp only [List.set_set]

theorem withdraw_setStart_ne (w : Sectioned) {i k : Nat} (p : StartPhase) (h : k ≠ i) :
    (w.setStart k p).withdraw i = (w.withdraw i).setStart k p := by
  unfold withdraw setStart Supervision.setStart
  simp only
  rw [List.set_comm _ _ h]

/-- A start that has launched nothing has only changed how far it was itself. -/
theorem withdraw_own {w w' : Sectioned} {a : Act} {i : Nat}
    (hheld : Held w.record.supervision w.holder) (hdoes : Does w a w')
    (hparty : a.party? = some (.start i))
    (hafter : ∀ p ∈ w'.record.supervision.starts[i]?, p.isApart = true) :
    (∀ p ∈ w.record.supervision.starts[i]?, p.isApart = true) ∧ w'.withdraw i = w.withdraw i := by
  obtain ⟨r, holder⟩ := w
  have hbefore {q : StartPhase} (hq : r.supervision.starts[i]? = some q)
      (hapart : q.isApart = true) : ∀ p ∈ r.supervision.starts[i]?, p.isApart = true := by
    intro p hp
    obtain rfl := Option.some.inj (hp.symm.trans hq)
    exact hapart
  have hphase {q : StartPhase} (p : StartPhase) (hq : r.supervision.starts[i]? = some q) :
      (r.supervision.starts.set i p)[i]? = some p :=
    (Supervision.getElem?_set_start p hq i).trans (if_pos rfl)
  cases hdoes with
  | @free e record hlocked _ hstep =>
    obtain ⟨s, hs, rfl⟩ := Option.map_eq_some_iff.mp hstep
    rw [Record.launchedBy_of_free _ hlocked, Record.markedBy_of_free _ hlocked, List.append_nil,
      List.append_nil] at *
    cases Supervision.move_of_step? hs with
    | fit hstart hchecked =>
      obtain rfl := Party.start.inj (Option.some.inj hparty)
      exact ⟨hbefore hstart rfl, withdraw_setStart_self ⟨r, holder⟩ _ _⟩
    | unfit hstart hchecked =>
      obtain rfl := Party.start.inj (Option.some.inj hparty)
      exact ⟨hbefore hstart rfl, withdraw_setStart_self ⟨r, holder⟩ _ _⟩
    | reap hstart hchild =>
      obtain rfl := Party.start.inj (Option.some.inj hparty)
      cases hafter _ (hphase _ hstart)
    | missed hstart hchild =>
      obtain rfl := Party.start.inj (Option.some.inj hparty)
      cases hafter _ (hphase _ hstart)
    | @announce i c status stopping hstart =>
      obtain rfl := Party.start.inj (Option.some.inj hparty)
      have happart := hafter _ (hphase _ hstart)
      rw [StartPhase.not_isApart_of_resultOf] at happart
      cases happart
    | busy | unlaunched | launched | release => cases hlocked
    | callStart | callStop | exit | collect | passed | marked | signal | kill | timeOut
    | notice => cases hparty
  | busy hholder hstart hslot =>
    obtain rfl := Party.start.inj (Option.some.inj hparty)
    exact ⟨hbefore hstart rfl, withdraw_setStart_self ⟨r, holder⟩ _ _⟩
  | launching hholder hstart hslot =>
    obtain rfl := Party.start.inj (Option.some.inj hparty)
    obtain rfl : holder = none := hholder
    exact ⟨hbefore hstart rfl, withdraw_own_holder r rfl⟩
  | clearing hholder hstart =>
    obtain rfl := Party.start.inj (Option.some.inj hparty)
    cases hafter _ hstart
  | @unspawned k error hholder =>
    obtain rfl := Party.start.inj (Option.some.inj hparty)
    obtain rfl : holder = some (.launching k) := hholder
    cases hheld with
    | launching hstart hslot =>
      refine ⟨hbefore hstart rfl, ?_⟩
      rw [withdraw_own_holder r rfl]
      exact withdraw_setStart_self ⟨r, none⟩ k _
  | @spawned k pid hholder =>
    obtain rfl := Party.start.inj (Option.some.inj hparty)
    obtain rfl : holder = some (.launching k) := hholder
    cases hheld with
    | launching hstart hslot => cases hafter _ (hphase _ hstart)
  | @occupied k c hholder =>
    obtain rfl := Party.start.inj (Option.some.inj hparty)
    obtain rfl : holder = some (.occupying k c) := hholder
    cases hheld with
    | occupying hstart => cases hafter _ hstart
  | cleared hholder hstart =>
    obtain rfl := Party.start.inj (Option.some.inj hparty)
    cases hafter _ (hphase _ hstart)
  | passed | marking | marked => cases hparty

theorem starts_of_other {w w' : Sectioned} {a : Act} {i : Nat} {p : StartPhase}
    (hdoes : Does w a w') (hparty : a.party? ≠ some (.start i))
    (hp : w.record.supervision.starts[i]? = some p) :
    w'.record.supervision.starts[i]? = some p := by
  have hset (k : Nat) (q : StartPhase) (hk : a.party? = some (.start k)) :
      (w.record.supervision.starts.set k q)[i]? = some p := by
    rw [List.getElem?_set_ne, hp]
    rintro rfl
    exact hparty hk
  cases hdoes with
  | free _ _ hstep =>
    obtain ⟨s, hs, rfl⟩ := Option.map_eq_some_iff.mp hstep
    exact Supervision.starts_of_step? hs hparty hp
  | busy => exact hset _ _ rfl
  | unspawned => exact hset _ _ rfl
  | spawned => exact hset _ _ rfl
  | cleared => exact hset _ _ rfl
  | launching | clearing | passed | marking | occupied | marked => exact hp

/-- The others do not notice that a start is taken back. -/
theorem withdraw_other {w w' : Sectioned} {a : Act} {i : Nat}
    (hdoes : Does w a w') (hparty : a.party? ≠ some (.start i)) :
    Does (w.withdraw i) a (w'.withdraw i) := by
  obtain ⟨r, holder⟩ := w
  have hne (k : Nat) (hk : a.party? = some (.start k)) : k ≠ i := by
    rintro rfl
    exact hparty hk
  have hother (holder : Holder) (hk : a.party? = some holder.party) : holder.party ≠ .start i :=
    fun heq => hparty (hk.trans (congrArg some heq))
  have hkept (k : Nat) (p : StartPhase) (hk : a.party? = some (.start k))
      (hp : r.supervision.starts[k]? = some p) :
      (r.supervision.setStart i .called).starts[k]? = some p :=
    (r.supervision.getElem?_starts_setStart_ne _ (hne k hk)).trans hp
  cases hdoes with
  | @free e record hlocked hfree hstep =>
    obtain ⟨s, hs, rfl⟩ := Option.map_eq_some_iff.mp hstep
    have hmove := (Supervision.move_of_step? hs).reset hparty
    refine .free hlocked (fun h hmem => hfree h (Option.mem_filter_iff.mp hmem).1) ?_
    refine Record.step?_of_move hmove ?_ ?_
    · rw [Record.launchedBy_of_free _ hlocked, Record.launchedBy_of_free _ hlocked]
      rfl
    · rw [Record.markedBy_of_free _ hlocked, Record.markedBy_of_free _ hlocked]
      rfl
  | @busy k c stopping command hholder hstart hslot =>
    obtain rfl : holder = none := hholder
    rw [withdraw_setStart_ne _ _ (hne _ rfl)]
    exact .busy rfl (hkept _ _ rfl hstart) hslot
  | @launching k command hholder hstart hslot =>
    obtain rfl : holder = none := hholder
    rw [withdraw_other_holder r (hother _ rfl)]
    exact .launching rfl (hkept _ _ rfl hstart) hslot
  | clearing hholder hstart =>
    obtain rfl : holder = none := hholder
    rw [withdraw_other_holder r (hother _ rfl)]
    exact .clearing (w := withdraw ⟨r, none⟩ i) rfl (hkept _ _ rfl hstart)
  | passed hholder hstop hslot =>
    obtain rfl : holder = none := hholder
    exact .passed (w := withdraw ⟨r, none⟩ i) rfl hstop hslot
  | marking hholder hstop hslot =>
    obtain rfl : holder = none := hholder
    rw [withdraw_other_holder r (hother _ rfl)]
    exact .marking (w := withdraw ⟨r, none⟩ i) rfl hstop hslot
  | @unspawned k error hholder =>
    obtain rfl : holder = some (.launching k) := hholder
    rw [withdraw_other_holder r (hother (.launching k) rfl)]
    have hset := withdraw_setStart_ne ⟨r, none⟩ (.returned (.error (.spawn error))) (hne k rfl)
    have hdoes : Does ⟨(withdraw ⟨r, none⟩ i).record, some (.launching k)⟩
        (.spawn k (.error error)) _ := .unspawned rfl
    exact hset ▸ hdoes
  | @spawned k pid hholder =>
    obtain rfl : holder = some (.launching k) := hholder
    have hcomm := List.set_comm (.waiting r.supervision.children.length) .called (hne k rfl)
      (l := r.supervision.starts)
    have hafter : (spawned ⟨r, some (.launching k)⟩ k pid).withdraw i =
        spawned ⟨(withdraw ⟨r, none⟩ i).record, some (.launching k)⟩ k pid := by
      unfold spawned
      rw [withdraw_other_holder _ (hother (.occupying k r.supervision.children.length) rfl)]
      unfold withdraw setStart Supervision.launched Supervision.setStart
      dsimp only
      rw [hcomm]
    rw [hafter, withdraw_other_holder r (hother (.launching k) rfl)]
    exact .spawned rfl
  | @occupied k c hholder =>
    obtain rfl : holder = some (.occupying k c) := hholder
    rw [withdraw_other_holder r (hother (.occupying k c) rfl)]
    exact .occupied rfl
  | @cleared k c stopping status hholder hstart =>
    obtain rfl : holder = some (.clearing k stopping) := hholder
    rw [withdraw_other_holder r (hother (.clearing k stopping) rfl)]
    have hset := withdraw_setStart_ne ⟨r, none⟩ (.released c status stopping) (hne k rfl)
    have hdoes : Does ⟨(withdraw ⟨r, none⟩ i).record, some (.clearing k stopping)⟩ (.clear k) _ :=
      .cleared rfl (hkept k _ rfl hstart)
    have hafter := congrArg (fun w : Sectioned => (w.setSlot .idle).leave) hset
    exact Eq.mpr (congrArg (Does _ _) hafter) hdoes
  | @marked j c hholder =>
    obtain rfl : holder = some (.marking j c) := hholder
    rw [withdraw_other_holder r (hother (.marking j c) rfl)]
    exact .marked rfl

/-- A start that returns without having launched anything leaves everything as if it had never got
beyond its call. -/
theorem run?_withdraw {w w' : Sectioned} {acts : List Act} {i : Nat}
    (hheld : Held w.record.supervision w.holder) (hrun : w.run? acts = some w')
    (hafter : ∀ p ∈ w'.record.supervision.starts[i]?, p.isApart = true) :
    (∀ p ∈ w.record.supervision.starts[i]?, p.isApart = true) ∧
      (w.withdraw i).run? (acts.filter (·.party? ≠ some (.start i))) = some (w'.withdraw i) := by
  induction acts generalizing w with
  | nil =>
    obtain rfl := Option.some.inj hrun
    exact ⟨hafter, rfl⟩
  | cons a rest ih =>
    obtain ⟨v, hv, hrest⟩ := Option.bind_eq_some_iff.mp hrun
    have hdoes := does_of_step? hv
    obtain ⟨hapart, hstay⟩ := ih (hheld.step hdoes) hrest
    by_cases hparty : a.party? = some (.start i)
    · obtain ⟨hbefore, heq⟩ := withdraw_own hheld hdoes hparty hapart
      refine ⟨hbefore, ?_⟩
      rw [List.filter_cons_of_neg (by simp [hparty]), ← heq]
      exact hstay
    · refine ⟨fun p hp => hapart p (starts_of_other hdoes hparty hp), ?_⟩
      rw [List.filter_cons_of_pos (by simp [hparty])]
      exact ((withdraw_other hdoes hparty).run?_cons _).trans hstay

end Sectioned

end Gateway.App
