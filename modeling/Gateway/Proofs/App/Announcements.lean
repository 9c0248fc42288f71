import Gateway.App.Shutdown
import Gateway.Proofs.App.Runs
import Gateway.Proofs.Text.Octets
import Mathlib.Data.List.Induction

/-! Who hears the announcement. Whatever is asked of the announcer and of its listeners, in whatever
order, those that came before the first announcement find it once, and the others never. -/
namespace Gateway.App.Shutdown

/-- What can be asked of the announcer, or of the listener in a slot. -/
inductive Request where
  | subscribe
  | trigger
  | close
  | receive (slot : Nat)
  | leave (slot : Nat)
  deriving DecidableEq

/-- The announcer, and what its listeners have found so far. -/
structure Audience where
  shutdown : Shutdown
  found : List (Nat × Notice)

namespace Audience

def new : Audience := ⟨.new, []⟩

/-- Nothing can be asked of an announcer that is closed, nor of a listener that is not there. -/
def step? (w : Audience) : Request → Option Audience
  | .subscribe =>
    if w.shutdown.channel.isOpen then some { w with shutdown := w.shutdown.subscribe.2 } else none
  | .trigger =>
    if w.shutdown.channel.isOpen then some { w with shutdown := w.shutdown.trigger } else none
  | .close =>
    if w.shutdown.channel.isOpen then some { w with shutdown := w.shutdown.close } else none
  | .receive slot =>
    (w.shutdown.poll? slot).map fun (notice, s) => ⟨s, w.found ++ [(slot, notice)]⟩
  | .leave slot =>
    if w.shutdown.channel.listeners[slot]?.join.isSome then
      some { w with shutdown := w.shutdown.drop slot }
    else none

def run? (w : Audience) (requests : List Request) : Option Audience := takeSteps? step? w requests

def foundBy (w : Audience) (slot : Nat) : List Notice := (w.found.filter (·.1 = slot)).map (·.2)

theorem foundBy_append (w : Audience) (s : Shutdown) (slot other : Nat) (notice : Notice) :
    foundBy ⟨s, w.found ++ [(slot, notice)]⟩ other =
      w.foundBy other ++ if slot = other then [notice] else [] := by
  unfold foundBy
  rw [List.filter_append, List.map_append]
  split_ifs with h
  · simp [h]
  · simp [h]

end Audience

section Histories
variable (past : List Request) (slot : Nat)

def came : Nat := past.count .subscribe

def present : List Nat := (List.range (came past)).filter (.leave · ∉ past)

def untilTrigger : List Request := past.takeWhile (· ≠ .trigger)

def sinceTrigger : List Request := past.dropWhile (· ≠ .trigger)

def Early : Prop := slot < came (untilTrigger past)

def Looked : Prop := .receive slot ∈ sinceTrigger past

/-- The announcement waits for the listener. -/
def Due : Prop := .trigger ∈ past ∧ Early past slot ∧ ¬ Looked past slot

def Told : Prop := Early past slot ∧ Looked past slot

instance : Decidable (Early past slot) := inferInstanceAs (Decidable (_ < _))

instance : Decidable (Looked past slot) := inferInstanceAs (Decidable (_ ∈ _))

instance : Decidable (Due past slot) := inferInstanceAs (Decidable (_ ∧ _ ∧ _))

instance : Decidable (Told past slot) := inferInstanceAs (Decidable (_ ∧ _))

def finds : Notice :=
  if Due past slot then .fired else if .close ∈ past then .closed else .empty

/-- The announcer is asked nothing after it was closed, and a listener nothing before it came or
after it left. -/
def Allowed : Request → Prop
  | .subscribe | .trigger | .close => .close ∉ past
  | .receive slot | .leave slot => slot ∈ present past

instance : DecidablePred (Allowed past)
  | .subscribe | .trigger | .close => inferInstanceAs (Decidable (_ ∉ _))
  | .receive _ | .leave _ => inferInstanceAs (Decidable (_ ∈ _))

def Orderly (requests : List Request) : Prop :=
  ∀ i (h : i < requests.length), Allowed (requests.take i) requests[i]

instance (requests : List Request) : Decidable (Orderly requests) :=
  inferInstanceAs (Decidable (∀ i (_ : i < requests.length), Allowed _ _))

end Histories

section Histories
variable {past : List Request} {slot : Nat}

theorem mem_present : slot ∈ present past ↔ slot < came past ∧ .leave slot ∉ past := by
  simp [present]

theorem came_append (r : Request) :
    came (past ++ [r]) = came past + if r = .subscribe then 1 else 0 := by
  unfold came
  rw [List.count_append, List.count_singleton]
  simp [beq_iff_eq]

theorem came_untilTrigger_le (past : List Request) : came (untilTrigger past) ≤ came past :=
  (List.takeWhile_sublist _).count_le _

theorem split_at_trigger {front : List Request} (hfront : .trigger ∉ front)
    (tail : List Request) (htail : ∀ r ∈ tail.head?, r = .trigger) :
    untilTrigger (front ++ tail) = front ∧ sinceTrigger (front ++ tail) = tail := by
  refine takeWhile_append_of_head (fun r hr => ?_) fun r hr => ?_
  · rw [decide_eq_true_eq]
    rintro rfl
    exact hfront hr
  · simpa using htail r hr

/-- Once there was an announcement, it stays the first one. -/
theorem split_of_trigger (h : .trigger ∈ past) (rest : List Request) :
    untilTrigger (past ++ rest) = untilTrigger past ∧
      sinceTrigger (past ++ rest) = sinceTrigger past ++ rest := by
  obtain ⟨front, back, rfl, hfront⟩ := List.eq_append_cons_of_mem h
  have hsplit (tail : List Request) := split_at_trigger hfront (.trigger :: tail)
    fun r hr => (Option.some.inj hr).symm
  obtain ⟨huntil, hsince⟩ := hsplit back
  obtain ⟨huntil', hsince'⟩ := hsplit (back ++ rest)
  rw [List.append_assoc, List.cons_append, huntil, hsince, huntil', hsince']
  exact ⟨rfl, rfl⟩

theorem sinceTrigger_of_not_mem (h : .trigger ∉ past) : sinceTrigger past = [] := by
  have hsplit := split_at_trigger h [] nofun
  rw [List.append_nil] at hsplit
  exact hsplit.2

theorem not_told_of_no_trigger (h : .trigger ∉ past) : ¬ Told past slot := by
  rintro ⟨-, hlooked⟩
  rw [Looked, sinceTrigger_of_not_mem h] at hlooked
  cases hlooked

theorem not_due_of_absent (h : came past ≤ slot) : ¬ Due past slot := by
  rintro ⟨-, hearly, -⟩
  have hle := came_untilTrigger_le past
  unfold Early at hearly
  omega

theorem not_due_append_receive : ¬ Due (past ++ [.receive slot]) slot := by
  rintro ⟨htrigger, -, hunlooked⟩
  have hmem : .trigger ∈ past := by simpa using htrigger
  refine hunlooked ?_
  rw [Looked, (split_of_trigger hmem _).2]
  simp

theorem due_append_of_ne {r : Request} (htrigger : r ≠ .trigger) (hreceive : r ≠ .receive slot) :
    Due (past ++ [r]) slot ↔ Due past slot := by
  have hmem : .trigger ∈ past ++ [r] ↔ .trigger ∈ past := by simp [Ne.symm htrigger]
  unfold Due
  rw [hmem]
  refine and_congr_right fun h => ?_
  obtain ⟨huntil, hsince⟩ := split_of_trigger h [r]
  unfold Early Looked
  rw [huntil, hsince]
  simp [Ne.symm hreceive]

theorem due_append_trigger :
    Due (past ++ [.trigger]) slot ↔
      if .trigger ∈ past then Due past slot else slot < came past := by
  split_ifs with h
  · obtain ⟨huntil, hsince⟩ := split_of_trigger h [.trigger]
    simp [Due, Early, Looked, huntil, hsince, h]
  · obtain ⟨huntil, hsince⟩ := split_at_trigger h [.trigger]
      fun r hr => (Option.some.inj hr).symm
    simp [Due, Early, Looked, huntil, hsince]

theorem told_append_receive :
    Told (past ++ [.receive slot]) slot ↔ Told past slot ∨ Due past slot := by
  by_cases h : .trigger ∈ past
  · obtain ⟨huntil, hsince⟩ := split_of_trigger h [.receive slot]
    unfold Told Due Early Looked
    rw [huntil, hsince]
    simp only [List.mem_append, List.mem_singleton, or_true, and_true, h, true_and]
    tauto
  · have hlater : .trigger ∉ past ++ [Request.receive slot] := by simpa using h
    have hdue : ¬ Due past slot := fun hdue => h hdue.1
    simp [not_told_of_no_trigger h, not_told_of_no_trigger hlater, hdue]

theorem told_append_of_ne {r : Request} (hreceive : r ≠ .receive slot) :
    Told (past ++ [r]) slot ↔ Told past slot := by
  by_cases h : .trigger ∈ past
  · obtain ⟨huntil, hsince⟩ := split_of_trigger h [r]
    unfold Told Early Looked
    rw [huntil, hsince]
    simp [Ne.symm hreceive]
  · have hnot : ¬ Told (past ++ [r]) slot := by
      rintro ⟨-, hlooked⟩
      by_cases hr : r = .trigger
      · have hsplit := split_at_trigger h [r]
          fun q hq => (Option.some.inj hq).symm.trans hr
        rw [Looked, hsplit.2] at hlooked
        exact hreceive (List.mem_singleton.mp hlooked).symm
      · have hlater : .trigger ∉ past ++ [r] := by simp [h, Ne.symm hr]
        rw [Looked, sinceTrigger_of_not_mem hlater] at hlooked
        cases hlooked
    simp [hnot, not_told_of_no_trigger h]

/-- Looking finds the announcement the first time it is there to be found, and not again. -/
theorem count_told (past : List Request) (slot : Nat) :
    (if Told past slot then 1 else 0) + [finds past slot].count .fired =
      if Told (past ++ [.receive slot]) slot then 1 else 0 := by
  have hcount : [finds past slot].count .fired = if Due past slot then 1 else 0 := by
    unfold finds
    split_ifs <;> rfl
  have hone : Told past slot → ¬ Due past slot := fun htold hdue => hdue.2.2 htold.2
  rw [hcount]
  simp only [told_append_receive]
  by_cases htold : Told past slot
  · simp [htold, hone htold]
  · simp [htold]

end Histories

/-! ### One request -/

theorem poll?_of_heard {c : Channel} {slot heard : Nat} (hcapacity : c.capacity = 1)
    (h : c.listeners[slot]? = some (some heard)) :
    (heard = c.sent → c.poll? slot = some (if c.isOpen then .empty else .closed, c)) ∧
      (heard + 1 = c.sent → c.poll? slot =
        some (.fired, { c with listeners := c.listeners.set slot (some c.sent) })) := by
  unfold Channel.poll?
  rw [h, hcapacity]
  constructor
  · intro hsent
    have hlag : ¬ 1 < c.sent - heard := by omega
    have hnew : ¬ heard < c.sent := by omega
    simp [hlag, hnew]
  · intro hsent
    have hlag : ¬ 1 < c.sent - heard := by omega
    have hnew : heard < c.sent := by omega
    simp [hlag, hnew, hsent]

/-- One while the announcement waits for the listener. -/
def due (past : List Request) (slot : Nat) : Nat := if Due past slot then 1 else 0

/-- The announcer and its listeners are as these requests leave them. -/
structure Reflects (past : List Request) (w : Audience) : Prop where
  capacity_eq : w.shutdown.channel.capacity = 1
  isOpen_iff : w.shutdown.channel.isOpen = true ↔ .close ∉ past
  triggered_iff : w.shutdown.triggered = true ↔ .trigger ∈ past
  length_eq : w.shutdown.channel.listeners.length = came past
  left : ∀ slot, .leave slot ∈ past → w.shutdown.channel.listeners[slot]? = some none
  listens : ∀ slot ∈ present past, ∃ heard,
    w.shutdown.channel.listeners[slot]? = some (some heard) ∧
      heard + due past slot = w.shutdown.channel.sent
  unsent : .trigger ∉ past → w.shutdown.channel.sent = 0
  notLagged : ∀ slot, .lagged ∉ w.foundBy slot
  fired : ∀ slot, (w.foundBy slot).count .fired = if Told past slot then 1 else 0

theorem reflects_new : Reflects [] .new where
  capacity_eq := rfl
  isOpen_iff := by simp [Audience.new, new, Channel.new]
  triggered_iff := by simp [Audience.new, new]
  length_eq := rfl
  left slot h := by cases h
  listens slot h := by simp [present, came] at h
  unsent _ := rfl
  notLagged slot := by simp [Audience.foundBy, Audience.new]
  fired slot := by simp [Audience.foundBy, Audience.new, not_told_of_no_trigger]

namespace Reflects
variable {past : List Request} {w : Audience} {slot : Nat}

theorem lt_of_left (h : Reflects past w) (hleft : .leave slot ∈ past) : slot < came past := by
  rw [← h.length_eq]
  exact (List.getElem?_eq_some_iff.mp (h.left slot hleft)).1

/-- What does not concern the found notices leaves them as they are. -/
theorem fired_append (h : Reflects past w) {r : Request} (hr : ∀ slot, r ≠ .receive slot)
    (slot : Nat) : (w.foundBy slot).count .fired = if Told (past ++ [r]) slot then 1 else 0 := by
  simp only [told_append_of_ne (hr slot)]
  exact h.fired slot

theorem subscribe (h : Reflects past w) :
    Reflects (past ++ [.subscribe]) { w with shutdown := w.shutdown.subscribe.2 } where
  capacity_eq := h.capacity_eq
  isOpen_iff := by simpa [Shutdown.subscribe, Channel.subscribe] using h.isOpen_iff
  triggered_iff := by simpa [Shutdown.subscribe] using h.triggered_iff
  length_eq := by
    rw [came_append, if_pos rfl, ← h.length_eq]
    simp [Shutdown.subscribe, Channel.subscribe]
  left slot hleft := by
    have hbefore : .leave slot ∈ past := by simpa using hleft
    have hlt : slot < w.shutdown.channel.listeners.length := h.length_eq ▸ h.lt_of_left hbefore
    change (w.shutdown.channel.listeners ++ [some w.shutdown.channel.sent])[slot]? = some none
    rw [List.getElem?_append_left hlt]
    exact h.left slot hbefore
  listens slot hslot := by
    have hdue : due (past ++ [.subscribe]) slot = due past slot := by
      simp [due, due_append_of_ne]
    obtain ⟨hlt, hstays⟩ := mem_present.mp hslot
    rw [came_append, if_pos rfl] at hlt
    rw [hdue]
    change ∃ heard, (w.shutdown.channel.listeners ++ [some w.shutdown.channel.sent])[slot]? =
      some (some heard) ∧ heard + due past slot = w.shutdown.channel.sent
    rcases Nat.lt_succ_iff_lt_or_eq.mp hlt with hold | hnew
    · rw [List.getElem?_append_left (h.length_eq ▸ hold)]
      exact h.listens slot (mem_present.mpr ⟨hold, by simpa using hstays⟩)
    · -- the new listener hears of nothing that was sent before it came
      have hlast : slot = w.shutdown.channel.listeners.length := hnew.trans h.length_eq.symm
      refine ⟨w.shutdown.channel.sent, by simp [hlast], ?_⟩
      simp [due, not_due_of_absent (Nat.le_of_eq hnew.symm)]
  unsent htrigger := h.unsent (by simpa using htrigger)
  notLagged := h.notLagged
  fired := h.fired_append (by simp)

theorem close (h : Reflects past w) :
    Reflects (past ++ [.close]) { w with shutdown := w.shutdown.close } where
  capacity_eq := h.capacity_eq
  isOpen_iff := by simp [Shutdown.close, Channel.close]
  triggered_iff := by simpa [Shutdown.close] using h.triggered_iff
  length_eq := by simpa [came_append, Shutdown.close, Channel.close] using h.length_eq
  left slot hleft := h.left slot (by simpa using hleft)
  listens slot hslot := by
    have hbefore : slot ∈ present past := by simpa [mem_present, came_append] using hslot
    simpa [due, due_append_of_ne, Shutdown.close, Channel.close] using h.listens slot hbefore
  unsent htrigger := h.unsent (by simpa using htrigger)
  notLagged := h.notLagged
  fired := h.fired_append (by simp)

theorem leave (h : Reflects past w) (hslot : slot ∈ present past) :
    Reflects (past ++ [.leave slot]) { w with shutdown := w.shutdown.drop slot } where
  capacity_eq := h.capacity_eq
  isOpen_iff := by simpa [Shutdown.drop, Channel.drop] using h.isOpen_iff
  triggered_iff := by simpa [Shutdown.drop] using h.triggered_iff
  length_eq := by simpa [came_append, Shutdown.drop, Channel.drop] using h.length_eq
  left other hleft := by
    change (w.shutdown.channel.listeners.set slot none)[other]? = some none
    by_cases hother : slot = other
    · subst hother
      have hlt : slot < w.shutdown.channel.listeners.length :=
        h.length_eq ▸ (mem_present.mp hslot).1
      rw [List.getElem?_set_self hlt]
    · rw [List.getElem?_set_ne hother]
      exact h.left other (by simpa [Ne.symm hother] using hleft)
  listens other hstays := by
    change ∃ heard, (w.shutdown.channel.listeners.set slot none)[other]? = some (some heard) ∧
      heard + due (past ++ [.leave slot]) other = w.shutdown.channel.sent
    obtain ⟨hlt, hnot⟩ := mem_present.mp hstays
    simp only [List.mem_append, List.mem_singleton, Request.leave.injEq, not_or] at hnot
    have hbefore : other ∈ present past :=
      mem_present.mpr ⟨by simpa [came_append] using hlt, hnot.1⟩
    rw [List.getElem?_set_ne (Ne.symm hnot.2)]
    simpa [due, due_append_of_ne] using h.listens other hbefore
  unsent htrigger := h.unsent (by simpa using htrigger)
  notLagged := h.notLagged
  fired := h.fired_append (by simp)

theorem trigger_again (h : Reflects past w) (htriggered : .trigger ∈ past) :
    Reflects (past ++ [.trigger]) w where
  capacity_eq := h.capacity_eq
  isOpen_iff := by simpa using h.isOpen_iff
  triggered_iff := by simp [h.triggered_iff, htriggered]
  length_eq := by simpa [came_append] using h.length_eq
  left slot hleft := h.left slot (by simpa using hleft)
  listens slot hslot := by
    have hbefore : slot ∈ present past := by simpa [mem_present, came_append] using hslot
    simpa [due, due_append_trigger, htriggered] using h.listens slot hbefore
  unsent hnot := absurd (List.mem_append_left _ htriggered) hnot
  notLagged := h.notLagged
  fired := h.fired_append (by simp)

theorem listenerCount_eq (h : Reflects past w) :
    w.shutdown.listenerCount = (present past).length := by
  have hslots : w.shutdown.channel.listeners.map (·.isSome) =
      (List.range (came past)).map fun slot => decide (.leave slot ∉ past) := by
    apply List.ext_getElem?
    intro slot
    rw [List.getElem?_map, List.getElem?_map]
    by_cases hlt : slot < came past
    · rw [List.getElem?_range hlt]
      by_cases hleft : .leave slot ∈ past
      · simp [h.left slot hleft, hleft]
      · obtain ⟨heard, hheard, -⟩ := h.listens slot (mem_present.mpr ⟨hlt, hleft⟩)
        simp [hheard, hleft]
    · have hnone : w.shutdown.channel.listeners[slot]? = none :=
        List.getElem?_eq_none (h.length_eq ▸ Nat.not_lt.mp hlt)
      simp [hnone, hlt]
  have hcount := congrArg (List.countP id) hslots
  rw [List.countP_map, List.countP_map] at hcount
  unfold Shutdown.listenerCount Channel.listenerCount present
  rw [← List.countP_eq_length_filter, ← List.countP_eq_length_filter]
  exact hcount

/-- The announcement is sent unless nobody listens, who could then not be waiting for it. -/
theorem trigger_first (h : Reflects past w) (hnot : .trigger ∉ past) :
    Reflects (past ++ [.trigger]) { w with shutdown := ⟨w.shutdown.channel.send, true⟩ } := by
  have hsent := h.unsent hnot
  have hdue (slot : Nat) (hslot : slot ∈ present past) :
      due past slot = 0 ∧ due (past ++ [.trigger]) slot = 1 := by
    have hlt := (mem_present.mp hslot).1
    have hundue : ¬ Due past slot := fun hdue => hnot hdue.1
    simp [due, due_append_trigger, hnot, hlt, hundue]
  have hchannel : w.shutdown.channel.send =
      { w.shutdown.channel with sent := if present past = [] then 0 else 1 } := by
    have hcount : w.shutdown.channel.listenerCount = (present past).length := h.listenerCount_eq
    unfold Channel.send
    by_cases hnone : present past = []
    · have hzero : w.shutdown.channel.listenerCount = 0 := by rw [hcount, hnone, List.length_nil]
      rw [if_pos hzero, if_pos hnone, ← hsent]
    · have hsome : w.shutdown.channel.listenerCount ≠ 0 := by
        rw [hcount]
        exact mt List.length_eq_zero_iff.mp hnone
      rw [if_neg hsome, if_neg hnone, hsent]
  rw [hchannel]
  exact {
    capacity_eq := h.capacity_eq
    isOpen_iff := by simpa using h.isOpen_iff
    triggered_iff := by simp
    length_eq := by simpa [came_append] using h.length_eq
    left := fun slot hleft => h.left slot (by simpa using hleft)
    listens := by
      intro slot hslot
      have hbefore : slot ∈ present past := by simpa [mem_present, came_append] using hslot
      have hne : present past ≠ [] := List.ne_nil_of_mem hbefore
      obtain ⟨heard, hheard, hsum⟩ := h.listens slot hbefore
      obtain ⟨hundue, hwaits⟩ := hdue slot hbefore
      refine ⟨heard, hheard, ?_⟩
      change heard + due (past ++ [.trigger]) slot = if present past = [] then 0 else 1
      rw [hwaits, if_neg hne]
      omega
    unsent := fun hlater => absurd (by simp) hlater
    notLagged := h.notLagged
    fired := h.fired_append (by simp) }

theorem trigger (h : Reflects past w) :
    Reflects (past ++ [.trigger]) { w with shutdown := w.shutdown.trigger } := by
  unfold Shutdown.trigger
  by_cases htriggered : .trigger ∈ past
  · rw [if_pos (h.triggered_iff.mpr htriggered)]
    exact h.trigger_again htriggered
  · rw [if_neg (h.triggered_iff.not.mpr htriggered)]
    exact h.trigger_first htriggered

/-- A listener that looks finds what it is to find. -/
theorem poll?_eq (h : Reflects past w) (hslot : slot ∈ present past) :
    ∃ listeners, w.shutdown.poll? slot = some (finds past slot,
        { w.shutdown with channel := { w.shutdown.channel with listeners } }) ∧
      listeners.length = w.shutdown.channel.listeners.length ∧
      listeners[slot]? = some (some w.shutdown.channel.sent) ∧
      ∀ other, other ≠ slot → listeners[other]? = w.shutdown.channel.listeners[other]? := by
  obtain ⟨heard, hheard, hsum⟩ := h.listens slot hslot
  obtain ⟨hold, hnew⟩ := poll?_of_heard h.capacity_eq hheard
  unfold Shutdown.poll?
  by_cases hdue : Due past slot
  · have hlt := (List.getElem?_eq_some_iff.mp hheard).1
    have hsent : heard + 1 = w.shutdown.channel.sent := by simpa [due, hdue] using hsum
    rw [hnew hsent]
    refine ⟨_, by simp [finds, hdue], List.length_set, List.getElem?_set_self hlt, ?_⟩
    intro other hother
    exact List.getElem?_set_ne (Ne.symm hother)
  · have hsent : heard = w.shutdown.channel.sent := by simpa [due, hdue] using hsum
    have hopen := h.isOpen_iff
    rw [hold hsent]
    refine ⟨w.shutdown.channel.listeners, ?_, rfl, hsent ▸ hheard, fun _ _ => rfl⟩
    by_cases hclosed : .close ∈ past
    · simp [finds, hdue, hclosed, hopen]
    · simp [finds, hdue, hclosed, hopen]

theorem receive (h : Reflects past w) (hslot : slot ∈ present past) :
    ∃ v, w.step? (.receive slot) = some v ∧ Reflects (past ++ [.receive slot]) v := by
  obtain ⟨listeners, hpoll, hlength, hself, hothers⟩ := h.poll?_eq hslot
  refine ⟨_, by rw [Audience.step?, hpoll]; rfl, ?_⟩
  have hpresent : .leave slot ∉ past := (mem_present.mp hslot).2
  exact {
    capacity_eq := h.capacity_eq
    isOpen_iff := by simpa using h.isOpen_iff
    triggered_iff := by simpa using h.triggered_iff
    length_eq := by simpa [came_append, hlength] using h.length_eq
    left := by
      intro other hleft
      have hbefore : .leave other ∈ past := by simpa using hleft
      have hother : other ≠ slot := by
        rintro rfl
        exact hpresent hbefore
      exact (hothers other hother).trans (h.left other hbefore)
    listens := by
      intro other hstays
      have hbefore : other ∈ present past := by simpa [mem_present, came_append] using hstays
      by_cases hother : other = slot
      · subst hother
        exact ⟨w.shutdown.channel.sent, hself, by simp [due, not_due_append_receive]⟩
      · obtain ⟨heard, hheard, hsum⟩ := h.listens other hbefore
        refine ⟨heard, (hothers other hother).trans hheard, ?_⟩
        simpa [due, due_append_of_ne, Ne.symm hother] using hsum
    unsent := fun hnot => h.unsent (by simpa using hnot)
    notLagged := by
      intro other
      rw [Audience.foundBy_append, List.mem_append, not_or]
      refine ⟨h.notLagged other, ?_⟩
      unfold finds
      split_ifs <;> simp
    fired := by
      intro other
      have hbefore := h.fired other
      rw [Audience.foundBy_append, List.count_append]
      by_cases hother : slot = other
      · subst hother
        rw [hbefore, if_pos rfl]
        exact count_told past slot
      · have hne : Request.receive slot ≠ .receive other := by simpa using hother
        simp only [if_neg hother, List.count_nil, Nat.add_zero, told_append_of_ne hne]
        exact hbefore }

/-! ### A run -/

/-- What is allowed can be asked, and leaves things as it should. -/
theorem step (h : Reflects past w) {r : Request} (hr : Allowed past r) :
    ∃ v, w.step? r = some v ∧ Reflects (past ++ [r]) v := by
  cases r with
  | subscribe => exact ⟨_, if_pos (h.isOpen_iff.mpr hr), h.subscribe⟩
  | trigger => exact ⟨_, if_pos (h.isOpen_iff.mpr hr), h.trigger⟩
  | close => exact ⟨_, if_pos (h.isOpen_iff.mpr hr), h.close⟩
  | receive slot => exact h.receive hr
  | leave slot =>
    obtain ⟨heard, hheard, -⟩ := h.listens slot hr
    have hthere : w.shutdown.channel.listeners[slot]?.join.isSome := by rw [hheard]; rfl
    exact ⟨_, if_pos hthere, h.leave hr⟩

end Reflects

theorem orderly_append {past : List Request} {r : Request} (h : Orderly (past ++ [r])) :
    Orderly past ∧ Allowed past r := by
  constructor
  · intro i hi
    have hi' : i < (past ++ [r]).length := by rw [List.length_append]; omega
    have hbefore := h i hi'
    rwa [List.take_append_of_le_length (Nat.le_of_lt hi), List.getElem_append_left hi] at hbefore
  · simpa using h past.length (by simp)

theorem run?_reflects {requests : List Request} (h : Orderly requests) :
    ∃ w, Audience.run? .new requests = some w ∧ Reflects requests w := by
  induction requests using List.reverseRecOn with
  | nil => exact ⟨.new, rfl, reflects_new⟩
  | append_singleton past r ih =>
    obtain ⟨hpast, hr⟩ := orderly_append h
    obtain ⟨w, hrun, hw⟩ := ih hpast
    obtain ⟨v, hstep, hv⟩ := hw.step hr
    refine ⟨v, ?_, hv⟩
    unfold Audience.run? at hrun ⊢
    rw [takeSteps?_append, hrun, Option.bind_some, takeSteps?_cons hstep]
    rfl

/-- Everything that may be asked gets an answer. Announcements were made from the first on, slots
are given in turn, and those who listen are counted. Whoever came before the first announcement finds it
when it first looks after it, then nothing, and that the announcer is gone once it is; whoever came
later finds nothing, or that. Nobody finds the announcement twice or is told that it missed any. -/
theorem announced_once {requests : List Request} (h : Orderly requests) :
    ∃ w, Audience.run? .new requests = some w ∧
      (w.shutdown.triggered = true ↔ .trigger ∈ requests) ∧
      w.shutdown.subscribe.1 = came requests ∧
      w.shutdown.listenerCount = (present requests).length ∧
      (∀ slot ∈ present requests,
        (w.shutdown.poll? slot).map Prod.fst = some (finds requests slot)) ∧
      ∀ slot, .lagged ∉ w.foundBy slot ∧
        (w.foundBy slot).count .fired = if Told requests slot then 1 else 0 := by
  obtain ⟨w, hrun, hw⟩ := run?_reflects h
  refine ⟨w, hrun, hw.triggered_iff, hw.length_eq, hw.listenerCount_eq, ?_, ?_⟩
  · intro slot hslot
    obtain ⟨listeners, hpoll, -⟩ := hw.poll?_eq hslot
    rw [hpoll]
    rfl
  · intro slot
    exact ⟨hw.notLagged slot, hw.fired slot⟩

/-- Two listeners come, the announcement is made twice, and one comes too late. -/
theorem announced_once_to_two :
    let asked : List Request := [.subscribe, .subscribe, .receive 0, .trigger, .subscribe, .trigger,
      .receive 0, .receive 0, .receive 2, .leave 0, .close, .receive 2]
    Orderly asked ∧ ∃ w, Audience.run? .new asked = some w ∧
      w.shutdown.triggered = true ∧
      w.shutdown.subscribe.1 = 3 ∧
      w.shutdown.listenerCount = 2 ∧
      (w.shutdown.poll? 1).map Prod.fst = some .fired ∧
      (w.shutdown.poll? 2).map Prod.fst = some .closed ∧
      (w.foundBy 0).count .fired = 1 ∧ (w.foundBy 2).count .fired = 0 := by
  intro asked
  have horderly : Orderly asked := by decide
  obtain ⟨w, hrun, htriggered, hslot, hcount, hpoll, hfound⟩ := announced_once horderly
  exact ⟨horderly, w, hrun, htriggered.mpr (by decide), hslot, hcount, hpoll 1 (by decide),
    hpoll 2 (by decide), (hfound 0).2, (hfound 2).2⟩

end Gateway.App.Shutdown
