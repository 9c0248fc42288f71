import Gateway.Proofs.App.Children

/-! Starts and stops down to their single accesses. What they share is changed under a lock; whoever
takes the lock looks at the slot, and launching a child, noting it and leaving are steps of their
own, between which children may end and others go on outside the lock. -/
namespace Gateway.App

/-- Who holds the lock, and what it is about to do. -/
inductive Holder where
  /-- The slot was idle. -/
  | launching (start : Nat)
  /-- The child is there, and the slot does not hold it yet. -/
  | occupying (start child : Nat)
  /-- The child is reaped, and was marked or not. -/
  | clearing (start : Nat) (stopping : Bool)
  | marking (stop child : Nat)
  deriving DecidableEq

def Holder.party : Holder → Party
  | launching i | occupying i _ | clearing i _ => .start i
  | marking j _ => .stop j

structure Sectioned where
  record : Record
  holder : Option Holder

inductive Act where
  /-- A step that needs no lock. -/
  | free (e : Step)
  /-- Takes the lock and looks at the slot. -/
  | enter (party : Party)
  | spawn (start : Nat) (answer : Except SpawnError Nat)
  | occupy (start : Nat)
  | clear (start : Nat)
  | mark (stop : Nat)

def Act.party? : Act → Option Party
  | free e => e.party?
  | enter party => some party
  | spawn i _ | occupy i | clear i => some (.start i)
  | mark j => some (.stop j)

namespace Sectioned

def new (settings : Config.AppSettings) : Sectioned := ⟨.new settings, none⟩

def setStart (w : Sectioned) (i : Nat) (p : StartPhase) : Sectioned :=
  { w with record := { w.record with supervision := w.record.supervision.setStart i p } }

def setStop (w : Sectioned) (j : Nat) (p : StopPhase) : Sectioned :=
  { w with record := { w.record with supervision := w.record.supervision.setStop j p } }

def setSlot (w : Sectioned) (slot : Slot) : Sectioned :=
  { w with record := { w.record with supervision := { w.record.supervision with slot } } }

/-- The child is launched; the start waits for it once the slot holds it. -/
def spawned (w : Sectioned) (i pid : Nat) : Sectioned :=
  let s := w.record.supervision
  ⟨⟨{ s.launched i pid with slot := s.slot }, w.record.launches ++ [i], w.record.marks⟩,
    some (.occupying i s.children.length)⟩

def marked (w : Sectioned) (j c : Nat) : Sectioned :=
  let w := (w.setStop j (.marked c)).setSlot (.running c true)
  ⟨⟨w.record.supervision, w.record.launches, w.record.marks ++ [c]⟩, none⟩

def enterStart (w : Sectioned) (i : Nat) : Option Sectioned :=
  match w.record.supervision.starts[i]?, w.record.supervision.slot with
  | some (.ready _), .running _ _ => some (w.setStart i (.returned (.error .alreadyRunning)))
  | some (.ready _), .idle => some { w with holder := some (.launching i) }
  | some (.reaped _ _), slot => some { w with holder := some (.clearing i slot.isStopping) }
  | _, _ => none

def enterStop (w : Sectioned) (j : Nat) : Option Sectioned :=
  match w.record.supervision.stops[j]?, w.record.supervision.slot with
  | some .called, .idle => some (w.setStop j (.returned none (.ok ())))
  | some .called, .running c _ => some { w with holder := some (.marking j c) }
  | _, _ => none

def leave (w : Sectioned) : Sectioned := { w with holder := none }

def step? (w : Sectioned) : Act → Option Sectioned
  | .free e =>
    if e.isLocked || (w.holder.map Holder.party).any (e.party? = some ·) then none
    else (w.record.step? e).map fun record => { w with record }
  | .enter (.start i) => if w.holder = none then w.enterStart i else none
  | .enter (.stop j) => if w.holder = none then w.enterStop j else none
  | .spawn i answer =>
    if w.holder = some (.launching i) then
      match answer with
      | .error e => some (w.setStart i (.returned (.error (.spawn e)))).leave
      | .ok pid => some (w.spawned i pid)
    else none
  | .occupy i =>
    match w.holder with
    | some (.occupying k c) => if k = i then some (w.setSlot (.running c false)).leave else none
    | _ => none
  | .clear i =>
    match w.holder, w.record.supervision.starts[i]? with
    | some (.clearing k stopping), some (.reaped c status) =>
      if k = i then some ((w.setStart i (.released c status stopping)).setSlot .idle).leave
      else none
    | _, _ => none
  | .mark j =>
    match w.holder with
    | some (.marking k c) => if k = j then some (w.marked j c) else none
    | _ => none

def run? (w : Sectioned) (acts : List Act) : Option Sectioned := takeSteps? step? w acts

inductive Does (w : Sectioned) : Act → Sectioned → Prop
  | free {e : Step} {record : Record} (hlocked : e.isLocked = false)
      (hparty : ∀ h ∈ w.holder, e.party? ≠ some h.party)
      (hstep : w.record.step? e = some record) : Does w (.free e) { w with record }
  | busy {i c : Nat} {stopping : Bool} {command : Command} (hholder : w.holder = none)
      (hstart : w.record.supervision.starts[i]? = some (.ready command))
      (hslot : w.record.supervision.slot = .running c stopping) :
    Does w (.enter (.start i)) (w.setStart i (.returned (.error .alreadyRunning)))
  | launching {i : Nat} {command : Command} (hholder : w.holder = none)
      (hstart : w.record.supervision.starts[i]? = some (.ready command))
      (hslot : w.record.supervision.slot = .idle) :
    Does w (.enter (.start i)) { w with holder := some (.launching i) }
  | clearing {i c : Nat} {status : Option ExitStatus} (hholder : w.holder = none)
      (hstart : w.record.supervision.starts[i]? = some (.reaped c status)) :
    Does w (.enter (.start i))
      { w with holder := some (.clearing i w.record.supervision.slot.isStopping) }
  | passed {j : Nat} (hholder : w.holder = none)
      (hstop : w.record.supervision.stops[j]? = some .called)
      (hslot : w.record.supervision.slot = .idle) :
    Does w (.enter (.stop j)) (w.setStop j (.returned none (.ok ())))
  | marking {j c : Nat} {stopping : Bool} (hholder : w.holder = none)
      (hstop : w.record.supervision.stops[j]? = some .called)
      (hslot : w.record.supervision.slot = .running c stopping) :
    Does w (.enter (.stop j)) { w with holder := some (.marking j c) }
  | unspawned {i : Nat} {error : SpawnError} (hholder : w.holder = some (.launching i)) :
    Does w (.spawn i (.error error)) (w.setStart i (.returned (.error (.spawn error)))).leave
  | spawned {i pid : Nat} (hholder : w.holder = some (.launching i)) :
    Does w (.spawn i (.ok pid)) (w.spawned i pid)
  | occupied {i c : Nat} (hholder : w.holder = some (.occupying i c)) :
    Does w (.occupy i) (w.setSlot (.running c false)).leave
  | cleared {i c : Nat} {stopping : Bool} {status : Option ExitStatus}
      (hholder : w.holder = some (.clearing i stopping))
      (hstart : w.record.supervision.starts[i]? = some (.reaped c status)) :
    Does w (.clear i) ((w.setStart i (.released c status stopping)).setSlot .idle).leave
  | marked {j c : Nat} (hholder : w.holder = some (.marking j c)) :
    Does w (.mark j) (w.marked j c)

theorem does_of_step? {w w' : Sectioned} {a : Act} (h : w.step? a = some w') : Does w a w' := by
  cases a with
  | free e =>
    simp only [step?] at h
    split_ifs at h with hblocked
    rw [Bool.or_eq_true, not_or, Option.any_eq_true] at hblocked
    obtain ⟨record, hstep, rfl⟩ := Option.map_eq_some_iff.mp h
    refine .free (Bool.eq_false_iff.mpr hblocked.1) (fun holder hholder heq => ?_) hstep
    exact hblocked.2 ⟨holder.party, by simp [Option.mem_def.mp hholder], by simp [heq]⟩
  | enter party =>
    cases party with
    | start i =>
      simp only [step?] at h
      split_ifs at h with hholder
      unfold enterStart at h
      split at h
      · obtain rfl := Option.some.inj h
        exact .busy hholder ‹_› ‹_›
      · obtain rfl := Option.some.inj h
        exact .launching hholder ‹_› ‹_›
      · obtain rfl := Option.some.inj h
        exact .clearing hholder ‹_›
      · cases h
    | stop j =>
      simp only [step?] at h
      split_ifs at h with hholder
      unfold enterStop at h
      split at h
      · obtain rfl := Option.some.inj h
        exact .passed hholder ‹_› ‹_›
      · obtain rfl := Option.some.inj h
        exact .marking hholder ‹_› ‹_›
      · cases h
  | spawn i answer =>
    simp only [step?] at h
    split_ifs at h with hholder
    cases answer with
    | error error =>
      obtain rfl := Option.some.inj h
      exact .unspawned hholder
    | ok pid =>
      obtain rfl := Option.some.inj h
      exact .spawned hholder
  | occupy i =>
    simp only [step?] at h
    split at h
    · split_ifs at h with hi
      obtain rfl := Option.some.inj h
      exact .occupied (hi ▸ ‹_›)
    · cases h
  | clear i =>
    simp only [step?] at h
    split at h
    · split_ifs at h with hi
      obtain rfl := Option.some.inj h
      exact .cleared (hi ▸ ‹_›) ‹_›
    · cases h
  | mark j =>
    simp only [step?] at h
    split at h
    · split_ifs at h with hj
      obtain rfl := Option.some.inj h
      exact .marked (hj ▸ ‹_›)
    · cases h

theorem Does.step?_eq {w w' : Sectioned} {a : Act} (h : Does w a w') : w.step? a = some w' := by
  cases h with
  | @free e record hlocked hparty hstep =>
    have hfree : ¬ (e.isLocked || (w.holder.map Holder.party).any (e.party? = some ·)) = true := by
      rw [hlocked, Bool.false_or, Option.any_eq_true]
      rintro ⟨party, hholder, heq⟩
      obtain ⟨holder, hmem, rfl⟩ := Option.map_eq_some_iff.mp hholder
      exact hparty holder hmem (of_decide_eq_true heq)
    simp only [step?]
    rw [if_neg hfree, hstep]
    rfl
  | busy hholder hstart hslot | launching hholder hstart hslot =>
    simp only [step?, enterStart, hholder, hstart, hslot, if_true]
  | clearing hholder hstart => simp only [step?, enterStart, hholder, hstart, if_true]
  | passed hholder hstop hslot | marking hholder hstop hslot =>
    simp only [step?, enterStop, hholder, hstop, hslot, if_true]
  | unspawned hholder | spawned hholder => simp only [step?, hholder, if_true]
  | occupied hholder | marked hholder => simp only [step?, hholder, if_true]
  | cleared hholder hstart => simp only [step?, hholder, hstart, if_true]

/-- The holder of the lock is where it was when it took it, and so is the slot. -/
inductive Held (s : Supervision) : Option Holder → Prop
  | none : Held s none
  | launching {i : Nat} {command : Command} (hstart : s.starts[i]? = some (.ready command))
      (hslot : s.slot = .idle) : Held s (some (.launching i))
  | occupying {i c : Nat} (hstart : s.starts[i]? = some (.waiting c)) (hslot : s.slot = .idle) :
    Held s (some (.occupying i c))
  | clearing {i c : Nat} {status : Option ExitStatus} {stopping : Bool}
      (hstart : s.starts[i]? = some (.reaped c status)) (hslot : s.slot.isStopping = stopping) :
    Held s (some (.clearing i stopping))
  | marking {j c : Nat} {stopping : Bool} (hstop : s.stops[j]? = some .called)
      (hslot : s.slot = .running c stopping) : Held s (some (.marking j c))

/-- Steps outside the lock leave its holder and the slot alone. -/
theorem Held.free {s s' : Supervision} {holder : Option Holder} (h : Held s holder) {e : Step}
    (hlocked : e.isLocked = false) (hparty : ∀ h ∈ holder, e.party? ≠ some h.party)
    (hstep : s.step? e = some s') : Held s' holder := by
  obtain ⟨hslot', -⟩ := (Supervision.move_of_step? hstep).setSlot hlocked .idle
  cases h with
  | none => exact .none
  | launching hstart hslot =>
    exact .launching (Supervision.starts_of_step? hstep (hparty _ rfl) hstart) (hslot'.trans hslot)
  | occupying hstart hslot =>
    exact .occupying (Supervision.starts_of_step? hstep (hparty _ rfl) hstart) (hslot'.trans hslot)
  | clearing hstart hslot =>
    exact .clearing (Supervision.starts_of_step? hstep (hparty _ rfl) hstart) (hslot' ▸ hslot)
  | marking hstop hslot =>
    exact .marking (Supervision.stops_of_step? hstep (hparty _ rfl) hstop) (hslot'.trans hslot)

theorem Held.step {w w' : Sectioned} {a : Act} (h : Held w.record.supervision w.holder)
    (hdoes : Does w a w') : Held w'.record.supervision w'.holder := by
  cases hdoes with
  | free hlocked hparty hstep =>
    obtain ⟨s, hs, rfl⟩ := Option.map_eq_some_iff.mp hstep
    exact h.free hlocked hparty hs
  | busy hholder hstart hslot => exact hholder ▸ .none
  | launching hholder hstart hslot => exact .launching hstart hslot
  | clearing hholder hstart => exact .clearing hstart rfl
  | passed hholder hstop hslot => exact hholder ▸ .none
  | marking hholder hstop hslot => exact .marking hstop hslot
  | unspawned hholder => exact .none
  | @spawned i pid hholder =>
    rw [hholder] at h
    cases h with
    | launching hstart hslot =>
      exact .occupying ((Supervision.getElem?_set_start _ hstart i).trans (if_pos rfl)) hslot
  | occupied hholder => exact .none
  | cleared hholder hstart => exact .none
  | marked hholder => exact .none

/-- The same when every section is one step: a child that is launched holds the slot at once. -/
def atomic (w : Sectioned) : Record :=
  match w.holder with
  | some (.occupying _ c) => (w.setSlot (.running c false)).record
  | _ => w.record

theorem atomic_eq {w : Sectioned} (h : ∀ i c, w.holder ≠ some (.occupying i c)) :
    w.atomic = w.record := by
  unfold atomic
  split
  · exact absurd ‹_› (h _ _)
  · rfl

theorem step?_setSlot {r r' : Record} {e : Step} (he : e.isLocked = false)
    (h : r.step? e = some r') (slot : Slot) :
    Record.step? { r with supervision := { r.supervision with slot } } e =
      some { r' with supervision := { r'.supervision with slot } } := by
  obtain ⟨s, hs, rfl⟩ := Option.map_eq_some_iff.mp h
  obtain ⟨-, hmove⟩ := (Supervision.move_of_step? hs).setSlot he slot
  refine Record.step?_of_move hmove ?_ ?_
  · rw [Record.launchedBy_of_free _ he, Record.launchedBy_of_free _ he]
  · rw [Record.markedBy_of_free _ he, Record.markedBy_of_free _ he]

/-- Every access is either a whole step of its party or no step at all, and the steps without the
lock are the same ones. -/
theorem steps_of_does {w w' : Sectioned} {a : Act} (h : Held w.record.supervision w.holder)
    (hdoes : Does w a w') : ∃ steps, w.atomic.run? steps = some w'.atomic ∧
      ∀ e, e.isLocked = false → (e ∈ steps ↔ a = .free e) := by
  have hnone (ha : ∀ e, a ≠ .free e) (hsame : w'.atomic = w.atomic) :
      ∃ steps, w.atomic.run? steps = some w'.atomic ∧
        ∀ e, e.isLocked = false → (e ∈ steps ↔ a = .free e) :=
    ⟨[], congrArg some hsame.symm, fun e _ => iff_of_false List.not_mem_nil (ha e)⟩
  have hlocked (e : Step) (he : e.isLocked = true) (ha : ∀ e, a ≠ .free e)
      (hstep : w.atomic.step? e = some w'.atomic) :
      ∃ steps, w.atomic.run? steps = some w'.atomic ∧
        ∀ e, e.isLocked = false → (e ∈ steps ↔ a = .free e) := by
    refine ⟨[e], takeSteps?_cons hstep [], fun e' he' => iff_of_false ?_ (ha e')⟩
    rw [List.mem_singleton]
    rintro rfl
    exact nomatch he.symm.trans he'
  cases hdoes with
  | @free e record hfree hparty hstep =>
    have hatomic : w.atomic.step? e = some (atomic { w with record }) := by
      unfold atomic
      dsimp only
      split
      · exact step?_setSlot hfree hstep _
      · exact hstep
    refine ⟨[e], takeSteps?_cons hatomic [], fun e' _ => ?_⟩
    rw [List.mem_singleton, Act.free.injEq, eq_comm]
  | @busy i c stopping command hholder hstart hslot =>
    have hbefore : w.atomic = w.record := atomic_eq (by simp [hholder])
    have hafter := atomic_eq (w := w.setStart i (.returned (.error .alreadyRunning)))
      (by simp [setStart, hholder])
    refine hlocked (.launch i (.error .nulByte)) rfl (by simp) ?_
    rw [hbefore, hafter]
    exact Record.step?_of_move (.busy hstart hslot) (List.append_nil _) (List.append_nil _)
  | launching hholder hstart hslot =>
    have hbefore : w.atomic = w.record := atomic_eq (by simp [hholder])
    exact hnone (by simp) hbefore.symm
  | clearing hholder hstart =>
    have hbefore : w.atomic = w.record := atomic_eq (by simp [hholder])
    exact hnone (by simp) hbefore.symm
  | @passed j hholder hstop hslot =>
    have hbefore : w.atomic = w.record := atomic_eq (by simp [hholder])
    have hafter := atomic_eq (w := w.setStop j (.returned none (.ok ())))
      (by simp [setStop, hholder])
    have hmarked : w.record.markedBy (.mark j) = [] := by simp only [Record.markedBy, hslot]
    refine hlocked (.mark j) rfl (by simp) ?_
    rw [hbefore, hafter]
    refine Record.step?_of_move (.passed hstop hslot) (List.append_nil _) ?_
    rw [hmarked]
    exact List.append_nil _
  | marking hholder hstop hslot =>
    have hbefore : w.atomic = w.record := atomic_eq (by simp [hholder])
    exact hnone (by simp) hbefore.symm
  | @unspawned i error hholder =>
    have hbefore : w.atomic = w.record := atomic_eq (by simp [hholder])
    rw [hholder] at h
    cases h with
    | launching hstart hslot =>
      refine hlocked (.launch i (.error error)) rfl (by simp) ?_
      rw [hbefore]
      exact Record.step?_of_move (.unlaunched hstart hslot) (List.append_nil _) (List.append_nil _)
  | @spawned i pid hholder =>
    have hbefore : w.atomic = w.record := atomic_eq (by simp [hholder])
    rw [hholder] at h
    cases h with
    | launching hstart hslot =>
      have hlaunched : w.record.launchedBy (.launch i (.ok pid)) = [i] := if_pos hslot
      refine hlocked (.launch i (.ok pid)) rfl (by simp) ?_
      rw [hbefore]
      refine Record.step?_of_move (.launched hstart hslot) ?_ (List.append_nil _)
      rw [hlaunched]
      rfl
  | @occupied i c hholder =>
    refine hnone (by simp) ?_
    unfold atomic
    rw [hholder]
    rfl
  | @cleared i c stopping status hholder hstart =>
    have hbefore : w.atomic = w.record := atomic_eq (by simp [hholder])
    rw [hholder] at h
    cases h with
    | clearing _ hslot =>
      refine hlocked (.release i) rfl (by simp) ?_
      rw [hbefore, ← hslot]
      exact Record.step?_of_move (.release hstart) (List.append_nil _) (List.append_nil _)
  | @marked j c hholder =>
    have hbefore : w.atomic = w.record := atomic_eq (by simp [hholder])
    rw [hholder] at h
    cases h with
    | marking hstop hslot =>
      have hmarked : w.record.markedBy (.mark j) = [c] := by simp only [Record.markedBy, hslot]
      refine hlocked (.mark j) rfl (by simp) ?_
      rw [hbefore]
      refine Record.step?_of_move (.marked hstop hslot) (List.append_nil _) ?_
      rw [hmarked]
      rfl

theorem held_run {settings : Config.AppSettings} {acts : List Act} {w : Sectioned}
    (h : (new settings).run? acts = some w) : Held w.record.supervision w.holder :=
  takeSteps?_induct (P := fun w => Held w.record.supervision w.holder)
    (fun _ _ _ hheld hstep => hheld.step (does_of_step? hstep)) .none h

/-- Every run goes through states that whole steps reach. -/
theorem atomic_run {w w' : Sectioned} {acts : List Act}
    (hheld : Held w.record.supervision w.holder) (h : w.run? acts = some w') :
    ∃ steps, w.atomic.run? steps = some w'.atomic ∧
      ∀ e, e.isLocked = false → (e ∈ steps ↔ .free e ∈ acts) := by
  induction acts generalizing w with
  | nil =>
    obtain rfl := Option.some.inj h
    exact ⟨[], rfl, fun e _ => by simp⟩
  | cons a rest ih =>
    obtain ⟨v, hv, hrest⟩ := Option.bind_eq_some_iff.mp h
    have hdoes := does_of_step? hv
    obtain ⟨before, hbefore, hown⟩ := steps_of_does hheld hdoes
    obtain ⟨after, hafter, hothers⟩ := ih (hheld.step hdoes) hrest
    refine ⟨before ++ after, ?_, fun e he => ?_⟩
    · exact (takeSteps?_append _ _ _).trans (Option.bind_eq_some_iff.mpr ⟨_, hbefore, hafter⟩)
    · rw [List.mem_append, hown e he, hothers e he, List.mem_cons, eq_comm]

theorem sound_run {settings : Config.AppSettings} {acts : List Act} {w : Sectioned}
    (h : (new settings).run? acts = some w) : w.atomic.Sound := by
  obtain ⟨steps, hsteps, -⟩ := atomic_run .none h
  exact (Record.sound_new settings).run hsteps

def accesses (r : Record) : Step → List Act
  | .launch i answer =>
    match r.supervision.slot, answer with
    | .running _ _, _ => [.enter (.start i)]
    | .idle, .error _ => [.enter (.start i), .spawn i answer]
    | .idle, .ok _ => [.enter (.start i), .spawn i answer, .occupy i]
  | .release i => [.enter (.start i), .clear i]
  | .mark j =>
    match r.supervision.slot with
    | .running _ _ => [.enter (.stop j), .mark j]
    | .idle => [.enter (.stop j)]
  | e => [.free e]

theorem accesses_of_free (r : Record) {e : Step} (he : e.isLocked = false) :
    accesses r e = [.free e] := by
  cases e <;> first | rfl | cases he

theorem accesses_of_locked (r : Record) {e : Step} (he : e.isLocked = true) :
    ∀ a ∈ accesses r e, ∀ e', a ≠ .free e' := by
  cases e with
  | launch i answer =>
    simp only [accesses]
    split <;> simp
  | release i => simp [accesses]
  | mark j =>
    simp only [accesses]
    split <;> simp
  | callStart | callStop | check | exit | collect | reap | announce | signal | timeOut
  | notice => cases he

theorem Does.run?_cons {w v : Sectioned} {a : Act} (h : Does w a v) (rest : List Act) :
    w.run? (a :: rest) = v.run? rest := takeSteps?_cons h.step?_eq rest

theorem run?_accesses {r r' : Record} {e : Step} (h : r.step? e = some r') :
    (⟨r, none⟩ : Sectioned).run? (accesses r e) = some ⟨r', none⟩ := by
  cases hlocked : e.isLocked with
  | false =>
    rw [accesses_of_free r hlocked, (Does.free hlocked nofun h : Does ⟨r, none⟩ (.free e) _).run?_cons]
    rfl
  | true =>
    obtain ⟨s, hs, rfl⟩ := Option.map_eq_some_iff.mp h
    cases Supervision.move_of_step? hs with
    | @busy i c stopping command answer hstart hslot =>
      have hnone : r.launchedBy (.launch i answer) = [] := by
        cases answer with
        | error e => rfl
        | ok pid => exact if_neg (by rw [hslot]; exact nofun)
      have hacts : accesses r (.launch i answer) = [.enter (.start i)] := by
        simp only [accesses, hslot]
      have hmarked : r.marks ++ r.markedBy (.launch i answer) = r.marks := List.append_nil _
      have hdoes : Does ⟨r, none⟩ (.enter (.start i)) _ := .busy rfl hstart hslot
      rw [hacts, hdoes.run?_cons, hnone, hmarked, List.append_nil]
      rfl
    | @unlaunched i command error hstart hslot =>
      have hacts : accesses r (.launch i (.error error)) =
          [.enter (.start i), .spawn i (.error error)] := by
        simp only [accesses, hslot]
      have hlaunched : r.launches ++ r.launchedBy (.launch i (.error error)) = r.launches :=
        List.append_nil _
      have hmarked : r.marks ++ r.markedBy (.launch i (.error error)) = r.marks :=
        List.append_nil _
      have henter : Does ⟨r, none⟩ (.enter (.start i)) _ := .launching rfl hstart hslot
      have hspawn : Does ⟨r, some (.launching i)⟩ (.spawn i (.error error)) _ := .unspawned rfl
      rw [hacts, henter.run?_cons, hspawn.run?_cons, hlaunched, hmarked]
      rfl
    | @launched i pid command hstart hslot =>
      have hacts : accesses r (.launch i (.ok pid)) =
          [.enter (.start i), .spawn i (.ok pid), .occupy i] := by
        simp only [accesses, hslot]
      have hlaunched : r.launchedBy (.launch i (.ok pid)) = [i] := if_pos hslot
      have hmarked : r.marks ++ r.markedBy (.launch i (.ok pid)) = r.marks := List.append_nil _
      have henter : Does ⟨r, none⟩ (.enter (.start i)) _ := .launching rfl hstart hslot
      have hspawn : Does ⟨r, some (.launching i)⟩ (.spawn i (.ok pid)) _ := .spawned rfl
      have hoccupy : Does (spawned ⟨r, some (.launching i)⟩ i pid) (.occupy i) _ := .occupied rfl
      rw [hacts, henter.run?_cons, hspawn.run?_cons, hoccupy.run?_cons, hlaunched, hmarked]
      rfl
    | @release i c status hstart =>
      have hlaunched : r.launches ++ r.launchedBy (.release i) = r.launches := List.append_nil _
      have hmarked : r.marks ++ r.markedBy (.release i) = r.marks := List.append_nil _
      have henter : Does ⟨r, none⟩ (.enter (.start i)) _ := .clearing rfl hstart
      have hclear : Does ⟨r, some (.clearing i r.supervision.slot.isStopping)⟩ (.clear i) _ :=
        .cleared rfl hstart
      rw [hlaunched, hmarked]
      change run? _ [.enter (.start i), .clear i] = _
      rw [henter.run?_cons, hclear.run?_cons]
      rfl
    | @passed j hstop hslot =>
      have hacts : accesses r (.mark j) = [.enter (.stop j)] := by simp only [accesses, hslot]
      have hmarked : r.markedBy (.mark j) = [] := by simp only [Record.markedBy, hslot]
      have hlaunched : r.launches ++ r.launchedBy (.mark j) = r.launches := List.append_nil _
      have henter : Does ⟨r, none⟩ (.enter (.stop j)) _ := .passed rfl hstop hslot
      rw [hacts, henter.run?_cons, hmarked, hlaunched, List.append_nil]
      rfl
    | @marked j c stopping hstop hslot =>
      have hacts : accesses r (.mark j) = [.enter (.stop j), .mark j] := by
        simp only [accesses, hslot]
      have hmarked : r.markedBy (.mark j) = [c] := by simp only [Record.markedBy, hslot]
      have hlaunched : r.launches ++ r.launchedBy (.mark j) = r.launches := List.append_nil _
      have henter : Does ⟨r, none⟩ (.enter (.stop j)) _ := .marking rfl hstop hslot
      have hmark : Does ⟨r, some (.marking j c)⟩ (.mark j) _ := .marked rfl
      rw [hacts, henter.run?_cons, hmark.run?_cons, hmarked, hlaunched]
      rfl
    | callStart | callStop | fit | unfit | exit | collect | reap | missed | announce | signal
    | kill | timeOut | notice => cases hlocked

theorem exists_accesses {r r' : Record} {steps : List Step} (h : r.run? steps = some r') :
    ∃ acts, (⟨r, none⟩ : Sectioned).run? acts = some ⟨r', none⟩ := by
  induction steps generalizing r with
  | nil =>
    obtain rfl := Option.some.inj h
    exact ⟨[], rfl⟩
  | cons e rest ih =>
    obtain ⟨v, hv, hrest⟩ := Option.bind_eq_some_iff.mp h
    obtain ⟨acts, hacts⟩ := ih hrest
    refine ⟨accesses r e ++ acts, (takeSteps?_append _ _ _).trans ?_⟩
    exact Option.bind_eq_some_iff.mpr ⟨_, run?_accesses hv, hacts⟩

/-- When the lock is free, starts and stops are where whole steps bring them, and nowhere else. -/
theorem reached_iff_atomically (settings : Config.AppSettings) (s : Supervision) :
    (∃ acts r, (new settings).run? acts = some ⟨r, none⟩ ∧ r.supervision = s) ↔
      ∃ steps, (Supervision.new settings).run? steps = some s := by
  constructor
  · rintro ⟨acts, r, hacts, rfl⟩
    obtain ⟨steps, hsteps, -⟩ := atomic_run .none hacts
    refine ⟨steps, ?_⟩
    have hsame := (Record.new settings).run?_supervision steps
    rw [show (Record.new settings).run? steps = some r from hsteps] at hsame
    exact hsame.symm
  · rintro ⟨steps, hsteps⟩
    obtain ⟨r, hr, hs⟩ := Option.map_eq_some_iff.mp
      (((Record.new settings).run?_supervision steps).trans hsteps)
    obtain ⟨acts, hacts⟩ := exists_accesses hr
    exact ⟨acts, r, hacts, hs⟩

end Sectioned

end Gateway.App
