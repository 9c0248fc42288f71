import Gateway.Proofs.App.Moves
import Mathlib.Data.List.Basic

/-! The children that were launched, each with the start that launched it, and those that a stop has
marked while they held the slot. Every child is followed by its start until that has returned. -/
namespace Gateway.App

/-- The child that a start has launched, until it returns. -/
def StartPhase.child? : StartPhase → Option Nat
  | waiting c | reaped c _ | released c _ _ => some c
  | called | ready _ | returned _ => none

/-- Starts and stops with what has happened so far: by which start each child was launched, and
which children were marked. -/
structure Record where
  supervision : Supervision
  launches : List Nat
  marks : List Nat

namespace Record

def new (settings : Config.AppSettings) : Record := ⟨.new settings, [], []⟩

def launchedBy (r : Record) : Step → List Nat
  | .launch i (.ok _) => if r.supervision.slot = .idle then [i] else []
  | _ => []

def markedBy (r : Record) : Step → List Nat
  | .mark _ => match r.supervision.slot with
    | .running c _ => [c]
    | .idle => []
  | _ => []

def step? (r : Record) (e : Step) : Option Record :=
  (r.supervision.step? e).map fun s => ⟨s, r.launches ++ r.launchedBy e, r.marks ++ r.markedBy e⟩

def run? (r : Record) (steps : List Step) : Option Record := takeSteps? step? r steps

/-- The history follows the run and has no part in it. -/
theorem run?_supervision (r : Record) (steps : List Step) :
    (r.run? steps).map (·.supervision) = r.supervision.run? steps := by
  induction steps generalizing r with
  | nil => rfl
  | cons e rest ih =>
    rw [run?, takeSteps?, Supervision.run?, step?]
    cases r.supervision.step? e with
    | none => rfl
    | some s => exact ih _

theorem launchedBy_of_free (r : Record) {e : Step} (he : e.isLocked = false) :
    r.launchedBy e = [] := by
  cases e <;> first | rfl | cases he

theorem markedBy_of_free (r : Record) {e : Step} (he : e.isLocked = false) :
    r.markedBy e = [] := by
  cases e <;> first | rfl | cases he

theorem step?_of_move {r : Record} {e : Step} {s : Supervision} {launches marks : List Nat}
    (h : Supervision.Move r.supervision e s) (hlaunches : r.launches ++ r.launchedBy e = launches)
    (hmarks : r.marks ++ r.markedBy e = marks) : r.step? e = some ⟨s, launches, marks⟩ := by
  unfold step?
  rw [h.step?_eq, hlaunches, hmarks]
  rfl

/-- How far a start has come with its child, while the slot is this and the child marked or not. -/
inductive Follows (slot : Slot) (c : Nat) (marked : Bool) : Child → StartPhase → Prop
  | waiting {pid : Nat} {life : Life} (hslot : slot = .running c marked) :
    Follows slot c marked ⟨pid, life, false⟩ (.waiting c)
  | reaped {pid : Nat} {status : ExitStatus} {known : Option ExitStatus}
      (hslot : slot = .running c marked) (hknown : ∀ st ∈ known, st = status) :
    Follows slot c marked ⟨pid, .reaped status, false⟩ (.reaped c known)
  | released {pid : Nat} {status : ExitStatus} {known : Option ExitStatus}
      (hslot : ∀ stopping, slot ≠ .running c stopping) (hknown : ∀ st ∈ known, st = status) :
    Follows slot c marked ⟨pid, .reaped status, false⟩ (.released c known marked)
  | returned {pid : Nat} {status : ExitStatus} {known : Option ExitStatus}
      (hslot : ∀ stopping, slot ≠ .running c stopping) (hknown : ∀ st ∈ known, st = status) :
    Follows slot c marked ⟨pid, .reaped status, true⟩
      (.returned (Supervision.resultOf known marked))

/-- Every child is followed by the start that launched it. -/
structure Sound (r : Record) : Prop where
  length_eq : r.launches.length = r.supervision.children.length
  followed : ∀ c i, r.launches[c]? = some i → ∃ child p, r.supervision.children[c]? = some child ∧
    r.supervision.starts[i]? = some p ∧
    Follows r.supervision.slot c (decide (c ∈ r.marks)) child p
  own : ∀ i c, ∀ p : StartPhase, r.supervision.starts[i]? = some p → p.child? = some c →
    r.launches[c]? = some i
  slot_lt : ∀ c stopping, r.supervision.slot = .running c stopping →
    c < r.supervision.children.length
  marks_lt : ∀ c ∈ r.marks, c < r.supervision.children.length

theorem sound_new (settings : Config.AppSettings) : (new settings).Sound where
  length_eq := rfl
  followed := fun c i h => by simp [new] at h
  own := fun i c p h => by simp [new, Supervision.new] at h
  slot_lt := fun c stopping h => by cases h
  marks_lt := fun c h => (List.not_mem_nil h).elim

namespace Follows
variable {slot slot' : Slot} {c : Nat} {marked : Bool} {child : Child} {p : StartPhase}

theorem eq_of_child? (h : Follows slot c marked child p) {d : Nat} (hp : p.child? = some d) :
    d = c := by
  cases h <;> cases hp <;> rfl

theorem not_called (h : Follows slot c marked child p) : p ≠ .called := by
  cases h <;> exact nofun

theorem not_ready (h : Follows slot c marked child p) (command : Command) :
    p ≠ .ready command := by
  cases h <;> exact nofun

theorem child?_of_alive (h : Follows slot c marked child p) (hlife : child.life = .alive) :
    p.child? = some c := by
  cases h with
  | waiting => rfl
  | reaped | released | returned => cases hlife

theorem child?_of_announced (h : Follows slot c marked child p)
    (hannounced : child.announced = true) : p.child? = none := by
  cases h with
  | returned => rfl
  | waiting | reaped | released => cases hannounced

/-- What holds the slot is still to be released. -/
theorem of_running (h : Follows slot c marked child p) {stopping : Bool}
    (hslot : slot = .running c stopping) : stopping = marked ∧ p.child? = some c := by
  cases h with
  | waiting hmarked =>
    obtain ⟨-, heq⟩ := Slot.running.inj (hslot.symm.trans hmarked)
    exact ⟨heq, rfl⟩
  | reaped hmarked =>
    obtain ⟨-, heq⟩ := Slot.running.inj (hslot.symm.trans hmarked)
    exact ⟨heq, rfl⟩
  | released hnot => exact absurd hslot (hnot stopping)
  | returned hnot => exact absurd hslot (hnot stopping)

/-- The slot matters only as far as it holds this child. -/
theorem congr (h : Follows slot c marked child p)
    (hslot : ∀ stopping, slot' = .running c stopping ↔ slot = .running c stopping) :
    Follows slot' c marked child p := by
  cases h with
  | waiting hmarked => exact .waiting ((hslot _).mpr hmarked)
  | reaped hmarked hknown => exact .reaped ((hslot _).mpr hmarked) hknown
  | released hnot hknown => exact .released (fun b hb => hnot b ((hslot b).mp hb)) hknown
  | returned hnot hknown => exact .returned (fun b hb => hnot b ((hslot b).mp hb)) hknown

end Follows

section Preserved
variable {r r' : Record} (h : r.Sound)
include h

/-- The stops and the figures do not matter. -/
theorem Sound.of_eq (hslot : r'.supervision.slot = r.supervision.slot)
    (hchildren : r'.supervision.children = r.supervision.children)
    (hstarts : r'.supervision.starts = r.supervision.starts)
    (hlaunches : r'.launches = r.launches) (hmarks : r'.marks = r.marks) : r'.Sound where
  length_eq := by rw [hlaunches, hchildren, h.length_eq]
  followed := by
    rw [hlaunches, hchildren, hstarts, hslot, hmarks]
    exact h.followed
  own := by
    rw [hlaunches, hstarts]
    exact h.own
  slot_lt := by
    rw [hslot, hchildren]
    exact h.slot_lt
  marks_lt := by
    rw [hmarks, hchildren]
    exact h.marks_lt

/-- Some start that has launched nothing yet goes on, or is called, and still launches nothing. -/
theorem Sound.early {i : Nat} {p : StartPhase}
    (hslot : r'.supervision.slot = r.supervision.slot)
    (hchildren : r'.supervision.children = r.supervision.children)
    (hlaunches : r'.launches = r.launches) (hmarks : r'.marks = r.marks)
    (hbefore : ∀ q ∈ r.supervision.starts[i]?, q = .called ∨ ∃ command, q = .ready command)
    (hstarts : ∀ k, r'.supervision.starts[k]? = if k = i then some p else r.supervision.starts[k]?)
    (hp : p.child? = none) : r'.Sound where
  length_eq := by rw [hlaunches, hchildren, h.length_eq]
  followed := by
    rw [hlaunches, hchildren, hslot, hmarks]
    intro c k hk
    obtain ⟨child, q, hchild, hq, hfollows⟩ := h.followed c k hk
    refine ⟨child, q, hchild, ?_, hfollows⟩
    rw [hstarts, if_neg]
    · exact hq
    · rintro rfl
      rcases hbefore q hq with rfl | ⟨command, rfl⟩
      · exact hfollows.not_called rfl
      · exact hfollows.not_ready command rfl
  own := by
    rw [hlaunches]
    intro k c q hq hc
    rw [hstarts] at hq
    split_ifs at hq
    · cases hq
      rw [hp] at hc
      cases hc
    · exact h.own k c q hq hc
  slot_lt := by
    rw [hslot, hchildren]
    exact h.slot_lt
  marks_lt := by
    rw [hmarks, hchildren]
    exact h.marks_lt

/-- The child of a start that has not returned is followed by this start. -/
theorem Sound.follows {i c : Nat} {p : StartPhase} (hstart : r.supervision.starts[i]? = some p)
    (hp : p.child? = some c) : ∃ child, r.supervision.children[c]? = some child ∧
      Follows r.supervision.slot c (decide (c ∈ r.marks)) child p := by
  obtain ⟨child, q, hchild, hq, hfollows⟩ := h.followed c i (h.own i c p hstart hp)
  obtain rfl := Option.some.inj (hq.symm.trans hstart)
  exact ⟨child, hchild, hfollows⟩

theorem Sound.launcher {c : Nat} {child : Child}
    (hchild : r.supervision.children[c]? = some child) :
    ∃ i p, r.launches[c]? = some i ∧ r.supervision.starts[i]? = some p ∧
      Follows r.supervision.slot c (decide (c ∈ r.marks)) child p := by
  obtain ⟨hlt, -⟩ := List.getElem?_eq_some_iff.mp hchild
  have hlaunch := List.getElem?_eq_getElem (h.length_eq.symm ▸ hlt : c < r.launches.length)
  obtain ⟨child', p, hchild', hp, hfollows⟩ := h.followed c _ hlaunch
  obtain rfl := Option.some.inj (hchild'.symm.trans hchild)
  exact ⟨_, p, hlaunch, hp, hfollows⟩

/-- A child and the start that follows it go on together; the slot may let this child go. -/
theorem Sound.moved {i c : Nat} {p p' : StartPhase} {child' : Child}
    (hstart : r.supervision.starts[i]? = some p) (hp : p.child? = some c)
    (hlaunches : r'.launches = r.launches) (hmarks : r'.marks = r.marks)
    (hlength : r'.supervision.children.length = r.supervision.children.length)
    (hchildren : ∀ d, r'.supervision.children[d]? =
      if d = c then some child' else r.supervision.children[d]?)
    (hstarts : ∀ k, r'.supervision.starts[k]? =
      if k = i then some p' else r.supervision.starts[k]?)
    (hslot : ∀ d stopping, d ≠ c →
      (r'.supervision.slot = .running d stopping ↔ r.supervision.slot = .running d stopping))
    (hafter : Follows r'.supervision.slot c (decide (c ∈ r.marks)) child' p') : r'.Sound where
  length_eq := by rw [hlaunches, hlength, h.length_eq]
  followed := by
    rw [hlaunches, hmarks]
    intro d k hk
    obtain ⟨child, q, hchild, hq, hfollows⟩ := h.followed d k hk
    by_cases hd : d = c
    · subst hd
      obtain rfl := Option.some.inj ((h.own i d p hstart hp).symm.trans hk)
      exact ⟨child', p', by rw [hchildren, if_pos rfl], by rw [hstarts, if_pos rfl], hafter⟩
    · refine ⟨child, q, ?_, ?_, hfollows.congr fun stopping => hslot d stopping hd⟩
      · rw [hchildren, if_neg hd]
        exact hchild
      · rw [hstarts, if_neg]
        · exact hq
        · rintro rfl
          obtain rfl := Option.some.inj (hq.symm.trans hstart)
          exact hd (hfollows.eq_of_child? hp).symm
  own := by
    rw [hlaunches]
    intro k d q hq hd
    rw [hstarts] at hq
    split_ifs at hq with hk
    · cases hq
      rw [hafter.eq_of_child? hd, hk]
      exact h.own i c p hstart hp
    · exact h.own k d q hq hd
  slot_lt := by
    rw [hlength]
    intro d stopping hd
    by_cases heq : d = c
    · rw [heq, ← h.length_eq]
      exact (List.getElem?_eq_some_iff.mp (h.own i c p hstart hp)).1
    · exact h.slot_lt d stopping ((hslot d stopping heq).mp hd)
  marks_lt := by
    rw [hmarks, hlength]
    exact h.marks_lt

end Preserved

theorem Sound.launched {r : Record} (h : r.Sound) {i : Nat} {command : Command} (pid : Nat)
    (hstart : r.supervision.starts[i]? = some (.ready command))
    (hslot : r.supervision.slot = .idle) :
    (⟨r.supervision.launched i pid, r.launches ++ [i], r.marks⟩ : Record).Sound := by
  have hlength := h.length_eq
  have hstarts := Supervision.getElem?_set_start (.waiting r.supervision.children.length) hstart
  refine ⟨by simp [hlength], ?_, ?_, ?_, ?_⟩
  · intro c k hk
    rcases Nat.lt_or_ge c r.launches.length with hc | hc
    · rw [List.getElem?_append_left hc] at hk
      obtain ⟨child, q, hchild, hq, hfollows⟩ := h.followed c k hk
      have hki : k ≠ i := by
        rintro rfl
        exact hfollows.not_ready command (Option.some.inj (hq.symm.trans hstart))
      refine ⟨child, q, ?_, ?_, hfollows.congr fun stopping => ?_⟩
      · exact (List.getElem?_append_left (hlength ▸ hc)).trans hchild
      · exact (hstarts k).trans ((if_neg hki).trans hq)
      · rw [hslot]
        refine ⟨fun hrunning => ?_, nofun⟩
        obtain ⟨rfl, -⟩ := Slot.running.inj hrunning
        exact absurd hc (Nat.not_lt.mpr (Nat.le_of_eq hlength))
    · rw [List.getElem?_append_right hc] at hk
      obtain ⟨hlt, hik⟩ := List.getElem?_eq_some_iff.mp hk
      have hcnew : c = r.supervision.children.length := by
        rw [List.length_singleton] at hlt
        omega
      have hki : i = k := by simpa using hik
      subst hcnew hki
      have hmarked : r.supervision.children.length ∉ r.marks := fun hmem =>
        Nat.lt_irrefl _ (h.marks_lt _ hmem)
      refine ⟨⟨pid, .alive, false⟩, .waiting r.supervision.children.length, ?_, ?_, ?_⟩
      · exact List.getElem?_concat_length
      · exact (hstarts i).trans (if_pos rfl)
      · rw [decide_eq_false hmarked]
        exact .waiting rfl
  · intro k c p hp hc
    have hp := (hstarts k).symm.trans hp
    split_ifs at hp with hk
    · cases hp
      cases hc
      rw [hk, ← hlength]
      exact List.getElem?_concat_length
    · have hlaunch := h.own k c p hp hc
      obtain ⟨hlt, -⟩ := List.getElem?_eq_some_iff.mp hlaunch
      exact (List.getElem?_append_left hlt).trans hlaunch
  · intro c stopping hc
    obtain ⟨rfl, -⟩ := Slot.running.inj hc
    simp
  · intro c hc
    have hlt := h.marks_lt c hc
    simp only [Supervision.children_launched, List.length_append]
    omega

theorem Sound.marked {r : Record} (h : r.Sound) {c : Nat} {stopping : Bool} {s : Supervision}
    (hslot : r.supervision.slot = .running c stopping) (hmarked : s.slot = .running c true)
    (hchildren : s.children = r.supervision.children) (hstarts : s.starts = r.supervision.starts) :
    (⟨s, r.launches, r.marks ++ [c]⟩ : Record).Sound where
  length_eq := by rw [hchildren, h.length_eq]
  followed := by
    intro d k hk
    obtain ⟨child, q, hchild, hq, hfollows⟩ := h.followed d k hk
    refine ⟨child, q, by rw [hchildren, hchild], by rw [hstarts, hq], ?_⟩
    by_cases hd : d = c
    · subst hd
      have hmem : d ∈ r.marks ++ [d] := List.mem_append_right _ List.mem_cons_self
      rw [decide_eq_true hmem, hmarked]
      obtain ⟨-, hphase⟩ := hfollows.of_running hslot
      cases hfollows with
      | waiting => exact .waiting rfl
      | reaped _ hknown => exact .reaped rfl hknown
      | released hnot => exact absurd hslot (hnot stopping)
      | returned hnot => exact absurd hslot (hnot stopping)
    · have hmem : (d ∈ r.marks ++ [c]) = (d ∈ r.marks) := by simp [hd]
      simp only [hmem, hmarked]
      refine hfollows.congr fun b => ?_
      rw [hslot]
      simp [Ne.symm hd]
  own := by
    rw [hstarts]
    exact h.own
  slot_lt := by
    intro d b hd
    obtain ⟨rfl, -⟩ := Slot.running.inj (hmarked.symm.trans hd)
    rw [hchildren]
    exact h.slot_lt c stopping hslot
  marks_lt := by
    intro d hd
    rw [hchildren]
    rcases List.mem_append.mp hd with hd | hd
    · exact h.marks_lt d hd
    · rw [List.mem_singleton.mp hd]
      exact h.slot_lt c stopping hslot

theorem Sound.step {r r' : Record} (h : r.Sound) {e : Step} (hstep : r.step? e = some r') :
    r'.Sound := by
  obtain ⟨s, hs, rfl⟩ := Option.map_eq_some_iff.mp hstep
  cases Supervision.move_of_step? hs with
  | callStart =>
    refine h.early rfl rfl (List.append_nil _) (List.append_nil _) (fun q hq => ?_)
      (Supervision.getElem?_concat r.supervision.starts .called) rfl
    simp at hq
  | callStop => exact h.of_eq rfl rfl rfl (List.append_nil _) (List.append_nil _)
  | fit hstart hchecked =>
    exact h.early rfl rfl (List.append_nil _) (List.append_nil _)
      (fun q hq => .inl (Option.some.inj (hq.symm.trans hstart)))
      (Supervision.getElem?_set_start _ hstart) rfl
  | unfit hstart hchecked =>
    exact h.early rfl rfl (List.append_nil _) (List.append_nil _)
      (fun q hq => .inl (Option.some.inj (hq.symm.trans hstart)))
      (Supervision.getElem?_set_start _ hstart) rfl
  | @busy i c stopping command answer hstart hslot =>
    have hnone : r.launchedBy (.launch i answer) = [] := by
      cases answer with
      | error e => rfl
      | ok pid => exact if_neg (by rw [hslot]; exact nofun)
    rw [hnone]
    exact h.early rfl rfl (List.append_nil _) (List.append_nil _)
      (fun q hq => .inr ⟨command, Option.some.inj (hq.symm.trans hstart)⟩)
      (Supervision.getElem?_set_start _ hstart) rfl
  | @unlaunched i command error hstart hslot =>
    exact h.early rfl rfl (List.append_nil _) (List.append_nil _)
      (fun q hq => .inr ⟨command, Option.some.inj (hq.symm.trans hstart)⟩)
      (Supervision.getElem?_set_start _ hstart) rfl
  | @launched i pid command hstart hslot =>
    have hnew : r.launchedBy (.launch i (.ok pid)) = [i] := if_pos hslot
    have hmarks : r.marks ++ r.markedBy (.launch i (.ok pid)) = r.marks := List.append_nil _
    rw [hnew, hmarks]
    exact h.launched pid hstart hslot
  | @exit c pid announced status hchild =>
    obtain ⟨i, p, -, hstart, hfollows⟩ := h.launcher hchild
    cases hfollows with
    | waiting hslot =>
      exact h.moved hstart rfl (List.append_nil _) (List.append_nil _)
        (List.length_modify ..) (Supervision.getElem?_modify_child _ hchild)
        (Supervision.getElem?_kept hstart)
        (fun d stopping _ => Iff.rfl) (.waiting hslot)
  | @collect c pid announced status hchild =>
    obtain ⟨i, p, -, hstart, hfollows⟩ := h.launcher hchild
    cases hfollows with
    | waiting hslot =>
      exact h.moved hstart rfl (List.append_nil _) (List.append_nil _)
        (List.length_modify ..) (Supervision.getElem?_modify_child _ hchild)
        (Supervision.getElem?_kept hstart)
        (fun d stopping _ => Iff.rfl) (.waiting hslot)
  | @reap i c pid announced status hstart hchild =>
    obtain ⟨child, hchild', hfollows⟩ := h.follows hstart rfl
    obtain rfl := Option.some.inj (hchild'.symm.trans hchild)
    cases hfollows with
    | waiting hslot =>
      exact h.moved hstart rfl (List.append_nil _) (List.append_nil _)
        (List.length_modify ..) (Supervision.getElem?_modify_child _ hchild)
        (Supervision.getElem?_set_start _ hstart)
        (fun d stopping _ => Iff.rfl) (.reaped hslot (fun st hst => (Option.some.inj hst).symm))
  | @missed i c pid announced status hstart hchild =>
    obtain ⟨child, hchild', hfollows⟩ := h.follows hstart rfl
    obtain rfl := Option.some.inj (hchild'.symm.trans hchild)
    cases hfollows with
    | waiting hslot =>
      exact h.moved hstart rfl (List.append_nil _) (List.append_nil _) rfl
        (Supervision.getElem?_kept hchild)
        (Supervision.getElem?_set_start _ hstart)
        (fun d stopping _ => Iff.rfl) (.reaped hslot nofun)
  | @release i c status hstart =>
    obtain ⟨child, hchild, hfollows⟩ := h.follows hstart rfl
    cases hfollows with
    | reaped hslot hknown =>
      have hstopping : r.supervision.slot.isStopping = decide (c ∈ r.marks) := by rw [hslot]; rfl
      refine h.moved hstart rfl (List.append_nil _) (List.append_nil _) rfl
        (Supervision.getElem?_kept hchild)
        (Supervision.getElem?_set_start _ hstart) (fun d stopping hd => ?_) ?_
      · rw [hslot]
        exact ⟨nofun, fun heq => absurd (Slot.running.inj heq).1.symm hd⟩
      · rw [hstopping]
        exact .released nofun hknown
  | @announce i c status stopping hstart =>
    obtain ⟨child, hchild, hfollows⟩ := h.follows hstart rfl
    cases hfollows with
    | released hslot hknown =>
      exact h.moved hstart rfl (List.append_nil _) (List.append_nil _)
        (List.length_modify ..) (Supervision.getElem?_modify_child _ hchild)
        (Supervision.getElem?_set_start _ hstart)
        (fun d stopping _ => Iff.rfl) (.returned hslot hknown)
  | @passed j hstop hslot =>
    have hnone : r.markedBy (.mark j) = [] := by simp only [markedBy, hslot]
    rw [hnone]
    exact h.of_eq rfl rfl rfl (List.append_nil _) (List.append_nil _)
  | @marked j c stopping hstop hslot =>
    have hnew : r.markedBy (.mark j) = [c] := by simp only [markedBy, hslot]
    have hlaunches : r.launches ++ r.launchedBy (.mark j) = r.launches := List.append_nil _
    rw [hnew, hlaunches]
    exact h.marked hslot rfl rfl rfl
  | signal hstop => exact h.of_eq rfl rfl rfl (List.append_nil _) (List.append_nil _)
  | kill hstop => exact h.of_eq rfl rfl rfl (List.append_nil _) (List.append_nil _)
  | timeOut hstop => exact h.of_eq rfl rfl rfl (List.append_nil _) (List.append_nil _)
  | notice hstop hp hannounced => exact h.of_eq rfl rfl rfl (List.append_nil _) (List.append_nil _)

theorem Sound.run {r r' : Record} (h : r.Sound) {steps : List Step}
    (hrun : r.run? steps = some r') : r'.Sound :=
  takeSteps?_induct (fun _ _ _ hs hstep => hs.step hstep) h hrun

namespace Sound
variable {r : Record} (h : r.Sound)
include h

/-- A child that is not reaped holds the slot. -/
theorem slot_of_unreaped {c : Nat} {child : Child}
    (hchild : r.supervision.children[c]? = some child)
    (hlife : ∀ status, child.life ≠ .reaped status) :
    r.supervision.slot = .running c (decide (c ∈ r.marks)) := by
  obtain ⟨i, p, -, -, hfollows⟩ := h.launcher hchild
  cases hfollows with
  | waiting hslot => exact hslot
  | reaped hslot => exact hslot
  | @released pid status => exact absurd rfl (hlife status)
  | @returned pid status => exact absurd rfl (hlife status)

theorem stopping_iff {c : Nat} {stopping : Bool}
    (hslot : r.supervision.slot = .running c stopping) : stopping = true ↔ c ∈ r.marks := by
  obtain ⟨i, p, -, -, hfollows⟩ := h.launcher (List.getElem?_eq_getElem (h.slot_lt c _ hslot))
  obtain ⟨rfl, -⟩ := hfollows.of_running hslot
  exact decide_eq_true_iff

/-- What a start returns, once it has launched a child. -/
theorem result {c i : Nat} {result : Except SupervisorError Unit}
    (hlaunch : r.launches[c]? = some i)
    (hstart : r.supervision.starts[i]? = some (.returned result)) :
    ∃ pid status, r.supervision.children[c]? = some ⟨pid, .reaped status, true⟩ ∧
      ∃ known : Option ExitStatus, (∀ st ∈ known, st = status) ∧
        result = Supervision.resultOf known (decide (c ∈ r.marks)) := by
  obtain ⟨child, p, hchild, hp, hfollows⟩ := h.followed c i hlaunch
  obtain rfl := Option.some.inj (hp.symm.trans hstart)
  cases hfollows with
  | @returned pid status known hslot hknown => exact ⟨pid, status, hchild, known, hknown, rfl⟩

end Sound

end Record

end Gateway.App
