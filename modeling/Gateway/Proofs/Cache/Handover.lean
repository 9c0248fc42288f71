import Gateway.Proofs.Cache.Copying

/-! A captured body and its copy, poll by poll. The capture passes on what the body gives and says
of itself. The copy is handed over at most once: when the end of the body has been reached without
a failure, and its data has not outgrown the limit. It is then the data of all frames. -/
namespace Gateway

namespace Http

namespace Polled

def isFrame : Polled → Bool
  | frame _ => true
  | _ => false

def content : Polled → Bytes
  | frame f => f.content
  | _ => []

theorem content_of_no_frame {p : Polled} (h : p.isFrame = false) : p.content = [] := by
  cases p with
  | frame f => cases h
  | pending | failed | ended => rfl

end Polled

namespace Body

def polled (b : Body) (n : Nat) : Body := (fun d : Body => d.poll.2)^[n] b

theorem polled_succ (b : Body) (n : Nat) : b.polled (n + 1) = b.poll.2.polled n :=
  Function.iterate_succ_apply _ n b

def dataOf (steps : List (Polled × BodyReport)) : Bytes := steps.flatMap (·.1.content)

/-- The answer is the end, or a frame after which the body knows that it is at its end. -/
def IsLast (step : Polled × BodyReport) : Prop :=
  step.1 = .ended ∨ step.1.isFrame = true ∧ step.2.endStream = true

instance (step : Polled × BodyReport) : Decidable (IsLast step) :=
  inferInstanceAs (Decidable (_ ∨ _ ∧ _))

/-- These answers come to the end, and do not fail before. -/
inductive ReachesEnd : List (Polled × BodyReport) → Prop
  | here {step : Polled × BodyReport} {rest : List (Polled × BodyReport)} (h : IsLast step) :
    ReachesEnd (step :: rest)
  | later {step : Polled × BodyReport} {rest : List (Polled × BodyReport)}
      (h : step.1 ≠ .failed) (hrest : ReachesEnd rest) : ReachesEnd (step :: rest)

theorem reachesEnd_cons_iff {step : Polled × BodyReport} {rest : List (Polled × BodyReport)} :
    ReachesEnd (step :: rest) ↔ IsLast step ∨ step.1 ≠ .failed ∧ ReachesEnd rest := by
  constructor
  · intro h
    cases h with
    | here h => exact .inl h
    | later h hrest => exact .inr ⟨h, hrest⟩
  · rintro (h | ⟨h, hrest⟩)
    · exact .here h
    · exact .later h hrest

instance decidableReachesEnd :
    (steps : List (Polled × BodyReport)) → Decidable (ReachesEnd steps)
  | [] => .isFalse nofun
  | _ :: rest =>
    have := decidableReachesEnd rest
    decidable_of_iff _ reachesEnd_cons_iff.symm

/-- The end was known at once, or has been reached after so many polls. -/
def EndReached (b : Body) (n : Nat) : Prop :=
  b.report.endStream = true ∨ ReachesEnd (b.answers n)

instance (b : Body) (n : Nat) : Decidable (b.EndReached n) :=
  inferInstanceAs (Decidable (_ ∨ _))

def Spent (b : Body) : Prop := ∀ step ∈ b.polls, step.1.isFrame = false

instance (b : Body) : Decidable b.Spent := inferInstanceAs (Decidable (∀ _ ∈ _, _))

/-- A body gives no frame after its end, nor once it says that it is at its end. -/
structure Orderly (b : Body) : Prop where
  start : b.report.endStream = true → b.Spent
  later : b.polls.Pairwise fun s t => s.1 = .ended ∨ s.2.endStream = true → t.1.isFrame = false

instance (b : Body) : Decidable b.Orderly :=
  decidable_of_iff ((b.report.endStream = true → b.Spent) ∧ b.polls.Pairwise fun s t =>
    s.1 = .ended ∨ s.2.endStream = true → t.1.isFrame = false)
    ⟨fun h => ⟨h.1, h.2⟩, fun h => ⟨h.start, h.later⟩⟩

theorem Spent.poll {b : Body} (h : b.Spent) : b.poll.1.isFrame = false ∧ b.poll.2.Spent := by
  unfold Spent at h
  unfold Body.poll
  cases hpolls : b.polls with
  | nil => exact ⟨rfl, h⟩
  | cons step rest =>
    rw [hpolls] at h
    constructor
    · exact h step List.mem_cons_self
    · intro later hlater
      exact h later (List.mem_cons_of_mem step hlater)

theorem Spent.dataOf_answers {b : Body} (h : b.Spent) (n : Nat) : dataOf (b.answers n) = [] := by
  induction n generalizing b with
  | zero => rfl
  | succ n ih =>
    obtain ⟨hfirst, hrest⟩ := h.poll
    have hdata := ih hrest
    simp only [dataOf, answers, List.flatMap_cons] at hdata ⊢
    rw [Polled.content_of_no_frame hfirst, hdata]
    rfl

/-- A poll leaves an orderly body, with no frame left if it was the last one. -/
theorem Orderly.poll {b : Body} (h : b.Orderly) :
    b.poll.2.Orderly ∧
      (b.poll.1 = .ended ∨ b.poll.2.report.endStream = true → b.poll.2.Spent) := by
  have hlater := h.later
  unfold Body.poll
  cases hpolls : b.polls with
  | nil =>
    have hspent : b.Spent := by simp [Spent, hpolls]
    exact ⟨h, fun _ => hspent⟩
  | cons step rest =>
    rw [hpolls] at hlater
    obtain ⟨hfirst, hrest⟩ := List.pairwise_cons.mp hlater
    have hspent : step.1 = .ended ∨ step.2.endStream = true → (⟨step.2, rest⟩ : Body).Spent :=
      fun hlast t ht => hfirst t ht hlast
    exact ⟨⟨fun hend => hspent (.inr hend), hrest⟩, hspent⟩

theorem contentToEnd?_eq_some_iff {b : Body} (h : b.Orderly) {n : Nat} {data : Bytes} :
    contentToEnd? (b.answers n) = some data ↔
      ReachesEnd (b.answers n) ∧ data = dataOf (b.answers n) := by
  induction n generalizing b data with
  | zero =>
    constructor
    · intro hdata
      cases hdata
    · rintro ⟨hreaches, -⟩
      cases hreaches
  | succ n ih =>
    obtain ⟨hnext, hspent⟩ := h.poll
    have hdata : dataOf (b.answers (n + 1)) = b.poll.1.content ++ dataOf (b.poll.2.answers n) := rfl
    rw [hdata, answers, reachesEnd_cons_iff]
    cases hanswer : b.poll.1 with
    | pending => simp [contentToEnd?, IsLast, Polled.isFrame, Polled.content, ih hnext]
    | failed => simp [contentToEnd?, IsLast, Polled.isFrame]
    | ended =>
      have hnone := (hspent (.inl hanswer)).dataOf_answers n
      rw [hnone, contentToEnd?, Option.some_inj]
      constructor
      · rintro rfl
        exact ⟨.inl (.inl rfl), rfl⟩
      · rintro ⟨-, rfl⟩
        rfl
    | frame f =>
      have hcontent : (Polled.frame f).content = f.content := rfl
      by_cases hend : b.poll.2.report.endStream = true
      · have hnone := (hspent (.inr hend)).dataOf_answers n
        rw [contentToEnd?, if_pos hend, hcontent, hnone, List.append_nil]
        constructor
        · intro heq
          exact ⟨.inl (.inr ⟨rfl, hend⟩), (Option.some.inj heq).symm⟩
        · rintro ⟨-, rfl⟩
          rfl
      · rw [contentToEnd?, if_neg hend, hcontent, Option.map_eq_some_iff]
        constructor
        · rintro ⟨tail, htail, rfl⟩
          obtain ⟨hreaches, rfl⟩ := (ih hnext).mp htail
          exact ⟨.inr ⟨by simp, hreaches⟩, rfl⟩
        · rintro ⟨hlast | ⟨-, hreaches⟩, rfl⟩
          · rcases hlast with hended | ⟨-, hknown⟩
            · cases hended
            · exact absurd hknown hend
          · exact ⟨_, (ih hnext).mpr ⟨hreaches, rfl⟩, rfl⟩

/-- The whole data of an orderly body is the data of all its frames. -/
theorem received?_eq_some_iff {b : Body} (h : b.Orderly) {n : Nat} {data : Bytes} :
    b.received? n = some data ↔ b.EndReached n ∧ data = dataOf (b.answers n) := by
  unfold received? EndReached
  by_cases hend : b.report.endStream = true
  · have hnone := (h.start hend).dataOf_answers n
    simp [hend, hnone, eq_comm]
  · rw [if_neg hend, or_iff_right hend]
    exact contentToEnd?_eq_some_iff h

end Body

end Http

namespace Cache

open Gateway.Http

namespace Capture

theorem inner_polled (c : Capture) (n : Nat) : (c.polled n).inner = c.inner.polled n := by
  induction n generalizing c with
  | zero => rfl
  | succ n ih => rw [polled_succ, Body.polled_succ, ih, inner_poll]

/-! ### How often a copy is handed over -/

/-- The copies that the polls hand over, in order: a poll does so only while the copy waits for
it. -/
def handovers (c : Capture) : Nat → List Bytes
  | 0 => []
  | n + 1 => (if c.waiting then c.poll.2.captured.toList else []) ++ c.poll.2.handovers n

def handedOver (b : Body) (limit polls : Nat) : List Bytes :=
  (start b limit).captured.toList ++ (start b limit).handovers polls

theorem handovers_of_done {c : Capture} (h : c.waiting = false) (n : Nat) :
    c.handovers n = [] := by
  induction n generalizing c with
  | zero => rfl
  | succ n ih =>
    have hrest := ih (poll_of_done h).1
    simp [handovers, h, hrest]

theorem Copying.poll {c : Capture} (h : c.Copying) :
    c.poll.2.Copying ∨ c.poll.2.waiting = false := by
  unfold Capture.poll
  generalize c.inner.poll = polled
  obtain ⟨answer, inner⟩ := polled
  have hmoved : Copying { c with inner := inner } :=
    ⟨h.waiting, h.captured, h.overflowed, h.length_le⟩
  cases answer with
  | pending => exact .inl hmoved
  | failed => exact .inr rfl
  | ended => exact .inr (finish_of_waiting hmoved.waiting).1
  | frame f =>
    have hcases := hmoved.onFrame_cases f
    dsimp only at hcases ⊢
    split_ifs at hcases with hlong hend
    · exact .inr hcases.1
    · exact .inr hcases.1
    · rw [hcases]
      exact .inl ⟨h.waiting, h.captured, h.overflowed, Nat.not_lt.mp hlong⟩

theorem Copying.handovers_eq {c : Capture} (h : c.Copying) (n : Nat) :
    c.handovers n = (c.polled n).captured.toList := by
  induction n generalizing c with
  | zero =>
    have hnone : (c.polled 0).captured = none := h.captured
    rw [hnone]
    rfl
  | succ n ih =>
    rw [handovers, if_pos h.waiting, polled_succ]
    rcases h.poll with hnext | hdone
    · rw [hnext.captured, ih hnext]
      rfl
    · rw [handovers_of_done hdone, captured_polled_of_done hdone, List.append_nil]

/-- What the last state shows as handed over is all that has been handed over. -/
theorem handedOver_eq (b : Body) (limit n : Nat) :
    handedOver b limit n = ((start b limit).polled n).captured.toList := by
  have hstart : (start b limit).Copying ∨ (start b limit).waiting = false := by
    unfold start
    dsimp only
    split_ifs
    · exact .inr (finish_of_waiting rfl).1
    · exact .inl ⟨rfl, rfl, rfl, Nat.zero_le limit⟩
  unfold handedOver
  rcases hstart with hcopying | hdone
  · rw [hcopying.handovers_eq, hcopying.captured]
    rfl
  · rw [handovers_of_done hdone, captured_polled_of_done hdone, List.append_nil]

/-! ### When a body has outgrown the limit -/

/-- The capture, with this limit, of a body that has given so much data. -/
structure Follows (limit : Nat) (c : Capture) (seen : Bytes) : Prop where
  orderly : c.inner.Orderly
  limit_eq : c.limit = limit
  overflowed_iff : c.overflowed = true ↔ limit < seen.length
  /-- Until the end the buffer has all the data, also after a failure. -/
  buffer : c.inner.Spent ∨ c.overflowed = true ∨ c.buffer = seen

section Polls
variable {c : Capture} {limit : Nat} {seen : Bytes} (h : Follows limit c seen)
include h

theorem Follows.finish (hspent : c.inner.Spent) : Follows limit c.finish seen := by
  unfold Capture.finish
  split_ifs
  · exact ⟨h.orderly, h.limit_eq, h.overflowed_iff, .inl hspent⟩
  · exact h

theorem Follows.record (hkept : c.overflowed = true ∨ c.buffer = seen) (data : Bytes) :
    Follows limit (c.record data) (seen ++ data) := by
  have hiff := h.overflowed_iff
  have hlimit := h.limit_eq
  have hlength : (seen ++ data).length = seen.length + data.length := List.length_append
  unfold Capture.record
  split_ifs with hover hlong
  · have hlonger : limit < (seen ++ data).length := by
      have := hiff.mp hover
      omega
    exact ⟨h.orderly, hlimit, iff_of_true hover hlonger, .inr (.inl hover)⟩
  · obtain rfl : c.buffer = seen := hkept.resolve_left hover
    have hlonger : limit < (c.buffer ++ data).length := by omega
    exact ⟨h.orderly, hlimit, iff_of_true rfl hlonger, .inr (.inl rfl)⟩
  · obtain rfl : c.buffer = seen := hkept.resolve_left hover
    have hfits : ¬ limit < (c.buffer ++ data).length := by omega
    exact ⟨h.orderly, hlimit, iff_of_false hover hfits, .inr (.inr rfl)⟩

theorem Follows.onFrame (hkept : c.overflowed = true ∨ c.buffer = seen) (f : Frame) :
    Follows limit (c.onFrame f) (seen ++ f.content) := by
  apply onFrame_induct (fun d => Follows limit d (seen ++ f.content)) f
  · rintro bs rfl
    exact h.record hkept bs
  · rintro fields rfl
    rw [Frame.content, List.append_nil]
    exact h
  · intro d hd hend
    exact hd.finish (hd.orderly.start hend)

theorem Follows.poll : Follows limit c.poll.2 (seen ++ c.inner.poll.1.content) := by
  obtain ⟨hnext, hlast⟩ := h.orderly.poll
  have hspent : c.inner.Spent → c.inner.poll.1.isFrame = false ∧ c.inner.poll.2.Spent :=
    Body.Spent.poll
  unfold Capture.poll
  generalize c.inner.poll = polled at hnext hlast hspent
  obtain ⟨answer, inner⟩ := polled
  dsimp only at hnext hlast hspent
  have hmoved : Follows limit { c with inner := inner } seen := by
    refine ⟨hnext, h.limit_eq, h.overflowed_iff, ?_⟩
    rcases h.buffer with hdone | hkept
    · exact .inl (hspent hdone).2
    · exact .inr hkept
  cases answer with
  | pending =>
    simp only [Polled.content, List.append_nil]
    exact hmoved
  | failed =>
    simp only [Polled.content, List.append_nil]
    exact ⟨hnext, hmoved.limit_eq, hmoved.overflowed_iff, hmoved.buffer⟩
  | ended =>
    simp only [Polled.content, List.append_nil]
    exact hmoved.finish (hlast (.inl rfl))
  | frame f =>
    -- there was a frame left, so the buffer still counts even if this frame is the last one
    have hkept : c.overflowed = true ∨ c.buffer = seen := by
      rcases h.buffer with hdone | hkept
      · cases (hspent hdone).1
      · exact hkept
    exact hmoved.onFrame hkept f

theorem Follows.polled (n : Nat) :
    Follows limit (c.polled n) (seen ++ Body.dataOf (c.inner.answers n)) := by
  induction n generalizing c seen with
  | zero =>
    have hnone : Body.dataOf (c.inner.answers 0) = [] := rfl
    rw [hnone, List.append_nil]
    exact h
  | succ n ih =>
    have hrest := ih h.poll
    rw [inner_poll, List.append_assoc] at hrest
    rw [polled_succ]
    exact hrest

end Polls

theorem follows_start {b : Body} (h : b.Orderly) (limit : Nat) :
    Follows limit (start b limit) [] := by
  have hnew : Follows limit ⟨b, limit, [], false, true, none⟩ [] := by
    refine ⟨h, rfl, iff_of_false Bool.false_ne_true ?_, .inr (.inr rfl)⟩
    exact Nat.not_lt_zero limit
  unfold start
  dsimp only
  split_ifs with hend
  · exact hnew.finish (h.start hend)
  · exact hnew

theorem overflowed_finish (c : Capture) : c.finish.overflowed = c.overflowed := by
  unfold finish
  split_ifs <;> rfl

/-- What has overflowed stays so, whatever the body does. -/
theorem overflowed_poll {c : Capture} (h : c.overflowed = true) : c.poll.2.overflowed = true := by
  unfold poll
  obtain ⟨answer, inner⟩ := c.inner.poll
  cases answer with
  | pending | failed => exact h
  | ended => exact (overflowed_finish _).trans h
  | frame f =>
    apply onFrame_induct (fun d => d.overflowed = true) f
    · intro bs _
      simp [record, h]
    · exact fun _ _ => h
    · exact fun d hd _ => d.overflowed_finish.trans hd

theorem overflowed_polled {c : Capture} (h : c.overflowed = true) (n : Nat) :
    (c.polled n).overflowed = true := by
  induction n generalizing c with
  | zero => exact h
  | succ n ih =>
    rw [polled_succ]
    exact ih (overflowed_poll h)

/-- A captured body reads as the body itself. Its copy is handed over at most once, and after these
polls it has been if and only if the end has been reached without a failure before and the data is
within the limit; it is then all the data. The capture has overflowed if and only if the data so far
is beyond the limit, and stays so. -/
theorem follows_body (b : Body) (h : b.Orderly) (limit polls : Nat) :
    let c := (start b limit).polled polls
    let data := Body.dataOf (b.answers polls)
    let handed := handedOver b limit polls
    (c.poll.1 = (b.polled polls).poll.1 ∧ c.report = (b.polled polls).report) ∧
    handed.length ≤ 1 ∧
    (handed ≠ [] ↔ b.EndReached polls ∧ data.length ≤ limit) ∧
    (∀ copy ∈ handed, copy = data) ∧
    (c.overflowed = true ↔ limit < data.length) ∧
    ∀ more, c.overflowed = true → (c.polled more).overflowed = true := by
  intro c data handed
  have hinner : c.inner = b.polled polls := by
    rw [inner_polled, inner_start]
  have hfollows : Follows limit c data := by
    have hpolled := (follows_start h limit).polled polls
    rwa [inner_start, List.nil_append] at hpolled
  have hcopy : ∀ copy, c.captured = some copy ↔
      (b.EndReached polls ∧ copy = data) ∧ copy.length ≤ limit := by
    intro copy
    rw [captured_start, Option.filter_eq_some_iff, Body.received?_eq_some_iff h, decide_eq_true_eq]
  have hhanded : handed = c.captured.toList := handedOver_eq b limit polls
  refine ⟨⟨?_, congrArg Body.report hinner⟩, ?_, ?_, ?_, hfollows.overflowed_iff, ?_⟩
  · rw [poll_fst, hinner]
  · rw [hhanded]
    exact Option.length_toList_le
  · rw [hhanded]
    constructor
    · intro hne
      obtain ⟨copy, hmem⟩ := List.exists_mem_of_ne_nil _ hne
      have hsome : c.captured = some copy := Option.mem_toList.mp hmem
      obtain ⟨⟨hreached, rfl⟩, hlength⟩ := (hcopy copy).mp hsome
      exact ⟨hreached, hlength⟩
    · rintro ⟨hreached, hlength⟩
      rw [(hcopy data).mpr ⟨⟨hreached, rfl⟩, hlength⟩]
      simp
  · intro copy hmem
    rw [hhanded, Option.mem_toList] at hmem
    exact ((hcopy copy).mp hmem).1.2
  · exact fun more hover => overflowed_polled hover more

/-- The last data comes with the end, after a pause and before trailers. Dropped before, within its
limit, and beyond its limit with the very last octet. -/
theorem follows_body_of_two_limits :
    let unended : BodyReport := ⟨false, none⟩
    let b : Body := ⟨unended, [(.frame (.data [1, 2]), unended), (.pending, unended),
      (.frame (.data [3]), unended), (.frame (.trailers ∅), ⟨true, some 0⟩)]⟩
    b.Orderly ∧ handedOver b 3 3 = [] ∧ handedOver b 3 4 = [[1, 2, 3]] ∧ handedOver b 2 4 = [] ∧
      ((start b 2).polled 2).overflowed = false ∧ ((start b 2).polled 3).overflowed = true := by
  intro unended b
  have horderly : b.Orderly := by decide
  obtain ⟨-, -, hdropped, -⟩ := follows_body b horderly 3 3
  obtain ⟨-, honce, hread, hdata, -⟩ := follows_body b horderly 3 4
  obtain ⟨-, -, hlong, -⟩ := follows_body b horderly 2 4
  obtain ⟨-, -, -, -, hwithin, -⟩ := follows_body b horderly 2 2
  obtain ⟨-, -, -, -, hbeyond, -⟩ := follows_body b horderly 2 3
  obtain ⟨copy, hcopy⟩ : ∃ copy, handedOver b 3 4 = [copy] := by
    have hne : handedOver b 3 4 ≠ [] := hread.mpr (by decide)
    have hpos := List.length_pos_of_ne_nil hne
    exact List.length_eq_one_iff.mp (by omega)
  have hall : copy = [1, 2, 3] := hdata copy (hcopy ▸ List.mem_singleton_self copy)
  refine ⟨horderly, ?_, hall ▸ hcopy, ?_, ?_, hbeyond.mpr (by decide)⟩
  · exact not_not.mp (hdropped.not.mpr (by decide))
  · exact not_not.mp (hlong.not.mpr (by decide))
  · exact Bool.eq_false_iff.mpr (hwithin.not.mpr (by decide))

end Capture

end Cache

end Gateway
