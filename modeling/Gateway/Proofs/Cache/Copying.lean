import Gateway.Proofs.Cache.Passage
import Mathlib.Logic.Function.Iterate

/-! When the copy of a body is handed over: once the body has come to its end without failing, and
only if its data never outgrew the limit. What is handed over is then all of the body's data. -/
namespace Gateway

namespace Http

def Frame.content : Frame → Bytes
  | .data bs => bs
  | .trailers _ => []

namespace Body

/-- The data up to the end of the body, if these answers reach it and none before it fails. -/
def contentToEnd? : List (Polled × BodyReport) → Option Bytes
  | [] => none
  | (.pending, _) :: rest => contentToEnd? rest
  | (.failed, _) :: _ => none
  | (.ended, _) :: _ => some []
  | (.frame f, report) :: rest =>
    if report.endStream then some f.content else (contentToEnd? rest).map (f.content ++ ·)

/-- The whole data of the body, if its end has been reached after so many polls. A body may know
that it is at its end before it is polled. -/
def received? (b : Body) (polls : Nat) : Option Bytes :=
  if b.report.endStream then some [] else contentToEnd? (b.answers polls)

theorem contentToEnd?_answers_succ {b : Body} {n : Nat} {data : Bytes}
    (h : contentToEnd? (b.answers n) = some data) :
    contentToEnd? (b.answers (n + 1)) = some data := by
  induction n generalizing b data with
  | zero => cases h
  | succ n ih =>
    rw [answers] at h ⊢
    cases hanswer : b.poll.1 with
    | pending =>
      rw [hanswer] at h
      exact ih h
    | failed =>
      rw [hanswer] at h
      cases h
    | ended =>
      rw [hanswer] at h
      exact h
    | frame f =>
      rw [hanswer] at h
      unfold contentToEnd? at h ⊢
      split_ifs at h ⊢ with hend
      · exact h
      · obtain ⟨rest, hrest, rfl⟩ := Option.map_eq_some_iff.mp h
        rw [ih hrest]
        rfl

/-- What has been received whole stays so, however often the body is polled again. -/
theorem received?_succ {b : Body} {n : Nat} {data : Bytes} (h : b.received? n = some data) :
    b.received? (n + 1) = some data := by
  unfold received? at h ⊢
  split_ifs at h ⊢
  · exact h
  · exact contentToEnd?_answers_succ h

end Body

end Http

namespace Cache

open Gateway.Http

namespace Capture

def polled (c : Capture) (n : Nat) : Capture := (fun d : Capture => d.poll.2)^[n] c

theorem polled_succ (c : Capture) (n : Nat) : c.polled (n + 1) = c.poll.2.polled n :=
  Function.iterate_succ_apply _ n c

theorem polled_succ' (c : Capture) (n : Nat) : c.polled (n + 1) = (c.polled n).poll.2 :=
  Function.iterate_succ_apply' _ n c

/-! ### A copy that has been handed over or given up -/

theorem finish_of_done {c : Capture} (h : c.waiting = false) : c.finish = c := by
  unfold finish
  simp [h]

theorem record_of_done {c : Capture} (h : c.waiting = false) (data : Bytes) :
    (c.record data).waiting = false ∧ (c.record data).captured = c.captured := by
  unfold record
  split_ifs
  · exact ⟨h, rfl⟩
  · exact ⟨rfl, rfl⟩
  · exact ⟨h, rfl⟩

theorem onFrame_of_done {c : Capture} (h : c.waiting = false) (f : Frame) :
    (c.onFrame f).waiting = false ∧ (c.onFrame f).captured = c.captured := by
  apply onFrame_induct (fun d => d.waiting = false ∧ d.captured = c.captured) f
  · exact fun bs _ => record_of_done h bs
  · exact fun _ _ => ⟨h, rfl⟩
  · intro d hd _
    rw [finish_of_done hd.1]
    exact hd

theorem poll_of_done {c : Capture} (h : c.waiting = false) :
    c.poll.2.waiting = false ∧ c.poll.2.captured = c.captured := by
  unfold poll
  obtain ⟨answer, inner⟩ := c.inner.poll
  cases answer with
  | pending => exact ⟨h, rfl⟩
  | failed => exact ⟨rfl, rfl⟩
  | ended =>
    dsimp only
    rw [finish_of_done (by exact h)]
    exact ⟨h, rfl⟩
  | frame f => exact onFrame_of_done (by exact h) f

theorem captured_polled_of_done {c : Capture} (h : c.waiting = false) (n : Nat) :
    (c.polled n).captured = c.captured := by
  induction n generalizing c with
  | zero => rfl
  | succ n ih =>
    obtain ⟨hwaiting, hcaptured⟩ := poll_of_done h
    rw [polled_succ, ih hwaiting, hcaptured]

/-! ### A copy in the making -/

/-- All data so far has been copied, and the copy is still to be handed over. -/
structure Copying (c : Capture) : Prop where
  waiting : c.waiting = true
  captured : c.captured = none
  overflowed : c.overflowed = false
  length_le : c.buffer.length ≤ c.limit

theorem finish_of_waiting {c : Capture} (h : c.waiting = true) :
    c.finish.waiting = false ∧ c.finish.captured = some c.buffer := by
  unfold finish
  simp [h]

/-- A frame is copied unless the copy would outgrow the limit; then the copy is given up. -/
theorem Copying.onFrame_cases {c : Capture} (h : c.Copying) (f : Frame) :
    if c.limit < (c.buffer ++ f.content).length then
      (c.onFrame f).waiting = false ∧ (c.onFrame f).captured = none
    else if c.inner.report.endStream then
      (c.onFrame f).waiting = false ∧ (c.onFrame f).captured = some (c.buffer ++ f.content)
    else c.onFrame f = { c with buffer := c.buffer ++ f.content } := by
  -- a frame of trailers is like one with no data
  have hframe : c.onFrame f = if (c.record f.content).inner.report.endStream then
      (c.record f.content).finish else c.record f.content := by
    cases f with
    | data bs => rfl
    | trailers fields =>
      have hnone : c.record [] = c := by
        have hfits : ¬ c.limit < c.buffer.length + 0 := Nat.not_lt.mpr h.length_le
        unfold record
        rw [h.overflowed, List.length_nil, if_neg Bool.false_ne_true, if_neg hfits,
          List.append_nil, ← h.overflowed]
      simp [onFrame, Frame.content, hnone]
  rw [hframe, inner_record]
  unfold record
  simp only [h.overflowed, Bool.false_eq_true, if_false, ← List.length_append]
  split_ifs with hlong hend
  · rw [finish_of_done rfl]
    exact ⟨rfl, h.captured⟩
  · exact ⟨rfl, h.captured⟩
  · exact finish_of_waiting h.waiting
  · rfl

theorem captured_polled {c : Capture} (h : c.Copying) (n : Nat) :
    (c.polled n).captured =
      ((Body.contentToEnd? (c.inner.answers n)).map (c.buffer ++ ·)).filter
        (·.length ≤ c.limit) := by
  induction n generalizing c with
  | zero => exact h.captured
  | succ n ih =>
    rw [polled_succ, Body.answers]
    unfold poll
    generalize c.inner.poll = polled
    obtain ⟨answer, inner⟩ := polled
    cases answer with
    | pending => exact ih ⟨h.waiting, h.captured, h.overflowed, h.length_le⟩
    | failed =>
      rw [captured_polled_of_done rfl]
      exact h.captured
    | ended =>
      obtain ⟨hdone, hcaptured⟩ :=
        finish_of_waiting (c := { c with inner := inner }) h.waiting
      rw [captured_polled_of_done hdone, hcaptured]
      simp [Body.contentToEnd?, Option.filter_some, h.length_le]
    | frame f =>
      have hcopying : Copying { c with inner := inner } :=
        ⟨h.waiting, h.captured, h.overflowed, h.length_le⟩
      have hcases := hcopying.onFrame_cases f
      dsimp only [Body.contentToEnd?] at hcases ⊢
      split_ifs at hcases with hlong hend
      · obtain ⟨hdone, hcaptured⟩ := hcases
        rw [captured_polled_of_done hdone, hcaptured]
        -- with this frame the data is too long already, whatever follows it
        refine (Option.filter_eq_none_iff.mpr fun data hdata => ?_).symm
        obtain ⟨tail, htail, rfl⟩ := Option.map_eq_some_iff.mp hdata
        have hprefix : f.content <+: tail := by
          split_ifs at htail
          · exact (Option.some.inj htail) ▸ List.prefix_rfl
          · obtain ⟨rest, -, rfl⟩ := Option.map_eq_some_iff.mp htail
            exact List.prefix_append f.content rest
        have hlength := hprefix.length_le
        simp only [List.length_append] at hlong
        simp only [List.length_append, decide_eq_true_eq]
        omega
      · obtain ⟨hdone, hcaptured⟩ := hcases
        rw [captured_polled_of_done hdone, hcaptured, if_pos hend]
        have hfits : decide ((c.buffer ++ f.content).length ≤ c.limit) = true :=
          decide_eq_true (Nat.not_lt.mp hlong)
        rw [Option.map_some, Option.filter_some, if_pos hfits]
      · have hnext : Copying { c with inner := inner, buffer := c.buffer ++ f.content } :=
          ⟨h.waiting, h.captured, h.overflowed, Nat.not_lt.mp hlong⟩
        rw [hcases, if_neg hend, ih hnext]
        simp [Option.map_map, Function.comp_def]

/-- What has been handed over after so many polls: the whole data of the body if its end has been
reached by then and the limit not passed. -/
theorem captured_start (b : Body) (limit n : Nat) :
    ((start b limit).polled n).captured = (b.received? n).filter (·.length ≤ limit) := by
  unfold start Body.received?
  dsimp only
  split_ifs with hend
  · obtain ⟨hdone, hcaptured⟩ :=
      finish_of_waiting (c := ⟨b, limit, [], false, true, none⟩) rfl
    rw [captured_polled_of_done hdone, hcaptured]
    simp [Option.filter_some]
  · have hcopying : Copying ⟨b, limit, [], false, true, none⟩ :=
      ⟨rfl, rfl, rfl, Nat.zero_le limit⟩
    rw [captured_polled hcopying]
    simp

theorem captured_start_succ {b : Body} {limit n : Nat} {data : Bytes}
    (h : ((start b limit).polled n).captured = some data) :
    ((start b limit).polled (n + 1)).captured = some data := by
  rw [captured_start] at h ⊢
  obtain ⟨hreceived, hlength⟩ := Option.filter_eq_some_iff.mp h
  exact Option.filter_eq_some_iff.mpr ⟨Body.received?_succ hreceived, hlength⟩

end Capture

end Cache

end Gateway
