import Gateway.Proofs.Cache.Outcomes

/-! What passing through the cache does to a request that the store has no answer for, and to its
response. The request reaches the service behind the cache once and as it was. Of the response only
the `X-Cache` header changes; capturing its body goes unnoticed. -/
namespace Gateway

/-- What the next polls of a body give, each with what the body says of itself afterwards. -/
def Http.Body.answers (b : Body) : Nat → List (Polled × BodyReport)
  | 0 => []
  | n + 1 => (b.poll.1, b.poll.2.report) :: b.poll.2.answers n

namespace Cache

open Gateway.Http

namespace Capture

theorem inner_finish (c : Capture) : c.finish.inner = c.inner := by
  unfold finish
  split_ifs <;> rfl

theorem inner_record (c : Capture) (data : Bytes) : (c.record data).inner = c.inner := by
  unfold record
  split_ifs <;> rfl

/-- A frame is taken up in two steps; what holds after the first and is kept by the second holds
then. -/
theorem onFrame_induct (P : Capture → Prop) {c : Capture} (f : Frame)
    (hdata : ∀ bs, f = .data bs → P (c.record bs)) (htrailers : ∀ h, f = .trailers h → P c)
    (hfinish : ∀ d, P d → d.inner.report.endStream = true → P d.finish) : P (c.onFrame f) := by
  have hend : ∀ d : Capture, P d → P (if d.inner.report.endStream then d.finish else d) := by
    intro d hd
    split_ifs with hlast
    · exact hfinish d hd hlast
    · exact hd
  cases f with
  | data bs => exact hend _ (hdata bs rfl)
  | trailers h => exact hend _ (htrailers h rfl)

theorem inner_onFrame (c : Capture) (f : Frame) : (c.onFrame f).inner = c.inner := by
  apply onFrame_induct (fun d => d.inner = c.inner) f
  · exact fun bs _ => c.inner_record bs
  · exact fun _ _ => rfl
  · exact fun d hd _ => d.inner_finish.trans hd

theorem inner_start (b : Body) (limit : Nat) : (start b limit).inner = b := by
  unfold start
  dsimp only
  split_ifs
  · exact inner_finish _
  · rfl

theorem poll_fst (c : Capture) : c.poll.1 = c.inner.poll.1 := rfl

/-- A poll of the capture is a poll of the body, whatever becomes of the copy. -/
theorem inner_poll (c : Capture) : c.poll.2.inner = c.inner.poll.2 := by
  unfold poll
  obtain ⟨answer, inner⟩ := c.inner.poll
  cases answer with
  | pending => rfl
  | failed => rfl
  | ended => exact inner_finish _
  | frame f => exact inner_onFrame _ f

end Capture

def Service.logged {σ ε : Type} (inner : Service σ ε) : Service (List (RequestHead × Body) × σ) ε :=
  fun r body (calls, s) => ((inner r body s).1, calls ++ [(r, body)], (inner r body s).2)

/-- What the body says of itself before it is read. -/
def Returned.report (returned : Returned) : BodyReport :=
  match returned.capture with
  | none => returned.body.report
  | some (capture, _) => capture.report

namespace ResponseCache

/-- A client reads a body while it is captured, each poll at its time; the poll that completes the
copy stores it. -/
def transmit (c : ResponseCache) (capture : Capture) (e : Exchange) :
    List (Time × Draws) → List (Polled × BodyReport) × ResponseCache
  | [] => ([], c)
  | (now, draws) :: polls =>
    let polled := capture.poll.2
    let c := if capture.captured.isSome then c else c.settle polled e now draws
    let (answers, c) := c.transmit polled e polls
    ((capture.poll.1, polled.report) :: answers, c)

/-- A client reads a response. A copy that is complete before the first poll is stored at `start`. -/
def transfer (c : ResponseCache) (returned : Returned) (start : Time × Draws)
    (polls : List (Time × Draws)) : List (Polled × BodyReport) × ResponseCache :=
  match returned.capture with
  | none => (returned.body.answers polls.length, c)
  | some (capture, e) => (c.settle capture e start.1 start.2).transmit capture e polls

theorem transmit_fst (c : ResponseCache) (capture : Capture) (e : Exchange)
    (polls : List (Time × Draws)) :
    (c.transmit capture e polls).1 = capture.inner.answers polls.length := by
  induction polls generalizing c capture with
  | nil => rfl
  | cons poll polls ih =>
    have hrest := fun d => ih d capture.poll.2
    simp only [capture.inner_poll] at hrest
    simp only [transmit, List.length_cons, Body.answers, Capture.report, capture.inner_poll,
      capture.poll_fst, hrest]

theorem outcomes_transmit (c : ResponseCache) (capture : Capture) (e : Exchange)
    (polls : List (Time × Draws)) (o : CacheOutcome) :
    (c.transmit capture e polls).2.outcomes o = c.outcomes o := by
  induction polls generalizing c capture with
  | nil => rfl
  | cons poll polls ih =>
    simp only [transmit, ih]
    split_ifs
    · rfl
    · exact c.outcomes_settle _ e _ _ o

theorem outcomes_transfer (c : ResponseCache) (returned : Returned) (start : Time × Draws)
    (polls : List (Time × Draws)) (o : CacheOutcome) :
    (c.transfer returned start polls).2.outcomes o = c.outcomes o := by
  unfold transfer
  cases returned.capture with
  | none => rfl
  | some p =>
    refine (outcomes_transmit _ p.1 p.2 polls o).trans ?_
    exact c.outcomes_settle p.1 p.2 start.1 start.2 o

/-- The client gets this response of the service with only the `X-Cache` header changed. -/
structure PassesOn (app : Response ResponseHead) (outcome : CacheOutcome) (returned : Returned) :
    Prop where
  status : returned.head.status = app.head.status
  values : ∀ n, returned.head.headers.values n =
    if n = .xCache then [outcomeMark outcome] else app.head.headers.values n
  report : returned.report = app.body.report
  answers : ∀ (c : ResponseCache) start polls,
    (c.transfer returned start polls).1 = app.body.answers polls.length

theorem values_marked (head : ResponseHead) (outcome : CacheOutcome) (n : HeaderName) :
    (marked head outcome).headers.values n =
      if n = .xCache then [outcomeMark outcome] else head.headers.values n :=
  head.headers.values_insert .xCache n (outcomeMark outcome)

theorem passesOn_relay (c : ResponseCache) (v : Variant) (cacheable : Bool)
    (app : Response ResponseHead) :
    PassesOn app (if cacheable then .miss else .bypass)
      (c.relay v cacheable app.head app.body).1 := by
  have hplain : ∀ outcome, PassesOn app outcome ⟨marked app.head outcome, app.body, none⟩ :=
    fun outcome => ⟨rfl, values_marked app.head outcome, rfl, fun _ _ _ => rfl⟩
  cases cacheable with
  | false => exact hplain .bypass
  | true =>
    by_cases hstore : mayStore app.head.status app.head.headers = true
    · simp only [relay, hstore, Bool.not_true, Bool.false_eq_true, if_false, if_true]
      refine ⟨rfl, values_marked app.head .miss, ?_, fun d start polls => ?_⟩
      · exact congrArg Body.report (Capture.inner_start app.body c.maxBody)
      · refine (transmit_fst _ _ _ polls).trans ?_
        rw [Capture.inner_start]
    · simp only [relay, hstore, Bool.not_true, Bool.false_eq_true, if_false, if_true]
      exact hplain .miss

theorem outcomes_relay (c : ResponseCache) (v : Variant) (cacheable : Bool) (head : ResponseHead)
    (body : Body) (o : CacheOutcome) : (c.relay v cacheable head body).2.outcomes o =
      c.outcomes o + if o = (if cacheable then .miss else .bypass) then 1 else 0 := by
  cases cacheable with
  | false => exact c.outcomes_count .bypass o
  | true => exact c.outcomes_count .miss o

section Serve
variable {σ ε : Type} {c : ResponseCache} {inner : Service σ ε} {r : RequestHead} {body : Body}
  {now : Time} {s : σ}

theorem serve_of_hit {stored : Stored} (h : (c.lookup (.ofRequest r) now).hit = some stored) :
    c.serve inner r body now s =
      (.ok ⟨(stored.replay r.headers).1, .whole (stored.replay r.headers).2, none⟩, s,
        (c.lookup (.ofRequest r) now).cache.count .hit) := by
  unfold serve receive
  simp only [h]

theorem serve_of_error (h : (c.lookup (.ofRequest r) now).hit = none) {e : ε}
    (he : (inner r body s).1 = .error e) :
    c.serve inner r body now s =
      (.error e, (inner r body s).2, (c.lookup (.ofRequest r) now).cache) := by
  unfold serve receive
  simp only [h]
  generalize inner r body s = answer at *
  obtain ⟨answer, t⟩ := answer
  dsimp only at he
  rw [he]

theorem serve_of_ok (h : (c.lookup (.ofRequest r) now).hit = none) {app : Response ResponseHead}
    (happ : (inner r body s).1 = .ok app) :
    let found := c.lookup (.ofRequest r) now
    let relayed := found.cache.relay found.variant (isCacheable r) app.head app.body
    c.serve inner r body now s = (.ok relayed.1, (inner r body s).2, relayed.2) := by
  unfold serve receive
  simp only [h]
  generalize inner r body s = answer at *
  obtain ⟨answer, t⟩ := answer
  dsimp only at happ
  rw [happ]

end Serve

theorem values_replay (stored : Stored) (request : Headers) (n : HeaderName) :
    (stored.replay request).1.headers.values n =
      if n = .xCache then [Stored.hitMark] else stored.headers.values n := by
  have hhead : (stored.replay request).1.headers = stored.headers.insert .xCache Stored.hitMark := by
    unfold Stored.replay
    split_ifs <;> rfl
  rw [hhead]
  exact stored.headers.values_insert .xCache n Stored.hitMark

/-- What serving a request comes to. A hit calls nothing. A miss calls the service once with the
request as it was; a failure is returned and leaves what the lookup left, which index and later
readers cannot tell from what was there before, and counts nothing; a response is passed on. Each
response counts its own outcome once, and reading it counts none. -/
theorem serve_passes {σ ε : Type} (c : ResponseCache) (inner : Service σ ε) (r : RequestHead)
    (body : Body) (now : Time) (calls : List (RequestHead × Body)) (s : σ) :
    let found := c.lookup (.ofRequest r) now
    let (result, state, after) := c.serve inner.logged r body now (calls, s)
    (∀ stored, found.hit = some stored → state = (calls, s) ∧ result = .ok
      ⟨(stored.replay r.headers).1, .whole (stored.replay r.headers).2, none⟩) ∧
    (found.hit = none → state = (calls ++ [(r, body)], (inner r body s).2) ∧
      (∀ e, (inner r body s).1 = .error e → result = .error e ∧ after = found.cache ∧
        after.index = c.index ∧ ReadsAs now after c ∧ ∀ o, after.outcomes o = c.outcomes o) ∧
      ∀ app, (inner r body s).1 = .ok app → ∃ returned, result = .ok returned ∧
        PassesOn app (if isCacheable r then .miss else .bypass) returned) ∧
    ∀ returned, result = .ok returned → ∃ outcome,
      returned.head.headers.values .xCache = [outcomeMark outcome] ∧
      ∀ start polls o, (after.transfer returned start polls).2.outcomes o =
        c.outcomes o + if o = outcome then 1 else 0 := by
  intro found
  have hattempt : Attempt c (c.tried (.ofRequest r) now) (Variant.ofRequest r).key now found :=
    c.attempt_lookup rfl now
  cases hfound : found.hit with
  | some stored =>
    rw [serve_of_hit hfound]
    dsimp only
    refine ⟨?_, ?_, ?_⟩
    · rintro _ ⟨⟩
      exact ⟨rfl, rfl⟩
    · intro hnone
      cases hnone
    · rintro _ ⟨⟩
      refine ⟨.hit, values_replay stored r.headers .xCache, fun start polls o => ?_⟩
      rw [outcomes_transfer, outcomes_count, hattempt.outcomes]
  | none =>
    have hindex : found.cache.index = c.index := by
      rw [hattempt.reads_of_missed hfound, index_reads]
    cases hanswer : (inner r body s).1 with
    | error e =>
      have hlogged : (inner.logged r body (calls, s)).1 = .error e := hanswer
      rw [serve_of_error hfound hlogged]
      dsimp only
      refine ⟨nofun, fun _ => ⟨rfl, ?_, nofun⟩, nofun⟩
      rintro _ ⟨⟩
      exact ⟨rfl, rfl, hindex, hattempt.readsAs, hattempt.outcomes⟩
    | ok app =>
      have hlogged : (inner.logged r body (calls, s)).1 = .ok app := hanswer
      rw [serve_of_ok hfound hlogged]
      dsimp only
      have hpasses := passesOn_relay found.cache found.variant (isCacheable r) app
      refine ⟨nofun, fun _ => ⟨rfl, nofun, ?_⟩, ?_⟩
      · rintro _ ⟨⟩
        exact ⟨_, rfl, hpasses⟩
      · rintro _ ⟨⟩
        refine ⟨if isCacheable r then .miss else .bypass, ?_, fun start polls o => ?_⟩
        · exact (hpasses.values .xCache).trans (if_pos rfl)
        · rw [outcomes_transfer, outcomes_relay, hattempt.outcomes]

end ResponseCache

end Cache

end Gateway
