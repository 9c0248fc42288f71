import Gateway.Proofs.Server.Conclusions
import Gateway.Proofs.Server.RequestIds

/-! Which failures a server counts. A request is sent on once at most, and how that failed is all
that is counted of it. -/
namespace Gateway.Server
open Http Proxy Cache

def Ending.failure? : Ending → Option RelayFailure
  | timedOut => none
  | finished _ failure => failure

/-- Whether a request is answered from what is stored. -/
def Relay.isReplayed (relay : Relay) (a : Arrival) : Bool :=
  relay.cache.any fun cache =>
    (cache.lookup (.ofRequest (relay.announce a.inbound).head) a.surroundings.now).hit.isSome

/-- How the request that is sent on fails: not at all when none is sent on, or when it is given
up. -/
def Relay.failure? (relay : Relay) (a : Arrival) : Option RelayFailure :=
  if relay.isReplayed a || isLate a.deadline (relay.answerTo a).delayMillis then none
  else (relay.answerTo a).failure

theorem Relay.Course.failure? {relay : Relay} {cache : ResponseCache} {env : Surroundings}
    {deadline : Option Nat} {i : Inbound} {result : Passage × ResponseCache}
    (h : Course relay cache env deadline i result) : result.1.ending.failure? =
      if (cache.lookup (.ofRequest i.head) env.now).hit.isSome ||
          isLate deadline (relay.answer env i).delayMillis then none
      else (relay.answer env i).failure := by
  cases h with
  | replayed stored hhit =>
    rw [hhit]
    rfl
  | late hmiss hlate =>
    rw [hlate, Bool.or_true]
    rfl
  | relayed hmiss htimely =>
    rw [hmiss, htimely]
    rfl

theorem Relay.failure?_handle (relay : Relay) (a : Arrival) :
    (relay.handle a.surroundings a.deadline a.inbound).1.ending.failure? = relay.failure? a := by
  unfold failure? isReplayed
  cases hcache : relay.cache with
  | none =>
    have hhandle : (relay.handle a.surroundings a.deadline a.inbound).1 =
        relay.handleUncached a.surroundings a.deadline (relay.announce a.inbound) := by
      unfold handle
      rw [hcache]
      rfl
    rw [hhandle, Option.any_none, Bool.false_or]
    unfold handleUncached
    dsimp only
    unfold answerTo answer
    split <;> rfl
  | some cache =>
    rw [handle_of_cache hcache, Option.any_some]
    exact (course_handleCached relay cache a.surroundings a.deadline _).failure?

variable {s : Server} {relay : Relay} {env : Surroundings} {r : Request}

/-- The failure that is counted of a request. A refused one does not get to the relay. -/
def failure? (s : Server) (env : Surroundings) (r : Request) : Option RelayFailure :=
  s.relay.bind fun relay => (arrival? s.http env r).bind relay.failure?

theorem failure_conclude (s : Server) (request : Headers) (ending : Ending) :
    (s.conclude request ending).2 = ending.failure? := by
  cases ending <;> rfl

theorem failure_respond_of_bare (hrelay : s.relay = none) (r : Request) :
    (s.respond env r).2.1 = none := by
  unfold respond pass
  rw [hrelay]
  cases admission s.http.maxRequestBody r.head.headers <;> rfl

theorem failure_respond (s : Server) (env : Surroundings) (r : Request) :
    (s.respond env (started s.http env r)).2.1 = s.failure? env r := by
  unfold failure?
  cases harrival : arrival? s.http env r with
  | none =>
    rw [respond_of_refused harrival]
    cases s.relay <;> rfl
  | some a =>
    cases hrelay : s.relay with
    | none => exact failure_respond_of_bare hrelay _
    | some relay =>
      obtain ⟨request, hrespond⟩ := respond_of_arrival hrelay harrival
      rw [hrespond]
      exact (failure_conclude s request _).trans (relay.failure?_handle a)

theorem counts_respond (s : Server) (env : Surroundings) (r : Request) :
    (s.respond env r).2.2.2.counts = s.counts := by
  unfold respond pass
  cases admission s.http.maxRequestBody r.head.headers with
  | refused => rfl
  | granted limit => cases s.relay <;> rfl

/-- Of a request its own failure is counted, once, and nothing when there is none. -/
theorem value_handle (s : Server) (env : Surroundings) (r : Request) (kind : RelayFailure) :
    (s.handle env r).2.counts.value (.relayFailures kind) =
      if s.failure? env r = some kind then some ((s.counts.value (.relayFailures kind)).getD 0 + 1)
      else s.counts.value (.relayFailures kind) := by
  have hcounts : (s.handle env r).2.counts =
      count (s.respond env (started s.http env r)).2.2.2.counts (identified env r).head.method
        (s.respond env (started s.http env r)).1 (s.respond env (started s.http env r)).2.1 := rfl
  rw [hcounts, counts_respond, failure_respond]
  exact value_count s.counts _ _ _ kind

def failures (s : Server) : List (Surroundings × Request) → List RelayFailure
  | [] => []
  | e :: rest => (s.failure? e.1 e.2).toList ++ failures (s.handle e.1 e.2).2 rest

/-- After a run just the failures of its requests have been added. -/
theorem value_run (s : Server) (history : List (Surroundings × Request)) (kind : RelayFailure) :
    ((s.run history).counts.value (.relayFailures kind)).getD 0 =
      (s.counts.value (.relayFailures kind)).getD 0 + (s.failures history).count kind := by
  induction history generalizing s with
  | nil => rfl
  | cons e rest ih =>
    have hstep : ((s.handle e.1 e.2).2.counts.value (.relayFailures kind)).getD 0 =
        (s.counts.value (.relayFailures kind)).getD 0 +
          (s.failure? e.1 e.2).toList.count kind := by
      rw [value_handle]
      cases s.failure? e.1 e.2 with
      | none => rfl
      | some other =>
        by_cases hkind : other = kind
        · simp [hkind]
        · simp [hkind]
    have hrest := ih (s.handle e.1 e.2).2
    rw [hstep, Nat.add_assoc, ← List.count_append] at hrest
    exact hrest

end Gateway.Server
