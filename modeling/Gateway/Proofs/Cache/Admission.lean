import Gateway.Proofs.Cache.Copying
import Gateway.Proofs.Cache.Journal
import Gateway.Proofs.Cache.RoundTrip
import Gateway.Proxy.HopByHop

/-! Which exchanges are written to the backend. A response is written once, with all of its body,
when the request, the response head and the transfer of the body allow it; nothing else is
written. -/
namespace Gateway.Cache

open Gateway.Http

theorem isCacheable_iff (r : RequestHead) : isCacheable r = true ↔
    (r.method = .get ∨ r.method = .head) ∧ r.headers.values .range = [] ∧
      (∀ token ∈ r.headers.elements .connection,
        ¬ Bytes.eqIgnoreCase token (.ofLatin1 "upgrade") = true) ∧
      ∀ t, r.headers.text? .upgrade = some t →
        ¬ Bytes.eqIgnoreCase (Bytes.trim t) (.ofLatin1 "websocket") = true := by
  unfold isCacheable Headers.contains Headers.hasToken
  cases r.headers.text? .upgrade <;> simp [and_assoc]

/-- The exchange may be stored, and the client has received the whole of the body. -/
structure Admitted (maxBody : Nat) (r : RequestHead) (app : Response ResponseHead) (polls : Nat)
    (data : Bytes) : Prop where
  method : r.method = .get ∨ r.method = .head
  range : r.headers.values .range = []
  connection : ∀ token ∈ r.headers.elements .connection,
    ¬ Bytes.eqIgnoreCase token (.ofLatin1 "upgrade") = true
  upgrade : ∀ t, r.headers.text? .upgrade = some t →
    ¬ Bytes.eqIgnoreCase (Bytes.trim t) (.ofLatin1 "websocket") = true
  lifetime : (lifetime? app.head.status app.head.headers).isSome = true
  received : app.body.received? polls = some data
  length_le : data.length ≤ maxBody

theorem admitted_iff {maxBody : Nat} {r : RequestHead} {app : Response ResponseHead} {polls : Nat}
    {data : Bytes} : Admitted maxBody r app polls data ↔
      isCacheable r = true ∧ mayStore app.head.status app.head.headers = true ∧
        ((Capture.start app.body maxBody).polled polls).captured = some data := by
  rw [isCacheable_iff, Capture.captured_start, Option.filter_eq_some_iff, decide_eq_true_eq]
  constructor
  · rintro ⟨hmethod, hrange, hconnection, hupgrade, hlifetime, hreceived, hlength⟩
    exact ⟨⟨hmethod, hrange, hconnection, hupgrade⟩, hlifetime, hreceived, hlength⟩
  · rintro ⟨⟨hmethod, hrange, hconnection, hupgrade⟩, hlifetime, hreceived, hlength⟩
    exact ⟨hmethod, hrange, hconnection, hupgrade, hlifetime, hreceived, hlength⟩

/-- The response of the origin and how often it has been polled. -/
def Course.response? : Course → Option (Response ResponseHead × Nat)
  | returned app polls _ => some (app, polls)
  | _ => none

namespace Journal

/-- What is written for a response once this much of it has been captured whole. -/
def HandedOver (r : RequestHead) (head : ResponseHead) (writes : List Call) : Option Bytes → Prop
  | none => writes = []
  | some data => ∃ time draws,
    writes = (⟨r, head.status, head.headers, data, time⟩ : Deposit).calls draws

/-- The writes of a request are those that its course asks for. -/
inductive Accounted (maxBody : Nat) (r : RequestHead) : Course → List Call → Prop
  | answered : Accounted maxBody r .answered []
  | passed {v : Variant} (hv : v.Describes r) : Accounted maxBody r (.passed v (isCacheable r)) []
  | failed : Accounted maxBody r .failed []
  | uncaptured {app : Response ResponseHead} {polls : Nat}
      (h : ¬ (isCacheable r = true ∧ mayStore app.head.status app.head.headers = true)) :
    Accounted maxBody r (.returned app polls none) []
  | captured {app : Response ResponseHead} {polls : Nat} {capture : Capture} {v : Variant}
      {writes : List Call} (hcacheable : isCacheable r = true)
      (hstore : mayStore app.head.status app.head.headers = true) (hv : v.Describes r)
      (hcapture : capture = (Capture.start app.body maxBody).polled polls)
      (hwrites : HandedOver r app.head writes capture.captured) :
    Accounted maxBody r
      (.returned app polls (some (capture, ⟨v, app.head.status, app.head.headers⟩))) writes

structure Kept (maxBody : Nat) (w : Journal) : Prop where
  maxBody_eq : w.cache.maxBody = maxBody
  accounted : ∀ n x, w.rounds[n]? = some x → Accounted maxBody x.request x.course (w.writesOf n)
  placed : ∀ p ∈ w.writes, p.1 < w.rounds.length

theorem kept_start (cache : ResponseCache) (now : Time) : (start cache now).Kept cache.maxBody :=
  ⟨rfl, fun n x hx => by simp [start] at hx, fun p hp => (List.not_mem_nil hp).elim⟩

theorem writesOf_append {w w' : Journal} {n : Nat} {news : List Call}
    (h : w'.writes = w.writes ++ news.map (n, ·)) (m : Nat) :
    w'.writesOf m = if m = n then w.writesOf m ++ news else w.writesOf m := by
  unfold writesOf
  rw [h, List.filter_append, List.map_append]
  split_ifs with hm
  · have hall : (news.map (n, ·)).filter (fun p => p.1 == m) = news.map (n, ·) :=
      List.filter_eq_self.mpr (by simp [hm])
    rw [hall, List.map_map]
    congr 1
    exact List.map_id news
  · have hnone : (news.map (n, ·)).filter (fun p => p.1 == m) = [] :=
      List.filter_eq_nil_iff.mpr (by simp [Ne.symm hm])
    rw [hnone, List.map_nil, List.append_nil]

section Steps
variable {maxBody : Nat} {w w' : Journal} (h : w.Kept maxBody)
include h

/-- The course of one request goes on, and what it writes is noted with its place. -/
theorem Kept.changed {n : Nat} {x : Round} {news : List Call} (hn : n < w.rounds.length)
    (hrounds : w'.rounds = w.rounds.set n x) (hwrites : w'.writes = w.writes ++ news.map (n, ·))
    (hmax : w'.cache.maxBody = w.cache.maxBody)
    (hx : Accounted maxBody x.request x.course (w.writesOf n ++ news)) : w'.Kept maxBody where
  maxBody_eq := hmax.trans h.maxBody_eq
  accounted := by
    intro m y hy
    rw [hrounds, List.getElem?_set] at hy
    rw [writesOf_append hwrites]
    split_ifs at hy with hnm
    · obtain rfl := Option.some.inj hy
      rw [if_pos hnm.symm, ← hnm]
      exact hx
    · rw [if_neg (Ne.symm hnm)]
      exact h.accounted m y hy
  placed := by
    intro p hp
    rw [hrounds, List.length_set]
    rw [hwrites] at hp
    rcases List.mem_append.mp hp with hp | hp
    · exact h.placed p hp
    · obtain ⟨call, -, rfl⟩ := List.mem_map.mp hp
      exact hn

theorem Kept.moved {n : Nat} {x : Round} (hn : n < w.rounds.length)
    (hrounds : w'.rounds = w.rounds.set n x) (hwrites : w'.writes = w.writes)
    (hmax : w'.cache.maxBody = w.cache.maxBody)
    (hx : Accounted maxBody x.request x.course (w.writesOf n)) : w'.Kept maxBody :=
  have hnews : w'.writes = w.writes ++ ([] : List Call).map (n, ·) := by simp [hwrites]
  h.changed hn hrounds hnews hmax (by rwa [List.append_nil])

theorem Kept.added {x : Round} (hrounds : w'.rounds = w.rounds ++ [x])
    (hwrites : w'.writes = w.writes) (hmax : w'.cache.maxBody = w.cache.maxBody)
    (hx : Accounted maxBody x.request x.course []) : w'.Kept maxBody where
  maxBody_eq := hmax.trans h.maxBody_eq
  accounted := by
    intro m y hy
    have hsame : w'.writesOf m = w.writesOf m := by
      unfold writesOf
      rw [hwrites]
    rw [hrounds] at hy
    rw [hsame]
    rcases Nat.lt_or_ge m w.rounds.length with hm | hm
    · rw [List.getElem?_append_left hm] at hy
      exact h.accounted m y hy
    · rw [List.getElem?_append_right hm] at hy
      obtain rfl := List.mem_singleton.mp (List.mem_of_getElem? hy)
      have hnone : w.writes.filter (fun p => p.1 == m) = [] := by
        refine List.filter_eq_nil_iff.mpr fun p hp => ?_
        have hplaced := h.placed p hp
        simp only [beq_iff_eq]
        omega
      unfold writesOf
      rw [hnone]
      exact hx
  placed := by
    intro p hp
    rw [hrounds, List.length_append]
    rw [hwrites] at hp
    exact Nat.lt_of_lt_of_le (h.placed p hp) (Nat.le_add_right _ _)

omit h in
theorem settle_spec (w : Journal) (n : Nat) (r : RequestHead) (draws : Draws) (capture : Capture)
    (v : Variant) (head : ResponseHead) :
    let w' := w.settle n r draws (some (capture, ⟨v, head.status, head.headers⟩))
    w'.rounds = w.rounds ∧ w'.cache.maxBody = w.cache.maxBody ∧
      ∃ news, w'.writes = w.writes ++ news.map (n, ·) ∧
        HandedOver r head news capture.captured := by
  unfold settle ResponseCache.settle
  dsimp only
  cases capture.captured with
  | none => exact ⟨rfl, rfl, [], by simp, rfl⟩
  | some body =>
    let d : Deposit := ⟨r, head.status, head.headers, body, w.now⟩
    exact ⟨rfl, w.cache.maxBody_store _ body w.now draws, d.calls draws, rfl, w.now, draws, rfl⟩

theorem Kept.receive (r : RequestHead) : (w.receive r).Kept maxBody ∧ Logged w (w.receive r) := by
  have hattempt := w.cache.attempt_lookup (v := .ofRequest r) rfl w.now
  have hvariant : (w.cache.lookup (.ofRequest r) w.now).variant.Describes r :=
    ResponseCache.tried_withNames hattempt.variant_mem
  have hmax := hattempt.maxBody
  have hstore := congrArg Metered.store hattempt.backend
  have hreads : (((w.cache.tried (.ofRequest r) w.now).map fun u => Call.get u.key w.now).filter
      Call.isWrite) = [] := by
    rw [List.filter_map]
    simp [Function.comp_def, Call.isWrite]
  unfold Journal.receive ResponseCache.receive
  dsimp only
  cases (w.cache.lookup (.ofRequest r) w.now).hit with
  | some stored =>
    refine ⟨h.added rfl rfl hmax .answered, .of_calls hreads hstore rfl ?_ hmax⟩
    exact (ResponseCache.stores_count _ .hit).trans hattempt.stores
  | none =>
    refine ⟨h.added rfl rfl hmax (.passed hvariant), ?_⟩
    exact .of_calls hreads hstore rfl hattempt.stores hmax

theorem Kept.respond {n : Nat} {r : RequestHead} {v : Variant} {cacheable : Bool}
    (hn : w.rounds[n]? = some ⟨r, .passed v cacheable⟩) (app : Response ResponseHead)
    (draws : Draws) :
    (w.respond n r v cacheable app draws).Kept maxBody ∧
      Logged w (w.respond n r v cacheable app draws) := by
  obtain ⟨hlt, -⟩ := List.getElem?_eq_some_iff.mp hn
  have haccounted : Accounted maxBody r (.passed v cacheable) (w.writesOf n) := h.accounted n _ hn
  generalize hwrites : w.writesOf n = writes at haccounted
  cases haccounted with
  | passed hv =>
    have hsame := w.cache.sameContent_relay v (isCacheable r) app.head app.body
    have hstores := w.cache.stores_relay v (isCacheable r) app.head app.body
    have hmax := w.cache.maxBody_relay v (isCacheable r) app.head app.body
    have hcapture := w.cache.capture_relay v (isCacheable r) app.head app.body
    unfold Journal.respond
    generalize w.cache.relay v (isCacheable r) app.head app.body = relayed at *
    obtain ⟨returned, cache⟩ := relayed
    dsimp only at hcapture hstores hmax ⊢
    rw [hcapture]
    split_ifs with hgate
    · obtain ⟨hcacheable, hstore⟩ := hgate
      let capture := Capture.start app.body w.cache.maxBody
      let e : Exchange := ⟨v, app.head.status, app.head.headers⟩
      let w₁ := { w with cache }.put n r (.returned app 0 (some (capture, e)))
      have hfirst : Logged w w₁ := .of_same hsame.store rfl hstores hmax
      have hsecond : Logged w₁ (w₁.settle n r draws (some (capture, e))) :=
        logged_settle w₁ n draws fun p hp => by
          obtain rfl := Option.some.inj hp
          exact hv
      obtain ⟨hrounds, hmaxBody, news, hnews, hhanded⟩ :=
        settle_spec w₁ n r draws capture v app.head
      refine ⟨h.changed hlt hrounds hnews (hmaxBody.trans hmax) ?_, hfirst.trans hsecond⟩
      rw [hwrites, List.nil_append]
      exact .captured hcacheable hstore hv (by rw [← h.maxBody_eq]; rfl) hhanded
    · refine ⟨h.moved hlt rfl rfl hmax ?_, ?_⟩
      · rw [hwrites]
        exact .uncaptured hgate
      · exact .of_same hsame.store rfl hstores hmax

theorem Kept.fail {n : Nat} {r : RequestHead} {v : Variant} {cacheable : Bool}
    (hn : w.rounds[n]? = some ⟨r, .passed v cacheable⟩) :
    (w.put n r .failed).Kept maxBody ∧ Logged w (w.put n r .failed) := by
  obtain ⟨hlt, -⟩ := List.getElem?_eq_some_iff.mp hn
  have haccounted : Accounted maxBody r (.passed v cacheable) (w.writesOf n) := h.accounted n _ hn
  have hempty : w.writesOf n = [] := by
    generalize w.writesOf n = writes at haccounted
    cases haccounted
    rfl
  refine ⟨h.moved hlt rfl rfl rfl ?_, .of_same rfl rfl rfl rfl⟩
  rw [hempty]
  exact .failed

theorem Kept.poll {n : Nat} {r : RequestHead} {app : Response ResponseHead} {polls : Nat}
    {capture : Option (Capture × Exchange)}
    (hn : w.rounds[n]? = some ⟨r, .returned app polls capture⟩) (draws : Draws) :
    (w.poll n r app polls draws capture).Kept maxBody ∧
      Logged w (w.poll n r app polls draws capture) := by
  obtain ⟨hlt, -⟩ := List.getElem?_eq_some_iff.mp hn
  have haccounted : Accounted maxBody r (.returned app polls capture) (w.writesOf n) :=
    h.accounted n _ hn
  generalize hwrites : w.writesOf n = writes at haccounted
  cases haccounted with
  | uncaptured hgate =>
    refine ⟨h.moved hlt rfl rfl rfl ?_, ?_⟩
    · rw [hwrites]
      exact .uncaptured hgate
    · exact .of_same rfl rfl rfl rfl
  | @captured _ _ capture v _ hcacheable hstore hv hcapture hhanded =>
    let e : Exchange := ⟨v, app.head.status, app.head.headers⟩
    let w₁ := w.put n r (.returned app (polls + 1) (some (capture.poll.2, e)))
    have hnext : capture.poll.2 = (Capture.start app.body maxBody).polled (polls + 1) := by
      rw [Capture.polled_succ', hcapture]
    have hfirst : Logged w w₁ := .of_same rfl rfl rfl rfl
    unfold Journal.poll
    dsimp only
    cases hcaptured : capture.captured with
    | some data =>
      -- nothing more is handed over, and what was stays what the polls so far come to
      rw [hcaptured] at hhanded
      refine ⟨h.moved hlt rfl rfl rfl ?_, hfirst⟩
      rw [hwrites]
      refine .captured hcacheable hstore hv hnext ?_
      rw [hnext, Capture.captured_start_succ (hcapture ▸ hcaptured)]
      exact hhanded
    | none =>
      rw [hcaptured] at hhanded
      have hempty : w.writesOf n = [] := hwrites.trans hhanded
      have hsecond : Logged w₁ (w₁.settle n r draws (some (capture.poll.2, e))) :=
        logged_settle w₁ n draws fun p hp => by
          obtain rfl := Option.some.inj hp
          exact hv
      obtain ⟨hrounds, hmaxBody, news, hnews, hnewsHanded⟩ :=
        settle_spec w₁ n r draws capture.poll.2 v app.head
      refine ⟨h.changed hlt hrounds hnews hmaxBody ?_, hfirst.trans hsecond⟩
      rw [hempty, List.nil_append]
      exact .captured hcacheable hstore hv hnext hnewsHanded

end Steps

theorem Kept.step {maxBody : Nat} {w : Journal} (h : w.Kept maxBody) (event : Event) :
    (w.step event).Kept maxBody ∧ Logged w (w.step event) := by
  have hidle : w.Kept maxBody ∧ Logged w w := ⟨h, .refl w⟩
  cases event with
  | receive r => exact h.receive r
  | respond n head body draws =>
    unfold Journal.step
    dsimp only
    split
    · exact h.respond ‹_› ⟨head, body⟩ draws
    · exact hidle
  | fail n =>
    unfold Journal.step
    dsimp only
    split
    · exact h.fail ‹_›
    · exact hidle
  | poll n draws =>
    unfold Journal.step
    dsimp only
    split
    · exact h.poll ‹_› draws
    · exact hidle
  | purge =>
    have hcalls : [Call.purge w.now].filter Call.isWrite = [] := rfl
    have hown : Metered.isOwn .cacheStores = false := rfl
    have hstores := Metered.value_recordSize (w.cache.backend.store.purge w.now).2
      w.cache.backend.metrics hown
    refine ⟨⟨h.maxBody_eq, h.accounted, h.placed⟩, .of_calls hcalls rfl rfl ?_ rfl⟩
    exact congrArg (·.getD 0) hstores
  | advance ms => exact ⟨⟨h.maxBody_eq, h.accounted, h.placed⟩, .of_same rfl rfl rfl rfl⟩

theorem Kept.run {maxBody : Nat} {w : Journal} (h : w.Kept maxBody) (events : List Event) :
    (w.run events).Kept maxBody ∧ Logged w (w.run events) := by
  induction events generalizing w with
  | nil => exact ⟨h, .refl w⟩
  | cons event rest ih =>
    obtain ⟨hkept, hlogged⟩ := h.step event
    obtain ⟨hrest, hloggedRest⟩ := ih hkept
    exact ⟨hrest, hlogged.trans hloggedRest⟩

theorem Accounted.eq_nil {maxBody : Nat} {r : RequestHead} {course : Course} {writes : List Call}
    (h : Accounted maxBody r course writes)
    (hnone : ∀ app polls data, course.response? = some (app, polls) →
      ¬ Admitted maxBody r app polls data) : writes = [] := by
  cases h with
  | answered => rfl
  | passed => rfl
  | failed => rfl
  | uncaptured => rfl
  | @captured app polls capture _ _ hcacheable hstore hv hcapture hwrites =>
    cases hdata : capture.captured with
    | none =>
      rw [hdata] at hwrites
      exact hwrites
    | some data =>
      rw [hcapture] at hdata
      exact absurd (admitted_iff.mpr ⟨hcacheable, hstore, hdata⟩) (hnone app polls data rfl)

theorem Accounted.handedOver {maxBody : Nat} {r : RequestHead} {course : Course}
    {writes : List Call} (h : Accounted maxBody r course writes) {app : Response ResponseHead}
    {polls : Nat} {data : Bytes} (happ : course.response? = some (app, polls))
    (hadmitted : Admitted maxBody r app polls data) : HandedOver r app.head writes (some data) := by
  obtain ⟨hcacheable, hstore, hcaptured⟩ := admitted_iff.mp hadmitted
  cases h with
  | answered => cases happ
  | passed => cases happ
  | failed => cases happ
  | uncaptured hgate =>
    cases happ
    exact absurd ⟨hcacheable, hstore⟩ hgate
  | captured _ _ _ hcapture hwrites =>
    cases happ
    rwa [hcapture, hcaptured] at hwrites

/-- An exchange that is admitted has been written once, as the response of the origin without its
cookies, and every other exchange not at all. These writes are all that the backend has seen. -/
theorem written_exactly_once (cache : ResponseCache) (now : Time) (events : List Event) :
    let w := (start cache now).run events
    Logged (start cache now) w ∧ (∀ p ∈ w.writes, p.1 < w.rounds.length) ∧
    ∀ n x, w.rounds[n]? = some x →
      (∀ app polls data, x.course.response? = some (app, polls) →
        Admitted cache.maxBody x.request app polls data →
        ∃ v expires time draws blob,
          v = (Variant.ofRequest x.request).learn app.head.headers ∧
          ((lifetime? app.head.status app.head.headers).map fun s => time + 1000 * s) =
            some expires ∧
          w.writesOf n = [.set v.key blob expires time draws] ∧
          ((⟨app.head.status, app.head.headers, data, v.recorded⟩ : Stored).Fits →
            ∃ s, Stored.decode blob = .ok s ∧ s.status = app.head.status ∧ s.body = data ∧
              s.headers.names = app.head.headers.names.filter (· != .setCookie) ∧
              ∀ name, s.headers.values name =
                if name = .setCookie then [] else app.head.headers.values name)) ∧
      ((∀ app polls data, x.course.response? = some (app, polls) →
        ¬ Admitted cache.maxBody x.request app polls data) → w.writesOf n = []) ∧
      ((Proxy.upgradeType? x.request.headers).isSome = true → w.writesOf n = []) := by
  intro w
  obtain ⟨hkept, hlogged⟩ := (kept_start cache now).run events
  refine ⟨hlogged, hkept.placed, fun n x hx => ?_⟩
  have haccounted := hkept.accounted n x hx
  refine ⟨fun app polls data happ hadmitted => ?_, haccounted.eq_nil, fun hupgrade => ?_⟩
  · obtain ⟨time, draws, hwrites⟩ := haccounted.handedOver happ hadmitted
    let d : Deposit := ⟨x.request, app.head.status, app.head.headers, data, time⟩
    obtain ⟨seconds, hlifetime⟩ := Option.isSome_iff_exists.mp hadmitted.lifetime
    have hexpires : d.expires? = some (time + 1000 * seconds) := congrArg (Option.map _) hlifetime
    refine ⟨d.variant, time + 1000 * seconds, time, draws, d.blob, rfl, hexpires, ?_, ?_⟩
    · rw [hwrites]
      unfold Deposit.calls
      rw [hexpires]
    · intro hfits
      refine ⟨_, Stored.decode_encode hfits, rfl, rfl, ?_, ?_⟩
      · exact app.head.headers.names_erase .setCookie
      · exact app.head.headers.values_erase .setCookie
  · refine haccounted.eq_nil fun app polls data _ hadmitted => ?_
    unfold Proxy.upgradeType? at hupgrade
    split_ifs at hupgrade with htoken
    · obtain ⟨token, htoken, heq⟩ := List.any_eq_true.mp htoken
      exact hadmitted.connection token htoken heq
    · cases hupgrade

/-- One body comes in two frames; a second exchange asks for an upgrade, the body of a third grows
too long, a fourth fails midway and a fifth is dropped. -/
theorem written_exactly_once_beside_others :
    let line (n : HeaderName) (s : String) (h : (Bytes.ofLatin1 s).all isValueByte = true) :=
      (n, HeaderValue.ofLatin1 s h)
    let get (fields : List (HeaderName × HeaderValue)) : RequestHead :=
      ⟨.get, ⟨none, none, [47], none, by decide, by simp⟩, .ofFields fields⟩
    let upgrading := get [line .connection "keep-alive, Upgrade" (by decide),
      line .upgrade "h2c" (by decide)]
    let head : ResponseHead := ⟨.ok, .ofFields [
      line .cacheControl "public, max-age=60" (by decide), line .setCookie "id=1" (by decide)]⟩
    let draws : Draws := fun _ _ => 0
    let streamed : Body := .ofPolls [.frame (.data [1, 2]), .pending, .frame (.data [3])]
    let long : Body := .ofPolls [.frame (.data [1, 2, 3]), .frame (.data [4, 5])]
    let broken : Body := .ofPolls [.frame (.data [1]), .failed]
    let cache : ResponseCache := ⟨.fresh 1000 1000 [], [], 4⟩
    let w := (start cache 0).run [
      .receive (get []), .receive upgrading, .receive (get []), .receive (get []),
      .receive (get []), .respond 0 head streamed draws, .respond 1 head .empty draws,
      .respond 2 head long draws, .respond 3 head broken draws, .respond 4 head streamed draws,
      .poll 0 draws, .poll 2 draws, .poll 3 draws, .poll 4 draws, .poll 0 draws, .poll 2 draws,
      .poll 3 draws, .poll 0 draws, .poll 2 draws, .advance 1000, .poll 0 draws, .poll 0 draws]
    Admitted 4 (get []) ⟨head, streamed⟩ 5 [1, 2, 3] ∧
    (∃ k blob expires time draws s, w.writesOf 0 = [.set k blob expires time draws] ∧
      Stored.decode blob = .ok s ∧ s.body = [1, 2, 3] ∧ s.headers.values .setCookie = []) ∧
    w.writesOf 1 = [] ∧ w.writesOf 2 = [] ∧ w.writesOf 3 = [] ∧ w.writesOf 4 = [] := by
  intro line get upgrading head draws streamed long broken cache w
  have hadmitted : Admitted 4 (get []) ⟨head, streamed⟩ 5 [1, 2, 3] :=
    admitted_iff.mpr (by decide +kernel)
  have hfits : (⟨head.status, head.headers, [1, 2, 3],
      ((Variant.ofRequest (get [])).learn head.headers).recorded⟩ : Stored).Fits := by
    decide +kernel
  have hfirst : (w.rounds[0]?.map fun x => (x.request, x.course.response?.map fun p =>
      (p.1.head.status, p.1.head.headers, p.1.body, p.2))) =
      some (get [], some (head.status, head.headers, streamed, 5)) := by decide +kernel
  obtain ⟨⟨request, course⟩, hx, heq⟩ := Option.map_eq_some_iff.mp hfirst
  obtain ⟨rfl, hcourse⟩ := Prod.mk.inj heq
  obtain ⟨⟨⟨⟨status, headers⟩, body⟩, polls⟩, happ, heq⟩ := Option.map_eq_some_iff.mp hcourse
  simp only [Prod.mk.injEq] at heq
  obtain ⟨rfl, rfl, rfl, rfl⟩ := heq
  obtain ⟨-, -, hrounds⟩ := written_exactly_once cache 0 _
  obtain ⟨hwritten, -, -⟩ := hrounds 0 _ hx
  obtain ⟨v, expires, time, draws, blob, rfl, -, hwrites, hread⟩ :=
    hwritten _ _ _ happ hadmitted
  obtain ⟨s, hdecode, -, hbody, -, hvalues⟩ := hread hfits
  refine ⟨hadmitted, ⟨_, _, _, _, _, _, hwrites, hdecode, hbody, hvalues .setCookie⟩, ?_⟩
  exact ⟨List.isEmpty_iff.mp (by decide +kernel), List.isEmpty_iff.mp (by decide +kernel),
    List.isEmpty_iff.mp (by decide +kernel), List.isEmpty_iff.mp (by decide +kernel)⟩

end Journal

end Gateway.Cache
