import Gateway.Proofs.Cache.Outcomes
import Gateway.Proofs.Proxy.PassedHeaders
import Gateway.Proofs.Proxy.TargetParts
import Gateway.Server.Stack

/-! What a client gets for each way that sending its request on can end, and what is counted of
it. -/
namespace Gateway.Proxy
open Http

/-- The answer to a request whose body is over the limit. -/
structure IsTooLarge (f : Forwarded) : Prop where
  head : f.response.head = ⟨.contentTooLarge, ∅⟩
  body : f.response.body = .empty
  failure : f.failure = some .bodyTooLarge

/-- The answer when none came: the page at a path, if it could be read. -/
structure IsBadGateway (files : Files) (path : String) (f : Forwarded) : Prop where
  status : f.response.head.status = .badGateway
  failure : f.failure = some .badGateway
  page : ∀ content, path ≠ "" → files.read (Text.Utf8.encode path) = .ok content →
    f.response.head.headers.fields = [(.contentType, .ofLatin1 "text/html" (by decide))] ∧
      f.response.body = .whole content
  bare : (path = "" ∨ ∃ e, files.read (Text.Utf8.encode path) = .error e) →
    f.response.head.headers = ∅ ∧ f.response.body = .empty

/-- The target's change of protocol, passed on. -/
structure IsSwitched (r : Response ResponseHead) (f : Forwarded) : Prop where
  head : f.response.head = r.head
  body : f.response.body = .empty
  failure : f.failure = none

/-- The target's answer, passed on without what belongs to its connection. -/
structure IsRelayed (r : Response ResponseHead) (f : Forwarded) : Prop where
  status : f.response.head.status = r.head.status
  body : f.response.body = r.body
  headers : ∀ n, f.response.head.headers.values n =
    if n ∈ hopByHopNames ∨ n = .upgrade ∨ n ∈ connectionNames r.head.headers then []
    else r.head.headers.values n
  failure : f.failure = none

/-- The request asks for another protocol over a connection that can change to it. -/
def AsksToSwitch (i : Inbound) : Prop :=
  (i.head.headers.Lists .connection fun e =>
    Bytes.eqIgnoreCase e (.ofLatin1 "upgrade") = true) ∧
  i.head.headers.values .upgrade ≠ [] ∧ i.canUpgrade = true

/-- What is to come of each way that a request to the target can end. -/
def Yields (files : Files) (path : String) (i : Inbound) (f : Forwarded) : Outcome → Prop
  | .failed chain =>
    (IsTooLarge f ↔ .lengthLimit ∈ chain) ∧ (IsBadGateway files path f ↔ .lengthLimit ∉ chain)
  | .answered r =>
    if r.head.status = .switchingProtocols then
      (IsSwitched r f ↔ AsksToSwitch i) ∧ (IsBadGateway files path f ↔ ¬ AsksToSwitch i)
    else IsRelayed r f

namespace ReverseProxy
variable {s : Config.Settings} {files : Files} {p : ReverseProxy} {path : String} {f : Forwarded}

theorem isTooLarge_iff {chain : List Cause} : isTooLarge chain = true ↔ .lengthLimit ∈ chain := by
  induction chain with
  | nil => simp [isTooLarge]
  | cons cause rest ih =>
    unfold isTooLarge
    rw [Bool.or_eq_true, beq_iff_eq, ih, List.mem_cons]
    exact or_congr_left eq_comm

theorem badGatewayPage_of_ofSettings (hp : ofSettings s files = .ok p) :
    p.badGatewayPage = readPage files s.proxy.badGatewayPage := by
  unfold ofSettings at hp
  cases htarget : Target.parse s.targetUrl with
  | error e =>
    rw [htarget] at hp
    cases hp
  | ok target =>
    rw [htarget] at hp
    obtain rfl := Except.ok.inj hp
    rfl

theorem badGateway_of_page {page : Bytes} (h : p.badGatewayPage = some page) : p.badGateway =
    ⟨⟨.badGateway, .ofFields [(.contentType, .ofLatin1 "text/html" (by decide))]⟩,
      .whole page⟩ := by
  unfold badGateway
  rw [h]

theorem badGateway_of_no_page (h : p.badGatewayPage = none) :
    p.badGateway = ⟨⟨.badGateway, ∅⟩, .empty⟩ := by
  unfold badGateway
  rw [h]

theorem status_badGateway (p : ReverseProxy) : p.badGateway.head.status = .badGateway := by
  unfold badGateway
  split
  · rfl
  · rfl

theorem readPage_eq_some {content : Bytes} (hnamed : path ≠ "")
    (hread : files.read (Text.Utf8.encode path) = .ok content) :
    readPage files path = some content := by
  unfold readPage
  rw [if_neg hnamed, hread]
  rfl

theorem readPage_eq_none
    (h : path = "" ∨ ∃ e, files.read (Text.Utf8.encode path) = .error e) :
    readPage files path = none := by
  unfold readPage
  split_ifs with hnamed
  · rfl
  · obtain ⟨e, he⟩ := h.resolve_left hnamed
    rw [he]
    rfl

theorem isBadGateway_of_eq (hpage : p.badGatewayPage = readPage files path)
    (hresponse : f.response = p.badGateway) (hfailure : f.failure = some .badGateway) :
    IsBadGateway files path f := by
  constructor
  · rw [hresponse]
    exact status_badGateway p
  · exact hfailure
  · intro content hnamed hread
    rw [hresponse, badGateway_of_page (hpage.trans (readPage_eq_some hnamed hread))]
    exact ⟨rfl, rfl⟩
  · intro hmissing
    rw [hresponse, badGateway_of_no_page (hpage.trans (readPage_eq_none hmissing))]
    exact ⟨rfl, rfl⟩

theorem upgradable_iff (i : Inbound) :
    (i.canUpgrade && (upgradeType? i.head.headers).isSome) = true ↔ AsksToSwitch i := by
  unfold AsksToSwitch
  rw [Bool.and_eq_true, upgradeType?_isSome_iff]
  tauto

theorem isRelayed_of_eq {r : Response ResponseHead}
    (hresponse : f.response = ⟨⟨r.head.status, removeHopByHop r.head.headers⟩, r.body⟩)
    (hfailure : f.failure = none) : IsRelayed r f := by
  constructor
  · rw [hresponse]
  · rw [hresponse]
  · intro n
    rw [hresponse]
    show (removeHopByHop r.head.headers).values n = _
    rw [values_removeHopByHop]
    exact if_congr isHopByHop_iff rfl rfl
  · exact hfailure

end ReverseProxy

section Shapes
variable {files : Files} {path : String} {f : Forwarded}

theorem IsTooLarge.not_isBadGateway (h : IsTooLarge f) : ¬ IsBadGateway files path f := by
  intro hbad
  cases h.failure.symm.trans hbad.failure

theorem IsSwitched.not_isBadGateway {r : Response ResponseHead} (h : IsSwitched r f) :
    ¬ IsBadGateway files path f := by
  intro hbad
  cases h.failure.symm.trans hbad.failure

end Shapes

namespace ReverseProxy
variable {s : Config.Settings} {files : Files} {p : ReverseProxy} {path : String} {f : Forwarded}

/-- The answer that a way to end is concluded with, and what is counted of it. -/
theorem yields_of_conclude (hpage : p.badGatewayPage = readPage files path) {i : Inbound}
    {outcome : Outcome} (hf : (f.response, f.failure) =
      p.conclude (i.canUpgrade && (upgradeType? i.head.headers).isSome) outcome) :
    Yields files path i f outcome := by
  cases outcome with
  | failed chain =>
    obtain ⟨hresponse, hfailure⟩ := Prod.mk.inj hf
    unfold failureKind at hresponse hfailure
    by_cases hlimit : isTooLarge chain = true
    · rw [if_pos hlimit] at hresponse hfailure
      have hlarge : IsTooLarge f :=
        ⟨congrArg (·.head) hresponse, congrArg (·.body) hresponse, hfailure⟩
      have hmem := isTooLarge_iff.mp hlimit
      exact ⟨iff_of_true hlarge hmem, iff_of_false hlarge.not_isBadGateway (not_not.mpr hmem)⟩
    · rw [if_neg hlimit] at hresponse hfailure
      have hbad : IsBadGateway files path f := isBadGateway_of_eq hpage hresponse hfailure
      have hmem := isTooLarge_iff.not.mp hlimit
      exact ⟨iff_of_false (fun h => h.not_isBadGateway hbad) hmem, iff_of_true hbad hmem⟩
  | answered r =>
    unfold Yields
    unfold conclude at hf
    dsimp only at hf ⊢
    by_cases hswitching : r.head.status = .switchingProtocols
    · rw [if_pos hswitching] at hf ⊢
      by_cases hasked : AsksToSwitch i
      · rw [if_pos ((upgradable_iff i).mpr hasked)] at hf
        obtain ⟨hresponse, hfailure⟩ := Prod.mk.inj hf
        have hswitched : IsSwitched r f :=
          ⟨congrArg (·.head) hresponse, congrArg (·.body) hresponse, hfailure⟩
        exact ⟨iff_of_true hswitched hasked,
          iff_of_false hswitched.not_isBadGateway (not_not.mpr hasked)⟩
      · rw [if_neg ((upgradable_iff i).not.mpr hasked)] at hf
        obtain ⟨hresponse, hfailure⟩ := Prod.mk.inj hf
        have hbad : IsBadGateway files path f := isBadGateway_of_eq hpage hresponse hfailure
        exact ⟨iff_of_false (fun h => h.not_isBadGateway hbad) hasked, iff_of_true hbad hasked⟩
    · rw [if_neg hswitching] at hf ⊢
      obtain ⟨hresponse, hfailure⟩ := Prod.mk.inj hf
      exact isRelayed_of_eq hresponse hfailure

theorem attempt_eq (p : ReverseProxy) (client : RequestHead → Outcome × Option Http1.Sent × Nat)
    (i : Inbound) : (p.attempt client i).1 =
      match outbound? i.head p.target ⟨i.clientIp, i.scheme, p.trusted⟩ with
      | none => .failed [.other, .other]
      | some r => match (client r).1 with
        | .failed chain => .failed (.other :: chain)
        | .answered response => .answered response := by
  have hrewrite := rewrite_on p.target ⟨i.clientIp, i.scheme, p.trusted⟩ i.head
  unfold Rewriting.on at hrewrite
  unfold attempt
  rw [hrewrite]
  cases outbound? i.head p.target ⟨i.clientIp, i.scheme, p.trusted⟩ with
  | none => rfl
  | some r =>
    dsimp only
    obtain ⟨outcome, sent, delay⟩ := client r
    cases outcome with
    | failed chain => rfl
    | answered response => rfl

theorem conclude_attempt (p : ReverseProxy)
    (client : RequestHead → Outcome × Option Http1.Sent × Nat) (i : Inbound) :
    let f := p.forwardThrough client i
    (f.response, f.failure) =
      p.conclude (i.canUpgrade && (upgradeType? i.head.headers).isSome) (p.attempt client i).1 := by
  rfl

/-- An error of the client is the cause of one of the proxy, which is none of a body's length. -/
theorem yields_cause {i : Inbound} {chain : List Cause}
    (h : Yields files path i f (.failed (.other :: chain))) :
    Yields files path i f (.failed chain) := by
  have hmem : .lengthLimit ∈ Cause.other :: chain ↔ .lengthLimit ∈ chain := by simp
  dsimp only [Yields] at h ⊢
  rwa [hmem] at h

end ReverseProxy

end Gateway.Proxy

namespace Gateway.Server
open Http Proxy

/-- A request adds one to the failures of the kind that it ended with, and to none other. -/
theorem value_count (m : Metrics) (method : Method) (response : Coded)
    (failure : Option RelayFailure) (kind : RelayFailure) :
    (count m method response failure).value (.relayFailures kind) =
      if failure = some kind then some ((m.value (.relayFailures kind)).getD 0 + 1)
      else m.value (.relayFailures kind) := by
  unfold count Metrics.count
  rw [Metrics.value_add, if_neg nofun, Metrics.value_add, if_neg nofun]
  cases failure with
  | none => rfl
  | some other =>
    dsimp only
    rw [Metrics.value_add]
    by_cases hkind : other = kind
    · subst hkind
      rw [if_pos rfl, if_pos rfl]
    · have hmetric : Metric.relayFailures kind ≠ .relayFailures other := by
        intro h
        exact hkind (Metric.relayFailures.inj h).symm
      have hfailure : some other ≠ some kind := fun h => hkind (Option.some.inj h)
      rw [if_neg hmetric, if_neg hfailure]

variable {s : Config.Settings} {files : Files} {p : ReverseProxy}

/-- Whatever comes of a request at the target, its client gets what belongs to it, and a failure is
counted once, as what it is. -/
theorem forwardThrough_yields (hp : ReverseProxy.ofSettings s files = .ok p)
    (client : RequestHead → Outcome × Option Http1.Sent × Nat) (i : Inbound) :
    let f := p.forwardThrough client i
    (match outbound? i.head p.target ⟨i.clientIp, i.scheme, p.trusted⟩ with
      | none => IsBadGateway files s.proxy.badGatewayPage f
      | some r => Yields files s.proxy.badGatewayPage i f (client r).1) ∧
    ∀ m method response kind, (count m method response f.failure).value (.relayFailures kind) =
      if f.failure = some kind then some ((m.value (.relayFailures kind)).getD 0 + 1)
      else m.value (.relayFailures kind) := by
  intro f
  have hpage := ReverseProxy.badGatewayPage_of_ofSettings hp
  have hyields : Yields files s.proxy.badGatewayPage i f (p.attempt client i).1 :=
    ReverseProxy.yields_of_conclude hpage (ReverseProxy.conclude_attempt p client i)
  rw [ReverseProxy.attempt_eq] at hyields
  constructor
  · cases hrewrite : outbound? i.head p.target ⟨i.clientIp, i.scheme, p.trusted⟩ with
    | none =>
      rw [hrewrite] at hyields
      exact hyields.2.mpr (by decide)
    | some r =>
      rw [hrewrite] at hyields
      dsimp only at hyields ⊢
      cases houtcome : (client r).1 with
      | failed chain =>
        rw [houtcome] at hyields
        exact ReverseProxy.yields_cause hyields
      | answered response =>
        rw [houtcome] at hyields
        exact hyields
  · intro m method response kind
    exact value_count m method response f.failure kind

/-- A body over the limit deep in a chain of errors, after two such bodies before, and a change of
protocol that nobody asked for. -/
theorem forwardThrough_yields_of_nested_limit :
    let files : Files := ⟨[([.ofLatin1 "public", .ofLatin1 "502.html"],
      .file (.ofLatin1 "down") 1700000000)], []⟩
    let s : Config.Settings := { proxy := { targetUrl := "http://127.0.0.1:3000" } }
    let i : Inbound := ⟨⟨.get, ⟨none, none, [47], none, by decide, nofun⟩, ∅⟩, .empty, none, none,
      .http, true⟩
    let tooLong (_ : RequestHead) : Outcome × Option Http1.Sent × Nat :=
      (.failed [.other, .other, .lengthLimit], none, 0)
    let switching (_ : RequestHead) : Outcome × Option Http1.Sent × Nat :=
      (.answered ⟨⟨.switchingProtocols, ∅⟩, .empty⟩, none, 0)
    let before : Metrics := [(.relayFailures .bodyTooLarge, 2)]
    ∃ p, ReverseProxy.ofSettings s files = .ok p ∧ IsTooLarge (p.forwardThrough tooLong i) ∧
      IsBadGateway files "public/502.html" (p.forwardThrough switching i) ∧
      (p.forwardThrough switching i).response.body = .whole (.ofLatin1 "down") ∧
      let f := p.forwardThrough tooLong i
      let after := count before .get (.plain f.response) f.failure
      after.value (.relayFailures .bodyTooLarge) = some 3 ∧
        after.value (.relayFailures .badGateway) = none := by
  intro files s i tooLong switching before
  have hmade : ((ReverseProxy.ofSettings s files).toOption.map fun p =>
      (outbound? i.head p.target ⟨i.clientIp, i.scheme, p.trusted⟩).isSome) = some true := by
    decide +kernel
  obtain ⟨p, hp, hpasses⟩ := Option.map_eq_some_iff.mp hmade
  obtain ⟨r, hr⟩ := Option.isSome_iff_exists.mp hpasses
  have hp : ReverseProxy.ofSettings s files = .ok p := ok_of_toOption hp
  obtain ⟨htooLong, hcount⟩ := forwardThrough_yields hp tooLong i
  obtain ⟨hswitching, -⟩ := forwardThrough_yields hp switching i
  rw [hr] at htooLong hswitching
  have hunasked : ¬ AsksToSwitch i := fun hasked => hasked.2.1 (by decide +kernel)
  have hbad := hswitching.2.mpr hunasked
  have hlimit := htooLong.1.mpr (by decide)
  have hread : files.read (Text.Utf8.encode "public/502.html") = .ok (.ofLatin1 "down") := by
    decide +kernel
  refine ⟨p, hp, hlimit, hbad, (hbad.page (.ofLatin1 "down") (by decide) hread).2, ?_, ?_⟩
  · rw [hcount, hlimit.failure]
    rfl
  · rw [hcount, hlimit.failure]
    rfl

end Gateway.Server
