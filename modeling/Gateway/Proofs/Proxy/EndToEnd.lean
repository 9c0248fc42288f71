import Gateway.Proofs.Cache.Replays
import Gateway.Proofs.Proxy.TrustedHops
import Gateway.Proofs.Server.Conclusions

/-! What the gateway removes from a message because it is of one connection, and nothing else. The
names that go are read from the whole section first, so it makes no difference that `Connection`
names itself, or another name that always goes, or a name twice. -/
namespace Gateway.Proxy
open Http

/-- A header of the whole way, not of one connection. -/
structure EndToEnd (h : Headers) (n : HeaderName) : Prop where
  not_mem_hopByHopNames : n ∉ hopByHopNames
  ne_upgrade : n ≠ .upgrade
  not_named : ¬ NamedByConnection h n

section Names
variable {h : Headers} {n : HeaderName}

/-- A readable `Connection` line has the name among its elements, in some spelling. -/
theorem namedByConnection_iff : NamedByConnection h n ↔
    ∃ v ∈ h.values .connection, v.isReadable = true ∧
      ∃ element, Cache.Stored.IsElement v.bytes element ∧ Bytes.lower element = n.bytes := by
  refine exists_congr fun v => and_congr_right fun _ => ?_
  simp only [HeaderValue.text?_eq_some_iff, HeaderName.ofBytes?_eq_some_iff,
    Cache.Stored.isElement_iff]
  constructor
  · rintro ⟨text, ⟨hreadable, rfl⟩, piece, hpiece, hlower⟩
    exact ⟨hreadable, _, ⟨piece, hpiece, rfl⟩, hlower⟩
  · rintro ⟨hreadable, element, ⟨piece, hpiece, rfl⟩, hlower⟩
    exact ⟨v.bytes, ⟨hreadable, rfl⟩, piece, hpiece, hlower⟩

theorem endToEnd_iff : EndToEnd h n ↔ isHopByHop h n = false := by
  rw [← Bool.not_eq_true, isHopByHop_iff, mem_connectionNames_iff]
  constructor
  · rintro ⟨hlisted, hupgrade, hnamed⟩ (hmem | heq | hmem)
    · exact hlisted hmem
    · exact hupgrade heq
    · exact hnamed hmem
  · intro hstays
    exact ⟨fun hmem => hstays (.inl hmem), fun heq => hstays (.inr (.inl heq)),
      fun hmem => hstays (.inr (.inr hmem))⟩

instance (h : Headers) (n : HeaderName) : Decidable (EndToEnd h n) :=
  decidable_of_iff _ endToEnd_iff.symm

end Names

/-! ### The section that is left -/

theorem values_removeHopByHop_eq (h : Headers) (n : HeaderName) :
    (removeHopByHop h).values n = if EndToEnd h n then h.values n else [] := by
  rw [values_removeHopByHop]
  by_cases hstays : EndToEnd h n
  · rw [if_pos hstays, endToEnd_iff.mp hstays]
    rfl
  · rw [if_neg hstays, if_pos (by simpa [endToEnd_iff] using hstays)]

/-- The names may as well be removed one after the other, as long as they are read first. -/
theorem foldl_erase_hopByHop (h : Headers) :
    (connectionNames h ++ hopByHopNames ++ [HeaderName.upgrade]).foldl Headers.erase h =
      removeHopByHop h := by
  rw [Headers.foldl_erase]
  apply Headers.ext
  refine List.filter_congr fun g _ => congrArg _ (Bool.eq_iff_iff.mpr ?_)
  rw [isHopByHop_iff, List.contains_iff_mem]
  simp only [List.mem_append, List.mem_singleton]
  tauto

/-- Without `Connection` nothing is named. -/
theorem connectionNames_removeHopByHop (h : Headers) : connectionNames (removeHopByHop h) = [] := by
  have hgone : isHopByHop h .connection = true := isHopByHop_iff.mpr (.inl (by decide))
  have hvalues : (removeHopByHop h).values .connection = [] := by
    rw [values_removeHopByHop, if_pos hgone]
  unfold connectionNames Headers.elements Headers.texts
  rw [hvalues]
  rfl

theorem removeHopByHop_removeHopByHop (h : Headers) :
    removeHopByHop (removeHopByHop h) = removeHopByHop h := by
  apply Headers.ext
  refine List.filter_eq_self.mpr fun g hg => ?_
  have hstays : isHopByHop h g.1 = false := by
    have hkept := (List.mem_filter.mp hg).2
    rwa [Bool.not_eq_true'] at hkept
  obtain ⟨hlisted, hupgrade, -⟩ := endToEnd_iff.mpr hstays
  rw [Bool.not_eq_true', ← Bool.not_eq_true, isHopByHop_iff, connectionNames_removeHopByHop]
  rintro (hmem | heq | hmem)
  · exact hlisted hmem
  · exact hupgrade heq
  · cases hmem

/-! ### Both ways through the gateway -/

theorem values_forwardHeaders_of_endToEnd {r : RequestHead} {n : HeaderName}
    (h : EndToEnd r.headers n) (hhost : n ≠ .host) (hforwarded : n ∉ forwardedNames) (t : Target)
    (c : ForwardingContext) : (forwardHeaders r t c).values n = r.headers.values n := by
  -- of the names that the gateway sets itself all but the host go with their connection
  have hconnection : n ≠ .connection := fun heq => h.not_mem_hopByHopNames (heq ▸ by decide)
  have hte : n ≠ .te := fun heq => h.not_mem_hopByHopNames (heq ▸ by decide)
  have hrenewed : n ∉ renewedNames := by simp [renewedNames, hhost, hconnection, h.ne_upgrade, hte]
  rw [values_forwardHeaders_of_not_renewed hrenewed hforwarded, endToEnd_iff.mp h]
  rfl

namespace ReverseProxy
variable {p : ReverseProxy}

/-- What is passed on of an answer: a change of protocol as it is, else what is left of it. -/
theorem headers_conclude {upgradable : Bool} {r : Response ResponseHead}
    (h : (p.conclude upgradable (.answered r)).2 = none) :
    (p.conclude upgradable (.answered r)).1.head.headers =
      if r.head.status = .switchingProtocols then r.head.headers
      else removeHopByHop r.head.headers := by
  unfold conclude at h ⊢
  dsimp only at h ⊢
  split_ifs at h ⊢ <;> rfl

/-- An attempt ends with an answer only if the rewritten request got it. -/
theorem exists_sent_of_answered {client : RequestHead → Outcome × Option Http1.Sent × Nat}
    {i : Inbound} {r : Response ResponseHead} (h : (p.attempt client i).1 = .answered r) :
    ∃ sent, outbound? i.head p.target ⟨i.clientIp, i.scheme, p.trusted⟩ = some sent ∧
      (client sent).1 = .answered r := by
  rw [attempt_eq] at h
  cases hsent : outbound? i.head p.target ⟨i.clientIp, i.scheme, p.trusted⟩ with
  | none =>
    rw [hsent] at h
    cases h
  | some sent =>
    rw [hsent] at h
    dsimp only at h
    refine ⟨sent, rfl, ?_⟩
    cases houtcome : (client sent).1 with
    | failed chain =>
      rw [houtcome] at h
      cases h
    | answered response =>
      rw [houtcome] at h
      exact h

/-- Without a failure that is counted, the client gets the headers of an answer. -/
theorem exists_answered_of_failure_none
    {client : RequestHead → Outcome × Option Http1.Sent × Nat} {i : Inbound}
    (h : (p.forwardThrough client i).failure = none) :
    ∃ r, (p.attempt client i).1 = .answered r ∧
      (p.forwardThrough client i).response.head.headers =
        if r.head.status = .switchingProtocols then r.head.headers
        else removeHopByHop r.head.headers := by
  obtain ⟨hresponse, hfailure⟩ := Prod.mk.inj (p.conclude_attempt client i)
  rw [h] at hfailure
  rw [hresponse]
  cases houtcome : (p.attempt client i).1 with
  | failed chain =>
    rw [houtcome] at hfailure
    cases hfailure
  | answered r =>
    rw [houtcome] at hfailure
    exact ⟨r, rfl, headers_conclude hfailure.symm⟩

end ReverseProxy

/-- A header stays, with all its values in their order, exactly if it is of the whole way: if it is
none of those that always go and no element of a readable `Connection` line spells its name.
Removing the names that were read one by one comes to the same, and removing them again to nothing
more. So of an exchange neither the target nor the client misses a header of the whole way, but
those of the request that the gateway sets itself. -/
theorem removeHopByHop_keeps_endToEnd (h : Headers) :
    (∀ n, NamedByConnection h n ↔ ∃ v ∈ h.values .connection, v.isReadable = true ∧
      ∃ element, Cache.Stored.IsElement v.bytes element ∧ Bytes.lower element = n.bytes) ∧
    (∀ n, (removeHopByHop h).values n = if EndToEnd h n then h.values n else []) ∧
    (∀ n, n ∈ (removeHopByHop h).names ↔ n ∈ h.names ∧ EndToEnd h n) ∧
    (connectionNames h ++ hopByHopNames ++ [HeaderName.upgrade]).foldl Headers.erase h =
      removeHopByHop h ∧
    removeHopByHop (removeHopByHop h) = removeHopByHop h ∧
    ∀ (p : ReverseProxy) (client : RequestHead → Outcome × Option Http1.Sent × Nat) (i : Inbound),
      let f := p.forwardThrough client i
      f.failure = none → ∃ sent r,
        (rewrite p.target ⟨i.clientIp, i.scheme, p.trusted⟩).on i.head = (.ok (), sent) ∧
        (client sent).1 = .answered r ∧
        (∀ n, EndToEnd i.head.headers n → n ≠ .host → n ∉ forwardedNames →
          sent.headers.values n = i.head.headers.values n) ∧
        ∀ n, EndToEnd r.head.headers n →
          f.response.head.headers.values n = r.head.headers.values n := by
  refine ⟨fun n => namedByConnection_iff, values_removeHopByHop_eq h, fun n => ?_,
    foldl_erase_hopByHop h, removeHopByHop_removeHopByHop h, ?_⟩
  · rw [Headers.mem_names_iff, Headers.mem_names_iff, Headers.contains_iff, Headers.contains_iff,
      values_removeHopByHop_eq]
    split_ifs with hstays
    · simp [hstays]
    · simp [hstays]
  · intro p client i f hfailure
    obtain ⟨r, hanswered, hheaders⟩ := ReverseProxy.exists_answered_of_failure_none hfailure
    obtain ⟨sent, hsent, hclient⟩ := ReverseProxy.exists_sent_of_answered hanswered
    refine ⟨sent, r, ?_, hclient, fun n hstays hhost hforwarded => ?_, fun n hstays => ?_⟩
    · rw [rewrite_on, hsent]
    · obtain ⟨uri, -, rfl⟩ := Option.map_eq_some_iff.mp hsent
      exact values_forwardHeaders_of_endToEnd hstays hhost hforwarded _ _
    · rw [hheaders]
      split_ifs
      · rfl
      · rw [values_removeHopByHop_eq, if_pos hstays]

/-- An unreadable line names nothing. The others name a header twice, `Connection` itself, another
name that always goes, and between these stand an empty element and one that is no name. -/
theorem removeHopByHop_keeps_endToEnd_among_odd_elements :
    let mine : HeaderName := ⟨.ofLatin1 "x-mine", by decide⟩
    let yours : HeaderName := ⟨.ofLatin1 "x-yours", by decide⟩
    let h := Headers.ofFields [(.connection, .ofLatin1 "x-yours, \u00e9" (by decide)),
      (yours, .ofLatin1 "b" (by decide)), (mine, .ofLatin1 "1" (by decide)),
      (.connection, .ofLatin1 ",\tX-Mine ,x yours,CONNECTION" (by decide)),
      (yours, .ofLatin1 "a" (by decide)), (.connection, .ofLatin1 "te,x-mine" (by decide)),
      (mine, .ofLatin1 "2" (by decide)), (.keepAlive, .ofLatin1 "timeout=5" (by decide))]
    let t : Target := ⟨.http, ⟨.ofLatin1 "127.0.0.1:3000", by decide⟩, [], none⟩
    let p : ReverseProxy := ⟨t, .standard, false, none⟩
    let i : Inbound :=
      ⟨⟨.get, ⟨none, none, [47], none, by decide, nofun⟩, h⟩, .empty, none, none, .http, false⟩
    let client (_ : RequestHead) : Outcome × Option Http1.Sent × Nat :=
      (.answered ⟨⟨.ok, h⟩, .empty⟩, none, 0)
    let f := p.forwardThrough client i
    (f.failure = none ∧ EndToEnd h yours) ∧ ¬ EndToEnd h mine ∧
      (removeHopByHop h).values mine = [] ∧
      (removeHopByHop h).values yours =
        [.ofLatin1 "b" (by decide), .ofLatin1 "a" (by decide)] ∧
      f.response.head.headers.values yours = h.values yours ∧
      ∃ sent, (rewrite t ⟨none, .http, false⟩).on i.head = (.ok (), sent) ∧
        sent.headers.values yours = h.values yours := by
  intro mine yours h t p i client f
  have hfailure : f.failure = none := by decide +kernel
  have hyours : EndToEnd h yours := by decide +kernel
  have hmine : ¬ EndToEnd h mine := by decide +kernel
  obtain ⟨-, hvalues, -, -, -, hboth⟩ := removeHopByHop_keeps_endToEnd h
  obtain ⟨sent, r, hsent, hanswered, hrequest, hresponse⟩ := hboth p client i hfailure
  obtain rfl : ⟨⟨.ok, h⟩, .empty⟩ = r := Outcome.answered.inj hanswered
  refine ⟨⟨hfailure, hyours⟩, hmine, ?_, ?_, hresponse yours hyours, sent, hsent, ?_⟩
  · rw [hvalues, if_neg hmine]
  · rw [hvalues, if_pos hyours]
    decide +kernel
  · exact hrequest yours hyours (by decide) (by decide)

end Gateway.Proxy
