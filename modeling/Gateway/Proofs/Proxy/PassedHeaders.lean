import Gateway.Proofs.Proxy.ForwardedHeaders

/-! Which of a request's headers reach the target. A head is rewritten step by step, so what one
step removes a later one can put back; what counts is the section that comes of all of them. -/
namespace Gateway.Http.Headers

/-- Some readable value of a name has, between its commas, a piece that is as described once the
blanks around it are gone. -/
def Lists (h : Headers) (n : HeaderName) (described : Bytes → Prop) : Prop :=
  ∃ v ∈ h.values n, ∃ text, v.text? = some text ∧
    ∃ piece ∈ Bytes.splitOn 44 text, described (Bytes.trim piece)

theorem lists_iff {h : Headers} {n : HeaderName} {described : Bytes → Prop} :
    h.Lists n described ↔ ∃ e ∈ h.elements n, described e := by
  unfold Lists elements texts
  simp only [List.mem_flatMap, List.mem_filterMap, List.mem_map]
  constructor
  · rintro ⟨v, hv, text, htext, piece, hpiece, hdescribed⟩
    exact ⟨_, ⟨text, ⟨v, hv, htext⟩, piece, hpiece, rfl⟩, hdescribed⟩
  · rintro ⟨e, ⟨text, ⟨v, hv, htext⟩, piece, hpiece, rfl⟩, hdescribed⟩
    exact ⟨v, hv, text, htext, piece, hpiece, hdescribed⟩

theorem hasToken_iff {h : Headers} {n : HeaderName} {word : Bytes} :
    h.hasToken n word = true ↔ h.Lists n fun e => Bytes.eqIgnoreCase e word = true := by
  unfold hasToken
  rw [lists_iff, List.any_eq_true]

end Gateway.Http.Headers

namespace Gateway.Proxy
open Http

variable {g h : Headers} {c : ForwardingContext} {n : HeaderName}

theorem mem_connectionNames_iff :
    n ∈ connectionNames h ↔ h.Lists .connection fun e => HeaderName.ofBytes? e = some n := by
  unfold connectionNames
  rw [Headers.lists_iff, List.mem_filterMap]

theorem isHopByHop_iff : isHopByHop h n = true ↔
    n ∈ hopByHopNames ∨ n = .upgrade ∨ n ∈ connectionNames h := by
  unfold isHopByHop
  simp [or_assoc]

theorem upgradeType?_eq_some_iff {protocol : HeaderValue} : upgradeType? h = some protocol ↔
    (h.Lists .connection fun e => Bytes.eqIgnoreCase e (.ofLatin1 "upgrade") = true) ∧
      (h.values .upgrade).head? = some protocol := by
  unfold upgradeType? Headers.get?
  rw [← Headers.hasToken_iff]
  simp

theorem upgradeType?_isSome_iff : (upgradeType? h).isSome = true ↔
    (h.Lists .connection fun e => Bytes.eqIgnoreCase e (.ofLatin1 "upgrade") = true) ∧
      h.values .upgrade ≠ [] := by
  rw [Option.isSome_iff_exists]
  simp only [upgradeType?_eq_some_iff, exists_and_left]
  rw [← Option.isSome_iff_exists, List.isSome_head?]

theorem values_removeHopByHop (h : Headers) (n : HeaderName) :
    (removeHopByHop h).values n = if isHopByHop h n then [] else h.values n := by
  unfold removeHopByHop
  rw [Headers.values_filter]
  cases isHopByHop h n <;> rfl

theorem values_withTrailers_te (h : Headers) : (withTrailers h).values .te =
    if h.hasToken .te (.ofLatin1 "trailers") then [.ofLatin1 "trailers" (by decide)] else [] := by
  have hbare : isHopByHop h .te = true := isHopByHop_iff.mpr (.inl (by decide))
  unfold withTrailers
  split_ifs with htrailers
  · rw [Headers.values_insert, if_pos rfl]
    rfl
  · rw [values_removeHopByHop, if_pos hbare]

theorem values_withTrailers_of_ne (hne : n ≠ .te) (h : Headers) :
    (withTrailers h).values n = if isHopByHop h n then [] else h.values n := by
  rw [← values_removeHopByHop]
  unfold withTrailers
  split_ifs
  · rw [Headers.values_insert, if_neg hne]
  · rfl

theorem values_passedOn_host (h : Headers) (t : Target) :
    ((passedOn h t).values .host).map (·.bytes) = [t.authority.bytes] := by
  obtain ⟨v, hv, hbytes⟩ := t.authority.exists_value
  unfold passedOn
  dsimp only
  rw [hv, insertSome, Headers.values_insert, if_pos rfl, List.map_singleton, hbytes]

/-- The last step is about the host alone; the one before it about the protocol. -/
theorem values_passedOn (hhost : n ≠ .host) (h : Headers) (t : Target) :
    (passedOn h t).values n = match upgradeType? h with
      | none => (withTrailers h).values n
      | some protocol =>
        if n = .upgrade then [protocol]
        else if n = .connection then [.ofLatin1 "upgrade" (by decide)]
        else (withTrailers h).values n := by
  unfold passedOn
  dsimp only
  rw [values_insertSome_of_ne hhost]
  cases upgradeType? h with
  | none => rfl
  | some protocol =>
    dsimp only
    rw [Headers.values_insert, Headers.values_insert]
    rfl

theorem values_passedOn_of_ne (hhost : n ≠ .host) (hconnection : n ≠ .connection)
    (hupgrade : n ≠ .upgrade) (h : Headers) (t : Target) :
    (passedOn h t).values n = (withTrailers h).values n := by
  rw [values_passedOn hhost, if_neg hconnection]
  cases upgradeType? h with
  | none => rfl
  | some protocol => exact if_neg hupgrade

theorem values_passedOn_connection (h : Headers) (t : Target) : (passedOn h t).values .connection =
    if (upgradeType? h).isSome then [.ofLatin1 "upgrade" (by decide)] else [] := by
  have hbare : isHopByHop h .connection = true := isHopByHop_iff.mpr (.inl (by decide))
  rw [values_passedOn (by decide), values_withTrailers_of_ne (by decide), if_pos hbare]
  cases upgradeType? h with
  | none => rfl
  | some protocol => rfl

theorem values_passedOn_upgrade (h : Headers) (t : Target) :
    (passedOn h t).values .upgrade = (upgradeType? h).toList := by
  have hbare : isHopByHop h .upgrade = true := isHopByHop_iff.mpr (.inr (.inl rfl))
  rw [values_passedOn (by decide), values_withTrailers_of_ne (by decide), if_pos hbare]
  cases upgradeType? h with
  | none => rfl
  | some protocol => rfl

theorem values_setForwarded_of_not_mem (hn : n ∉ forwardedNames) (h : Headers)
    (host : Option HeaderValue) (c : ForwardingContext) :
    (setForwarded h host c).values n = h.values n := by
  simp only [forwardedNames, List.mem_cons, List.not_mem_nil, or_false, not_or] at hn
  obtain ⟨hfor, hhost, hproto⟩ := hn
  rw [values_setForwarded_eq, if_neg hproto, if_neg hhost, if_neg hfor]

/-- The headers that the gateway sets itself for the next hop, beside what it tells of the sender. -/
def renewedNames : List HeaderName := [.host, .connection, .upgrade, .te]

/-- What of a request's headers `g` stands in the headers `h` that the target gets, where these are
not about the request's sender. -/
structure Passed (t : Target) (g h : Headers) : Prop where
  host : (h.values .host).map (·.bytes) = [t.authority.bytes]
  connection_iff : h.contains .connection = true ↔
    (g.Lists .connection fun e => Bytes.eqIgnoreCase e (.ofLatin1 "upgrade") = true) ∧
      g.contains .upgrade = true
  upgrade_iff : h.contains .upgrade = true ↔ h.contains .connection = true
  /-- The change of protocol is asked for as the request did, with the protocol it named first. -/
  upgrade : h.contains .upgrade = true →
    h.values .connection = [.ofLatin1 "upgrade" (by decide)] ∧
      ∃ protocol, (g.values .upgrade).head? = some protocol ∧ h.values .upgrade = [protocol]
  te_iff : h.contains .te = true ↔
    g.Lists .te fun e => Bytes.eqIgnoreCase e (.ofLatin1 "trailers") = true
  te : h.contains .te = true → h.values .te = [.ofLatin1 "trailers" (by decide)]
  hopByHop : ∀ n ∈ hopByHopNames, n ∉ renewedNames → h.values n = []
  listed : ∀ n, (g.Lists .connection fun e => HeaderName.ofBytes? e = some n) →
    n ∉ renewedNames → n ∉ forwardedNames → h.values n = []
  kept : ∀ n, n ∉ hopByHopNames →
    (¬ g.Lists .connection fun e => HeaderName.ofBytes? e = some n) →
    n ∉ renewedNames → n ∉ forwardedNames → h.values n = g.values n

theorem values_forwardHeaders_of_not_mem (hn : n ∉ forwardedNames) (r : RequestHead) (t : Target)
    (c : ForwardingContext) : (forwardHeaders r t c).values n = (passedOn r.headers t).values n := by
  rw [forwardHeaders_eq, values_setForwarded_of_not_mem hn]

theorem values_forwardHeaders_connection (r : RequestHead) (t : Target) (c : ForwardingContext) :
    (forwardHeaders r t c).values .connection =
      if (upgradeType? r.headers).isSome then [.ofLatin1 "upgrade" (by decide)] else [] := by
  rw [values_forwardHeaders_of_not_mem (by decide), values_passedOn_connection]

theorem values_forwardHeaders_upgrade (r : RequestHead) (t : Target) (c : ForwardingContext) :
    (forwardHeaders r t c).values .upgrade = (upgradeType? r.headers).toList := by
  rw [values_forwardHeaders_of_not_mem (by decide), values_passedOn_upgrade]

theorem values_forwardHeaders_te (r : RequestHead) (t : Target) (c : ForwardingContext) :
    (forwardHeaders r t c).values .te =
      if r.headers.hasToken .te (.ofLatin1 "trailers") then [.ofLatin1 "trailers" (by decide)]
      else [] := by
  rw [values_forwardHeaders_of_not_mem (by decide),
    values_passedOn_of_ne (by decide) (by decide) (by decide), values_withTrailers_te]

/-- A name that the gateway does not set itself is gone or as it was. -/
theorem values_forwardHeaders_of_not_renewed (hrenewed : n ∉ renewedNames)
    (hn : n ∉ forwardedNames) (r : RequestHead) (t : Target) (c : ForwardingContext) :
    (forwardHeaders r t c).values n =
      if isHopByHop r.headers n then [] else r.headers.values n := by
  simp only [renewedNames, List.mem_cons, List.not_mem_nil, or_false, not_or] at hrenewed
  obtain ⟨hhost, hconnection, hupgrade, hte⟩ := hrenewed
  rw [values_forwardHeaders_of_not_mem hn, values_passedOn_of_ne hhost hconnection hupgrade,
    values_withTrailers_of_ne hte]

theorem passed_forwardHeaders (r : RequestHead) (t : Target) (c : ForwardingContext) :
    Passed t r.headers (forwardHeaders r t c) where
  host := by
    rw [values_forwardHeaders_of_not_mem (by decide)]
    exact values_passedOn_host r.headers t
  connection_iff := by
    rw [Headers.contains_iff, Headers.contains_iff, values_forwardHeaders_connection,
      ← upgradeType?_isSome_iff]
    cases upgradeType? r.headers <;> simp
  upgrade_iff := by
    rw [Headers.contains_iff, Headers.contains_iff, values_forwardHeaders_connection,
      values_forwardHeaders_upgrade]
    cases upgradeType? r.headers <;> simp
  upgrade hpresent := by
    rw [Headers.contains_iff, values_forwardHeaders_upgrade] at hpresent
    rw [values_forwardHeaders_connection, values_forwardHeaders_upgrade]
    cases hprotocol : upgradeType? r.headers with
    | none => simp [hprotocol] at hpresent
    | some protocol => exact ⟨rfl, protocol, (upgradeType?_eq_some_iff.mp hprotocol).2, rfl⟩
  te_iff := by
    rw [Headers.contains_iff, values_forwardHeaders_te, ← Headers.hasToken_iff]
    simp
  te hpresent := by
    rw [Headers.contains_iff, values_forwardHeaders_te] at hpresent
    rw [values_forwardHeaders_te]
    exact if_pos (by_contra fun h => hpresent (if_neg h))
  hopByHop n hmem hrenewed := by
    have hforwarded : ∀ m ∈ hopByHopNames, m ∉ forwardedNames := by decide
    rw [values_forwardHeaders_of_not_renewed hrenewed (hforwarded n hmem)]
    exact if_pos (isHopByHop_iff.mpr (.inl hmem))
  listed n hlisted hrenewed hforwarded := by
    rw [values_forwardHeaders_of_not_renewed hrenewed hforwarded]
    exact if_pos (isHopByHop_iff.mpr (.inr (.inr (mem_connectionNames_iff.mpr hlisted))))
  kept n hmem hlisted hrenewed hforwarded := by
    rw [values_forwardHeaders_of_not_renewed hrenewed hforwarded]
    apply if_neg
    rw [isHopByHop_iff, mem_connectionNames_iff]
    rintro (h | rfl | h)
    · exact hmem h
    · exact hrenewed (by decide)
    · exact hlisted h

/-- Rewriting fails only where the URI cannot be rewritten, and then leaves the head alone. Else the
headers are as `Passed` says: what the request lists in `Connection` stays behind, but nothing that it
lists keeps the gateway from telling the target of the sender. -/
theorem rewrite_passes (t : Target) (c : ForwardingContext) (r : RequestHead) :
    match t.locate? r.uri with
    | none => (rewrite t c).on r = (.error .tooLong, r)
    | some uri => ∃ sent, (rewrite t c).on r = (.ok (), sent) ∧
        sent.method = r.method ∧ sent.uri = uri ∧ Passed t r.headers sent.headers := by
  rw [rewrite_on]
  unfold outbound?
  cases t.locate? r.uri with
  | none => rfl
  | some uri => exact ⟨_, rfl, rfl, rfl, passed_forwardHeaders r t c⟩

theorem rewrite_passes_of_listed_host :
    let headers := Headers.ofFields [(.host, .ofLatin1 "site" (by decide)),
      (.connection, .ofLatin1 "Host, te,User-Agent" (by decide)), (.te, .ofLatin1 "x" (by decide)),
      (.connection, .ofLatin1 "connection , UPGRADE" (by decide)),
      (.upgrade, .ofLatin1 "websocket" (by decide)), (.upgrade, .ofLatin1 "h2c" (by decide)),
      (.te, .ofLatin1 "deflate, Trailers" (by decide)), (.userAgent, .ofLatin1 "x" (by decide)),
      (.range, .ofLatin1 "bytes=0-" (by decide)), (.range, .ofLatin1 "" (by decide))]
    let r : RequestHead := ⟨.get, ⟨none, none, [47], none, by decide, nofun⟩, headers⟩
    let t : Target := ⟨.http, ⟨.ofLatin1 "127.0.0.1:3000", by decide⟩, [], none⟩
    ∃ sent, (rewrite t ⟨none, .http, false⟩).on r = (.ok (), sent) ∧
      (sent.headers.values .host).map (·.bytes) = [.ofLatin1 "127.0.0.1:3000"] ∧
      sent.headers.values .connection = [.ofLatin1 "upgrade" (by decide)] ∧
      sent.headers.values .upgrade = [.ofLatin1 "websocket" (by decide)] ∧
      sent.headers.values .te = [.ofLatin1 "trailers" (by decide)] ∧
      sent.headers.values .userAgent = [] ∧
      sent.headers.values .range =
        [.ofLatin1 "bytes=0-" (by decide), .ofLatin1 "" (by decide)] := by
  intro headers r t
  have hlocated : (t.locate? r.uri).isSome = true := by decide +kernel
  obtain ⟨uri, hlocated⟩ := Option.isSome_iff_exists.mp hlocated
  have hpasses := rewrite_passes t ⟨none, .http, false⟩ r
  rw [hlocated] at hpasses
  obtain ⟨sent, hsent, -, -, hpassed⟩ := hpasses
  have hasked : (headers.Lists .connection fun e =>
      Bytes.eqIgnoreCase e (.ofLatin1 "upgrade") = true) ∧ headers.contains .upgrade = true :=
    ⟨Headers.hasToken_iff.mp (by decide +kernel), by decide +kernel⟩
  have htrailers : headers.Lists .te fun e => Bytes.eqIgnoreCase e (.ofLatin1 "trailers") = true :=
    Headers.hasToken_iff.mp (by decide +kernel)
  have hunlisted : .range ∉ connectionNames headers := by decide +kernel
  obtain ⟨hconnection, protocol, hfirst, hupgrade⟩ :=
    hpassed.upgrade (hpassed.upgrade_iff.mpr (hpassed.connection_iff.mpr hasked))
  have hfirst : some (.ofLatin1 "websocket" (by decide)) = some protocol :=
    (show headers.get? .upgrade = some (.ofLatin1 "websocket" (by decide)) by
      decide +kernel).symm.trans hfirst
  refine ⟨sent, hsent, hpassed.host, hconnection, ?_, hpassed.te (hpassed.te_iff.mpr htrailers),
    ?_, ?_⟩
  · rw [hupgrade, ← Option.some.inj hfirst]
  · apply hpassed.listed .userAgent _ (by decide) (by decide)
    exact mem_connectionNames_iff.mp (by decide +kernel)
  · rw [hpassed.kept .range (by decide) (mem_connectionNames_iff.not.mp hunlisted) (by decide)
      (by decide)]
    decide +kernel

/-- Whatever `Connection` lists, the target is told the scheme. -/
theorem rewrite_keeps_listed_scheme :
    let headers := Headers.ofFields [(.connection, .ofLatin1 "x-forwarded-proto" (by decide))]
    let r : RequestHead := ⟨.get, ⟨none, none, [47], none, by decide, nofun⟩, headers⟩
    let t : Target := ⟨.http, ⟨.ofLatin1 "127.0.0.1:3000", by decide⟩, [], none⟩
    let c : ForwardingContext := ⟨none, .http, false⟩
    (headers.Lists .connection fun e => HeaderName.ofBytes? e = some .xForwardedProto) ∧
      .xForwardedProto ∉ renewedNames ∧
      ∃ sent, (rewrite t c).on r = (.ok (), sent) ∧
        sent.headers.values .xForwardedProto = [.ofLatin1 "http" (by decide)] := by
  intro headers r t c
  have hlisted : HeaderName.xForwardedProto ∈ connectionNames headers := by decide +kernel
  have hlocated : (t.locate? r.uri).isSome = true := by decide +kernel
  obtain ⟨uri, hlocated⟩ := Option.isSome_iff_exists.mp hlocated
  refine ⟨mem_connectionNames_iff.mp hlisted, by decide, ⟨.get, uri, forwardHeaders r t c⟩, ?_, ?_⟩
  · rw [rewrite_on, outbound?, hlocated]
    rfl
  · rw [forwardHeaders_eq, values_setForwarded rfl, if_pos rfl]
    rfl

end Gateway.Proxy
