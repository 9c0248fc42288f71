import Gateway.Proofs.Http.Authority
import Gateway.Proofs.Http.Fields
import Gateway.Proofs.Net.AddressText
import Gateway.Proofs.Proxy.Rewriting

/-! What the next hop is told of a request's sender. When earlier hops are not trusted, nothing that
the request says of them has any effect. -/
namespace Gateway.Http

/-- An authority is written in octets that a header may hold. -/
theorem Authority.exists_value (a : Authority) :
    ∃ v : HeaderValue, HeaderValue.ofBytes? a.bytes = some v ∧ v.bytes = a.bytes := by
  have hoctet : ∀ b : UInt8, isAuthorityByte b = true → isValueByte b = true :=
    forall_octet (by decide +kernel)
  obtain ⟨s, hrun, -⟩ := isAuthority_run a.valid
  have hvalid : a.bytes.all isValueByte = true := by
    rw [List.all_eq_true]
    intro b hb
    exact hoctet b (AuthorityScan.isAuthorityByte_of_run? hrun b hb)
  exact ⟨⟨a.bytes, hvalid⟩, dif_pos hvalid, rfl⟩

/-- So is an address. -/
theorem exists_value_of_address (ip : Net.IpAddr) :
    ∃ v : HeaderValue, HeaderValue.ofBytes? ip.text = some v ∧ v.bytes = ip.text := by
  have hoctet : ∀ b : UInt8, Net.isAddressByte b = true → isValueByte b = true :=
    forall_octet (by decide +kernel)
  have hvalid : ip.text.all isValueByte = true := by
    rw [List.all_eq_true]
    intro b hb
    exact hoctet b (List.all_eq_true.mp ip.all_text b hb)
  exact ⟨⟨ip.text, hvalid⟩, dif_pos hvalid, rfl⟩

theorem Headers.hasToken_congr {g h : Headers} {n : HeaderName} (heq : g.values n = h.values n)
    (word : Bytes) : g.hasToken n word = h.hasToken n word := by
  unfold hasToken elements texts
  rw [heq]

end Gateway.Http

namespace Gateway.Proxy
open Http

/-- The headers that tell the next hop of a request's sender. -/
def forwardedNames : List HeaderName := [.xForwardedFor, .xForwardedHost, .xForwardedProto]

/-- Two header sections that differ at most in what they say of earlier hops. -/
def AgreeButForwarded (g h : Headers) : Prop :=
  ∀ n, n ∉ forwardedNames → g.values n = h.values n

/-- Two request heads with the same method, the same URI and the same header multimap. -/
structure SameHead (r q : RequestHead) : Prop where
  method : r.method = q.method
  uri : r.uri = q.uri
  values : ∀ n, r.headers.values n = q.headers.values n

variable {g h : Headers} {r q : RequestHead} {t : Target} {c : ForwardingContext}

theorem values_insertSome_self {n : HeaderName} (hbare : h.values n = []) (v : Option HeaderValue) :
    (insertSome h n v).values n = v.toList := by
  cases v with
  | none => exact hbare
  | some v =>
    rw [insertSome, Headers.values_insert, if_pos rfl]
    rfl

theorem values_insertSome_of_ne {n m : HeaderName} (hne : m ≠ n) (h : Headers)
    (v : Option HeaderValue) : (insertSome h n v).values m = h.values m := by
  cases v with
  | none => rfl
  | some v => rw [insertSome, Headers.values_insert, if_neg hne]

theorem connectionNames_congr (hagree : g.values .connection = h.values .connection) :
    connectionNames g = connectionNames h := by
  unfold connectionNames Headers.elements Headers.texts
  rw [hagree]

theorem isHopByHop_congr (hagree : g.values .connection = h.values .connection) (n : HeaderName) :
    isHopByHop g n = isHopByHop h n := by
  unfold isHopByHop
  rw [connectionNames_congr hagree]

theorem upgradeType?_congr (hconnection : g.values .connection = h.values .connection)
    (hupgrade : g.values .upgrade = h.values .upgrade) : upgradeType? g = upgradeType? h := by
  unfold upgradeType? Headers.get?
  rw [Headers.hasToken_congr hconnection, hupgrade]

/-- The headers of the whole way, and the wish for trailers. -/
def withTrailers (h : Headers) : Headers :=
  if h.hasToken .te (.ofLatin1 "trailers") then
    (removeHopByHop h).insert .te ⟨.ofLatin1 "trailers", Eq.refl true⟩
  else removeHopByHop h

/-- What a request's headers are before the sender is told: with them goes what is asked of the next
hop, and the target's host. -/
def passedOn (h : Headers) (t : Target) : Headers :=
  let upgraded := match upgradeType? h with
    | some protocol =>
      ((withTrailers h).insert .connection ⟨.ofLatin1 "upgrade", Eq.refl true⟩).insert .upgrade
        protocol
    | none => withTrailers h
  insertSome upgraded .host (HeaderValue.ofBytes? t.authority.bytes)

theorem forwardHeaders_eq (r : RequestHead) (t : Target) (c : ForwardingContext) :
    forwardHeaders r t c = setForwarded (passedOn r.headers t) (inboundHost? r) c := rfl

namespace AgreeButForwarded

theorem insert (hagree : AgreeButForwarded g h) (n : HeaderName) (v : HeaderValue) :
    AgreeButForwarded (g.insert n v) (h.insert n v) := by
  intro m hm
  rw [Headers.values_insert, Headers.values_insert, hagree m hm]

theorem insertSome (hagree : AgreeButForwarded g h) (n : HeaderName) (v : Option HeaderValue) :
    AgreeButForwarded (insertSome g n v) (insertSome h n v) := by
  cases v with
  | none => exact hagree
  | some v => exact hagree.insert n v

theorem removeHopByHop (hagree : AgreeButForwarded g h) :
    AgreeButForwarded (removeHopByHop g) (removeHopByHop h) := by
  have hconnection := hagree .connection (by decide)
  intro n hn
  unfold Proxy.removeHopByHop
  rw [Headers.values_filter, Headers.values_filter, isHopByHop_congr hconnection, hagree n hn]

theorem withTrailers (hagree : AgreeButForwarded g h) :
    AgreeButForwarded (withTrailers g) (withTrailers h) := by
  have hte := hagree .te (by decide)
  unfold Proxy.withTrailers
  rw [Headers.hasToken_congr hte]
  split
  · exact hagree.removeHopByHop.insert _ _
  · exact hagree.removeHopByHop

/-- None of the steps that decide what goes on reads what is said of earlier hops. -/
theorem passedOn (hagree : AgreeButForwarded g h) (t : Target) :
    AgreeButForwarded (passedOn g t) (passedOn h t) := by
  have hconnection := hagree .connection (by decide)
  have hupgrade := hagree .upgrade (by decide)
  unfold Proxy.passedOn
  rw [upgradeType?_congr hconnection hupgrade]
  apply AgreeButForwarded.insertSome
  cases upgradeType? h with
  | none => exact hagree.withTrailers
  | some protocol => exact (hagree.withTrailers.insert _ _).insert _ _

theorem inboundHost? (hagree : AgreeButForwarded r.headers q.headers)
    (huri : r.uri = q.uri) : inboundHost? r = inboundHost? q := by
  unfold Proxy.inboundHost? Headers.get?
  rw [hagree .host (by decide), huri]

end AgreeButForwarded

theorem forwardedFor?_of_untrusted (huntrusted : c.trusted = false) (h : Headers) :
    (forwardedFor? h c).map (·.bytes) = c.clientIp.map (·.text) := by
  unfold forwardedFor?
  rw [huntrusted]
  cases c.clientIp with
  | none => rfl
  | some ip =>
    obtain ⟨v, hv, hbytes⟩ := exists_value_of_address ip
    have hsingle : (Bytes.ofLatin1 ", ").intercalate [ip.text] = ip.text :=
      List.intercalate_singleton
    simp [hsingle, hv, hbytes]

theorem forwardedFor?_congr (huntrusted : c.trusted = false) (g h : Headers) :
    forwardedFor? g c = forwardedFor? h c := by
  unfold forwardedFor?
  rw [huntrusted]
  rfl

theorem inboundHost?_bytes (r : RequestHead) : (inboundHost? r).map (·.bytes) =
    ((r.headers.get? .host).map (·.bytes) <|> r.uri.authority.map (·.bytes)) := by
  unfold inboundHost?
  cases r.headers.get? .host with
  | some v => rfl
  | none =>
    cases r.uri.authority with
    | none => rfl
    | some a =>
      obtain ⟨v, hv, hbytes⟩ := a.exists_value
      simp [hv, hbytes]

theorem claimed?_of_untrusted (huntrusted : c.trusted = false) (h : Headers) (n : HeaderName) :
    claimed? h c n = none := by
  unfold claimed?
  rw [huntrusted]
  rfl

/-- What is told: each of the three headers once or not at all, as an earlier hop claimed it or anew. -/
theorem values_setForwarded_eq (h : Headers) (host : Option HeaderValue) (c : ForwardingContext)
    (n : HeaderName) : (setForwarded h host c).values n =
      if n = .xForwardedProto then [(claimed? h c .xForwardedProto).getD c.scheme.value]
      else if n = .xForwardedHost then (claimed? h c .xForwardedHost <|> host).toList
      else if n = .xForwardedFor then (forwardedFor? h c).toList
      else h.values n := by
  have hbare (m : HeaderName) :
      (((h.erase .xForwardedFor).erase .xForwardedHost).erase .xForwardedProto).values m =
        if m ∈ forwardedNames then [] else h.values m := by
    rw [Headers.values_erase, Headers.values_erase, Headers.values_erase]
    simp only [forwardedNames, List.mem_cons, List.not_mem_nil, or_false]
    split_ifs <;> simp_all
  unfold setForwarded
  dsimp only
  rw [Headers.values_insert]
  split_ifs with hproto hhost hfor
  · rfl
  · rw [hhost]
    apply values_insertSome_self
    rw [values_insertSome_of_ne (by decide), hbare]
    exact if_pos (by decide)
  · rw [hfor, values_insertSome_of_ne (by decide)]
    apply values_insertSome_self
    rw [hbare]
    exact if_pos (by decide)
  · rw [values_insertSome_of_ne hhost, values_insertSome_of_ne hfor, hbare]
    exact if_neg (by simp [forwardedNames, hproto, hhost, hfor])

/-- What is told when earlier hops are not trusted: each of the three headers anew or not at all. -/
theorem values_setForwarded (huntrusted : c.trusted = false) (h : Headers)
    (host : Option HeaderValue) (n : HeaderName) : (setForwarded h host c).values n =
      if n = .xForwardedProto then [c.scheme.value]
      else if n = .xForwardedHost then host.toList
      else if n = .xForwardedFor then (forwardedFor? h c).toList
      else h.values n := by
  rw [values_setForwarded_eq, claimed?_of_untrusted huntrusted, claimed?_of_untrusted huntrusted]
  rfl

/-- When earlier hops are not trusted, requests that differ only in what they say of them are
rewritten alike, and the next hop is told the address, the scheme and the host that the gateway
knows. Where the URI cannot be rewritten, neither request is. -/
theorem rewrite_of_untrusted (hmethod : r.method = q.method) (huri : r.uri = q.uri)
    (hagree : AgreeButForwarded r.headers q.headers) (huntrusted : c.trusted = false) (t : Target) :
    match t.locate? r.uri with
    | none => (rewrite t c).on r = (.error .tooLong, r) ∧ (rewrite t c).on q = (.error .tooLong, q)
    | some uri => ∃ sent plain, (rewrite t c).on r = (.ok (), sent) ∧
        (rewrite t c).on q = (.ok (), plain) ∧ sent.uri = uri ∧ SameHead sent plain ∧
        (sent.headers.values .xForwardedFor).map (·.bytes) = (c.clientIp.map (·.text)).toList ∧
        sent.headers.values .xForwardedProto = [c.scheme.value] ∧
        (sent.headers.values .xForwardedHost).map (·.bytes) =
          ((r.headers.get? .host).map (·.bytes) <|> r.uri.authority.map (·.bytes)).toList := by
  have htold : ∀ n, (forwardHeaders r t c).values n = (forwardHeaders q t c).values n := by
    intro n
    rw [forwardHeaders_eq, forwardHeaders_eq, values_setForwarded huntrusted,
      values_setForwarded huntrusted, hagree.inboundHost? huri,
      forwardedFor?_congr huntrusted (passedOn r.headers t) (passedOn q.headers t)]
    split_ifs with hproto hhost hfor
    · rfl
    · rfl
    · rfl
    · apply hagree.passedOn t
      simp [forwardedNames, hproto, hhost, hfor]
  rw [rewrite_on, rewrite_on]
  unfold outbound?
  rw [← huri]
  cases t.locate? r.uri with
  | none => exact ⟨rfl, rfl⟩
  | some uri =>
    refine ⟨_, _, rfl, rfl, rfl, ⟨hmethod, rfl, htold⟩, ?_⟩
    dsimp only
    rw [forwardHeaders_eq]
    refine ⟨?_, ?_, ?_⟩
    · rw [values_setForwarded huntrusted, if_neg (by decide), if_neg (by decide), if_pos rfl,
        ← Option.toList_map, forwardedFor?_of_untrusted huntrusted]
    · rw [values_setForwarded huntrusted, if_pos rfl]
    · rw [values_setForwarded huntrusted, if_neg (by decide), if_pos rfl, ← Option.toList_map,
        inboundHost?_bytes]

theorem rewrite_of_spoofed_hops :
    let lines : List (HeaderName × HeaderValue) := [(.host, .ofLatin1 "site" (by decide)),
      (.connection, .ofLatin1 "x-forwarded-host" (by decide))]
    let spoofed : List (HeaderName × HeaderValue) := [
      (.xForwardedFor, .ofLatin1 "192.0.2.1" (by decide)),
      (.xForwardedFor, .ofLatin1 "192.0.2.2" (by decide)),
      (.xForwardedHost, .ofLatin1 "bank" (by decide)),
      (.xForwardedProto, .ofLatin1 "https" (by decide))]
    let uri : Uri := ⟨none, none, [47], none, by decide, nofun⟩
    let r : RequestHead := ⟨.get, uri, .ofFields (spoofed ++ lines)⟩
    let q : RequestHead := ⟨.get, uri, .ofFields lines⟩
    let t : Target := ⟨.http, ⟨.ofLatin1 "backend:3000", by decide⟩, [], none⟩
    let c : ForwardingContext := ⟨some (.v4 ⟨10, 0, 0, 7⟩), .http, false⟩
    ∃ sent plain, (rewrite t c).on r = (.ok (), sent) ∧ (rewrite t c).on q = (.ok (), plain) ∧
      SameHead sent plain ∧
      (sent.headers.values .xForwardedFor).map (·.bytes) = [.ofLatin1 "10.0.0.7"] ∧
      sent.headers.values .xForwardedProto = [.ofLatin1 "http" (by decide)] ∧
      (sent.headers.values .xForwardedHost).map (·.bytes) = [.ofLatin1 "site"] := by
  intro lines spoofed uri r q t c
  have hagree : AgreeButForwarded r.headers q.headers := by
    intro n hn
    have hnone : spoofed.filter (·.1 = n) = [] := by
      simp only [forwardedNames, List.mem_cons, List.not_mem_nil, or_false, not_or] at hn
      simp [spoofed, Ne.symm hn.1, Ne.symm hn.2.1, Ne.symm hn.2.2]
    show (Headers.ofFields (spoofed ++ lines)).values n = (Headers.ofFields lines).values n
    unfold Headers.ofFields
    rw [Headers.values_appendFields, Headers.values_appendFields, List.filter_append, hnone]
    rfl
  have hlocated : (t.locate? r.uri).isSome = true := by decide +kernel
  obtain ⟨uri, hlocated⟩ := Option.isSome_iff_exists.mp hlocated
  have hrewritten := rewrite_of_untrusted (r := r) (q := q) (c := c) rfl rfl hagree rfl t
  rw [hlocated] at hrewritten
  obtain ⟨sent, plain, hsent, hplain, -, hsame, hfor, hproto, hhost⟩ := hrewritten
  exact ⟨sent, plain, hsent, hplain, hsame, hfor.trans (by decide +kernel), hproto,
    hhost.trans (by decide +kernel)⟩

end Gateway.Proxy
