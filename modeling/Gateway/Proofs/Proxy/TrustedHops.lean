import Gateway.Proofs.Proxy.PassedHeaders
import Gateway.Proofs.Text.Elements

/-! What the next hop is told of a request's sender when earlier hops are trusted. Each gateway reads
the line that the one before it wrote, so the line grows by one address a hop, in their order. -/
namespace Gateway.Proxy
open Http

section Lines

theorem intercalate_append {sep : Bytes} {front back : List Bytes} (hfront : front ≠ [])
    (hback : back ≠ []) : sep.intercalate (front ++ back) =
      sep.intercalate front ++ sep ++ sep.intercalate back := by
  induction front with
  | nil => exact absurd rfl hfront
  | cons text front ih =>
    by_cases hlast : front = []
    · subst hlast
      rw [List.singleton_append, List.intercalate_cons_of_ne_nil hback, List.intercalate_singleton]
    · have hrest : front ++ back ≠ [] := List.append_ne_nil_of_left_ne_nil hlast back
      rw [List.cons_append, List.intercalate_cons_of_ne_nil hrest, ih hlast,
        List.intercalate_cons_of_ne_nil hlast]
      simp only [List.append_assoc]

theorem all_intercalate {p : UInt8 → Bool} {sep : Bytes} (hsep : sep.all p = true)
    {texts : List Bytes} (htexts : ∀ text ∈ texts, text.all p = true) :
    (sep.intercalate texts).all p = true := by
  induction texts with
  | nil => rfl
  | cons text texts ih =>
    have htext := htexts text List.mem_cons_self
    have hrest := ih fun other hother => htexts other (List.mem_cons_of_mem text hother)
    by_cases hlast : texts = []
    · rw [hlast, List.intercalate_singleton]
      exact htext
    · rw [List.intercalate_cons_of_ne_nil hlast, List.all_append, List.all_append, htext, hsep,
        hrest]
      rfl

/-- The one line that tells of a chain of addresses; an empty chain is not told of. -/
def line (chain : List Bytes) : List Bytes :=
  if chain = [] then [] else [(Bytes.ofLatin1 ", ").intercalate chain]

theorem line_of_ne_nil {chain : List Bytes} (h : chain ≠ []) :
    line chain = [(Bytes.ofLatin1 ", ").intercalate chain] := if_neg h

/-- Going on from a line that was written comes to going on from the chain that it tells of. -/
theorem line_line_append (chain more : List Bytes) : line (line chain ++ more) = line (chain ++ more) := by
  by_cases hchain : chain = []
  · rw [hchain]
    rfl
  · by_cases hmore : more = []
    · subst hmore
      rw [List.append_nil, List.append_nil, line_of_ne_nil hchain,
        line_of_ne_nil (List.cons_ne_nil _ _), List.intercalate_singleton]
    · have hwritten : [(Bytes.ofLatin1 ", ").intercalate chain] ≠ [] := List.cons_ne_nil _ _
      have hall : chain ++ more ≠ [] := List.append_ne_nil_of_left_ne_nil hchain more
      have hline : [(Bytes.ofLatin1 ", ").intercalate chain] ++ more ≠ [] :=
        List.append_ne_nil_of_left_ne_nil hwritten more
      rw [line_of_ne_nil hchain, line_of_ne_nil hline, line_of_ne_nil hall,
        intercalate_append hwritten hmore, intercalate_append hchain hmore,
        List.intercalate_singleton]

def elementsOf (value : Bytes) : List Bytes := (Bytes.splitOn 44 value).map Bytes.trim

/-- An address at the end of a chain is the last element of the line. -/
theorem getLast?_elementsOf_intercalate (chain : List Bytes) (ip : Net.IpAddr) :
    (elementsOf ((Bytes.ofLatin1 ", ").intercalate (chain ++ [ip.text]))).getLast? =
      some ip.text := by
  have haddress : ∀ b ∈ ip.text, Net.isAddressByte b = true := List.all_eq_true.mp ip.all_text
  have hcomma : (44 : UInt8) ∉ ip.text := by
    intro hmem
    exact absurd (haddress 44 hmem) (by decide)
  have hblank : ∀ b : UInt8, Net.isAddressByte b = true → Bytes.isBlank b = false :=
    forall_octet (by decide +kernel)
  have hends : ∀ b ∈ ip.text, Bytes.isBlank b = false := fun b hb => hblank b (haddress b hb)
  have htrim : Bytes.trim (32 :: ip.text) = ip.text := by
    have hfront : ∀ b ∈ [(32 : UInt8)], Bytes.isBlank b = true := by
      intro b hb
      rw [List.mem_singleton.mp hb]
      decide
    apply Bytes.trimWhile_eq_iff.mpr
    refine ⟨[32], [], by simp, hfront, nofun, ?_, ?_⟩
    · exact fun b hb => hends b (List.mem_of_head? hb)
    · exact fun b hb => hends b (List.mem_of_getLast? hb)
  unfold elementsOf
  by_cases hchain : chain = []
  · rw [hchain, List.nil_append, List.intercalate_singleton, Bytes.splitOn_of_not_mem hcomma,
      List.map_singleton, List.getLast?_singleton]
    exact congrArg some (Bytes.trimWhile_eq_self hends)
  · have hspace : (44 : UInt8) ∉ 32 :: ip.text := by
      rw [List.mem_cons, not_or]
      exact ⟨by decide, hcomma⟩
    have hlast : (Bytes.ofLatin1 ", ").intercalate (chain ++ [ip.text]) =
        (Bytes.ofLatin1 ", ").intercalate chain ++ 44 :: 32 :: ip.text := by
      rw [intercalate_append hchain (List.cons_ne_nil _ _), List.intercalate_singleton,
        List.append_assoc]
      rfl
    rw [hlast, Bytes.splitOn_append, Bytes.splitOn_of_not_mem hspace, List.map_append,
      List.map_singleton, List.getLast?_concat, htrim]

end Lines

def NamedByConnection (h : Headers) (n : HeaderName) : Prop :=
  h.Lists .connection fun e => HeaderName.ofBytes? e = some n

instance (h : Headers) (n : HeaderName) : Decidable (NamedByConnection h n) :=
  decidable_of_iff (n ∈ connectionNames h) mem_connectionNames_iff

/-- The hops that a request says it came through, the nearest last. -/
def earlierHops (h : Headers) : List Bytes :=
  if NamedByConnection h .xForwardedFor then [] else h.texts .xForwardedFor

/-- What a request says in a header: its first value, unless that is empty. -/
def said? (h : Headers) (n : HeaderName) : Option HeaderValue :=
  if NamedByConnection h n then none else (h.get? n).filter (!·.bytes.isEmpty)

/-- A gateway on a request's way that trusts the hops before it. -/
structure Hop where
  target : Target
  /-- The sender's address on the connection to this gateway, when it is known. -/
  peer : Option Net.IpAddr
  scheme : ListenerScheme

namespace Hop

def context (hop : Hop) : ForwardingContext := ⟨hop.peer, hop.scheme, true⟩

def Sends (hop : Hop) (r sent : RequestHead) : Prop :=
  (rewrite hop.target hop.context).on r = (.ok (), sent)

end Hop

/-- A request comes in at the next hop as the one before has sent it, as far as these headers go. -/
def Arrives (sent arrived : RequestHead) : Prop :=
  ∀ n ∈ HeaderName.connection :: forwardedNames,
    arrived.headers.values n = sent.headers.values n

/-- A request has gone through these gateways one after the other, and comes in at the next. -/
inductive Reaches (r : RequestHead) : List Hop → RequestHead → Prop
  | here : Reaches r [] r
  | past {hops : List Hop} {hop : Hop} {before sent after : RequestHead}
      (hreach : Reaches r hops before) (hsent : hop.Sends before sent)
      (harrives : Arrives sent after) : Reaches r (hops ++ [hop]) after

variable {h : Headers} {c : ForwardingContext} {n : HeaderName} {r sent arrived : RequestHead}
  {hop : Hop} {hops : List Hop}

theorem Hop.sends_iff : hop.Sends r sent ↔ outbound? r hop.target hop.context = some sent := by
  unfold Sends
  rw [rewrite_on]
  cases outbound? r hop.target hop.context with
  | none => exact iff_of_false nofun nofun
  | some head => exact ⟨fun h => congrArg some (Prod.mk.inj h).2, fun h => by rw [Option.some.inj h]⟩

theorem Hop.headers_of_sends (h : hop.Sends r sent) :
    sent.headers = forwardHeaders r hop.target hop.context := by
  obtain ⟨uri, -, rfl⟩ := Option.map_eq_some_iff.mp (sends_iff.mp h)
  rfl

/-- What a request says of earlier hops is there when the gateway sets these headers, unless
`Connection` names them. -/
theorem values_passedOn_forwarded (hn : n ∈ forwardedNames) (h : Headers) (t : Target) :
    (passedOn h t).values n = if NamedByConnection h n then [] else h.values n := by
  have hown : ∀ m ∈ forwardedNames, m ≠ .host ∧ m ≠ .connection ∧ m ≠ .upgrade ∧ m ≠ .te ∧
      m ∉ hopByHopNames := by decide
  obtain ⟨hhost, hconnection, hupgrade, hte, hhop⟩ := hown n hn
  have hremoved : isHopByHop h n = true ↔ NamedByConnection h n := by
    rw [isHopByHop_iff, mem_connectionNames_iff, or_iff_right hhop, or_iff_right hupgrade]
    rfl
  rw [values_passedOn_of_ne hhost hconnection hupgrade, values_withTrailers_of_ne hte]
  exact if_congr hremoved rfl rfl

theorem texts_passedOn (h : Headers) (t : Target) :
    (passedOn h t).texts .xForwardedFor = earlierHops h := by
  unfold Headers.texts earlierHops
  rw [values_passedOn_forwarded (by decide)]
  split_ifs
  · rfl
  · rfl

theorem claimed?_passedOn (hn : n ∈ forwardedNames) (htrusted : c.trusted = true) (h : Headers)
    (t : Target) : claimed? (passedOn h t) c n = said? h n := by
  unfold claimed? said? Headers.get?
  rw [if_pos htrusted, values_passedOn_forwarded hn]
  split_ifs
  · rfl
  · rfl

def isReadableByte (b : UInt8) : Bool := (32 ≤ b && b < 127) || b == 9

theorem readable_earlierHops (h : Headers) :
    ∀ text ∈ earlierHops h, text.all isReadableByte = true := by
  intro text htext
  unfold earlierHops at htext
  split_ifs at htext
  · cases htext
  · obtain ⟨v, -, hv⟩ := List.mem_filterMap.mp htext
    unfold HeaderValue.text? at hv
    split_ifs at hv with hreadable
    obtain rfl := Option.some.inj hv
    exact hreadable

theorem readable_address (ip : Net.IpAddr) : ip.text.all isReadableByte = true := by
  have hoctet : ∀ b : UInt8, Net.isAddressByte b = true → isReadableByte b = true :=
    forall_octet (by decide +kernel)
  rw [List.all_eq_true]
  intro b hb
  exact hoctet b (List.all_eq_true.mp ip.all_text b hb)

/-- A readable text is a header value, and is read back as it is. -/
theorem exists_value_of_readable {text : Bytes} (h : text.all isReadableByte = true) :
    ∃ v : HeaderValue, HeaderValue.ofBytes? text = some v ∧ v.bytes = text ∧ v.text? = some text := by
  have hoctet : ∀ b : UInt8, isReadableByte b = true → isValueByte b = true :=
    forall_octet (by decide +kernel)
  have hvalid : text.all isValueByte = true := by
    rw [List.all_eq_true] at h ⊢
    exact fun b hb => hoctet b (h b hb)
  exact ⟨⟨text, hvalid⟩, dif_pos hvalid, rfl, if_pos h⟩

def addresses (hops : List Hop) : List Bytes :=
  hops.flatMap fun hop => (hop.peer.map (·.text)).toList

theorem addresses_singleton (hop : Hop) : addresses [hop] = (hop.peer.map (·.text)).toList :=
  List.flatMap_singleton _ hop

namespace Hop

/-- The addresses that the gateway knows of when it sends a request on. -/
def chain (hop : Hop) (h : Headers) : List Bytes := earlierHops h ++ addresses [hop]

theorem readable_chain (hop : Hop) (h : Headers) :
    ∀ text ∈ hop.chain h, text.all isReadableByte = true := by
  intro text htext
  rcases List.mem_append.mp htext with hearlier | hpeer
  · exact readable_earlierHops h text hearlier
  · rw [addresses_singleton, Option.mem_toList] at hpeer
    obtain ⟨ip, -, rfl⟩ := Option.map_eq_some_iff.mp hpeer
    exact readable_address ip

/-- The line is a readable header value when there is anything to tell. -/
theorem forwardedFor?_passedOn (hop : Hop) (h : Headers) :
    let told := forwardedFor? (passedOn h hop.target) hop.context
    (told.map (·.bytes)).toList = line (hop.chain h) ∧
      (told.bind (·.text?)).toList = line (hop.chain h) := by
  have hjoined : ((Bytes.ofLatin1 ", ").intercalate (hop.chain h)).all isReadableByte = true :=
    all_intercalate (by decide) (hop.readable_chain h)
  obtain ⟨v, hv, hbytes, htext⟩ := exists_value_of_readable hjoined
  have htold : forwardedFor? (passedOn h hop.target) hop.context =
      if hop.chain h = [] then none else some v := by
    rw [← hv]
    unfold forwardedFor? chain
    rw [texts_passedOn, addresses_singleton]
    simp only [context, if_true, List.isEmpty_iff]
  intro told
  have hcases : told = if hop.chain h = [] then none else some v := htold
  by_cases hempty : hop.chain h = []
  · rw [hcases, if_pos hempty, hempty]
    exact ⟨rfl, rfl⟩
  · rw [hcases, if_neg hempty, line_of_ne_nil hempty, Option.map_some, hbytes, Option.bind_some,
      htext]
    exact ⟨rfl, rfl⟩

/-- `X-Forwarded-For` as it goes out, and as the next gateway can read it. -/
theorem forwardedFor_of_sends (h : hop.Sends r sent) :
    (sent.headers.values .xForwardedFor).map (·.bytes) = line (hop.chain r.headers) ∧
      sent.headers.texts .xForwardedFor = line (hop.chain r.headers) := by
  obtain ⟨hbytes, htexts⟩ := hop.forwardedFor?_passedOn r.headers
  have hvalues : sent.headers.values .xForwardedFor =
      (forwardedFor? (passedOn r.headers hop.target) hop.context).toList := by
    rw [headers_of_sends h, forwardHeaders_eq, values_setForwarded_eq, if_neg (by decide),
      if_neg (by decide), if_pos rfl]
  unfold Headers.texts
  rw [hvalues, ← Option.toList_map, hbytes]
  refine ⟨rfl, ?_⟩
  rw [← htexts]
  cases forwardedFor? (passedOn r.headers hop.target) hop.context with
  | none => rfl
  | some v =>
    rw [Option.toList_some, Option.bind_some, List.filterMap_cons]
    cases v.text? <;> rfl

theorem not_namedByConnection_of_sends (h : hop.Sends r sent) :
    ¬ NamedByConnection sent.headers .xForwardedFor := by
  unfold NamedByConnection
  rw [← mem_connectionNames_iff, headers_of_sends h]
  have hconnection := values_forwardHeaders_connection r hop.target hop.context
  split_ifs at hconnection
  · have hupgrade : HeaderName.xForwardedFor ∉
        connectionNames (.ofFields [(.connection, .ofLatin1 "upgrade" (by decide))]) := by decide
    rwa [connectionNames_congr (h := .ofFields [(.connection, .ofLatin1 "upgrade" (by decide))])
      hconnection]
  · have hbare : HeaderName.xForwardedFor ∉ connectionNames ∅ := by decide
    rwa [connectionNames_congr (h := ∅) hconnection]

/-- The next gateway reads the line that this one wrote, and nothing else. -/
theorem earlierHops_of_arrives (h : hop.Sends r sent) (harrives : Arrives sent arrived) :
    earlierHops arrived.headers = line (hop.chain r.headers) := by
  have hconnection := harrives .connection (by decide)
  have hline := harrives .xForwardedFor (by decide)
  have hunnamed : ¬ NamedByConnection arrived.headers .xForwardedFor := by
    have hsent := not_namedByConnection_of_sends h
    unfold NamedByConnection at hsent ⊢
    rw [← mem_connectionNames_iff] at hsent ⊢
    rwa [connectionNames_congr hconnection]
  unfold earlierHops
  rw [if_neg hunnamed, ← (forwardedFor_of_sends h).2]
  unfold Headers.texts
  rw [hline]

end Hop

/-- Each gateway has added the address of its peer, where it knew it. -/
theorem line_chain_of_reaches (hreach : Reaches r hops arrived) (hop : Hop) :
    line (hop.chain arrived.headers) =
      line (earlierHops r.headers ++ addresses (hops ++ [hop])) := by
  -- The gateway at the end is arbitrary: the one that the last step adds takes its place.
  induction hreach generalizing hop with
  | here => rfl
  | @past hops last before sent after hreach hsent harrives ih =>
    have hread := last.earlierHops_of_arrives hsent harrives
    have hall : addresses (hops ++ [last] ++ [hop]) =
        addresses (hops ++ [last]) ++ addresses [hop] := List.flatMap_append
    calc line (hop.chain after.headers)
        = line (line (last.chain before.headers) ++ addresses [hop]) := by rw [Hop.chain, hread]
      _ = line (line (earlierHops r.headers ++ addresses (hops ++ [last])) ++ addresses [hop]) := by
        rw [ih last]
      _ = line (earlierHops r.headers ++ addresses (hops ++ [last] ++ [hop])) := by
        rw [line_line_append, hall, List.append_assoc]

/-- What the target of a trusting gateway is told of a request's sender. However many gateways the
request went through before, the addresses of their peers stand in the order of the hops behind those
that the request came in with, and the last one is that of the gateway's own peer. -/
theorem told_by_trusting_hops (hreach : Reaches r hops arrived) (hsent : hop.Sends arrived sent) :
    (sent.headers.values .xForwardedFor).map (·.bytes) =
        line (earlierHops r.headers ++ addresses (hops ++ [hop])) ∧
      (∀ ip ∈ hop.peer, ∃ v, sent.headers.values .xForwardedFor = [v] ∧
        (elementsOf v.bytes).getLast? = some ip.text) ∧
      (sent.headers.values .xForwardedHost).map (·.bytes) =
        ((said? arrived.headers .xForwardedHost).map (·.bytes) <|>
          (arrived.headers.get? .host).map (·.bytes) <|>
          arrived.uri.authority.map (·.bytes)).toList ∧
      sent.headers.values .xForwardedProto =
        [(said? arrived.headers .xForwardedProto).getD hop.scheme.value] := by
  obtain ⟨hbytes, -⟩ := hop.forwardedFor_of_sends hsent
  have hline := hbytes.trans (line_chain_of_reaches hreach hop)
  have htold (n : HeaderName) : sent.headers.values n =
      (setForwarded (passedOn arrived.headers hop.target) (inboundHost? arrived)
        hop.context).values n := by
    rw [Hop.headers_of_sends hsent, forwardHeaders_eq]
  refine ⟨hline, ?_, ?_, ?_⟩
  · intro ip hip
    have hknown : addresses [hop] = [ip.text] := by
      rw [addresses_singleton, Option.mem_def.mp hip]
      rfl
    have hchain : line (hop.chain arrived.headers) =
        [(Bytes.ofLatin1 ", ").intercalate (earlierHops arrived.headers ++ [ip.text])] := by
      rw [Hop.chain, hknown]
      exact line_of_ne_nil (List.append_ne_nil_of_right_ne_nil _ (List.cons_ne_nil _ _))
    rw [hchain] at hbytes
    obtain ⟨v, hv, hjoined⟩ := List.map_eq_singleton_iff.mp hbytes
    refine ⟨v, hv, ?_⟩
    rw [hjoined]
    exact getLast?_elementsOf_intercalate (earlierHops arrived.headers) ip
  · rw [htold, values_setForwarded_eq, if_neg (by decide), if_pos rfl,
      claimed?_passedOn (by decide) rfl, ← Option.toList_map, ← inboundHost?_bytes]
    cases said? arrived.headers .xForwardedHost <;> rfl
  · rw [htold, values_setForwarded_eq, if_pos rfl, claimed?_passedOn (by decide) rfl]
    rfl

/-- Two gateways, of which the first gets what looks like an earlier chain and an empty host, and the
second what the first one wrote. -/
theorem told_by_trusting_hops_of_two_gateways :
    let r : RequestHead := ⟨.get, ⟨none, none, [47], none, by decide, nofun⟩, .ofFields [
      (.host, .ofLatin1 "site" (by decide)), (.connection, .ofLatin1 "close, x-a" (by decide)),
      (.xForwardedFor, .ofLatin1 "192.0.2.1" (by decide)),
      (.xForwardedHost, .ofLatin1 "" (by decide)),
      (.xForwardedFor, .ofLatin1 "10.0.0.8,192.0.2.2" (by decide)),
      (.xForwardedProto, .ofLatin1 "https" (by decide))]⟩
    let front : Hop := ⟨⟨.http, ⟨.ofLatin1 "inner:3000", by decide⟩, [], none⟩,
      some (.v4 ⟨10, 0, 0, 7⟩), .http⟩
    let inner : Hop := ⟨⟨.http, ⟨.ofLatin1 "app:80", by decide⟩, [], none⟩,
      some (.v4 ⟨10, 0, 0, 8⟩), .http⟩
    ∃ middle sent, front.Sends r middle ∧ inner.Sends middle sent ∧
      (sent.headers.values .xForwardedFor).map (·.bytes) =
        [.ofLatin1 "192.0.2.1, 10.0.0.8,192.0.2.2, 10.0.0.7, 10.0.0.8"] ∧
      (sent.headers.values .xForwardedHost).map (·.bytes) = [.ofLatin1 "site"] ∧
      sent.headers.values .xForwardedProto = [.ofLatin1 "https" (by decide)] := by
  intro r front inner
  have hpasses : ((outbound? r front.target front.context).bind
      (outbound? · inner.target inner.context)).isSome = true := by decide +kernel
  obtain ⟨sent, hsent⟩ := Option.isSome_iff_exists.mp hpasses
  obtain ⟨middle, hmiddle, hsent⟩ := Option.bind_eq_some_iff.mp hsent
  have hfront := Hop.sends_iff.mpr hmiddle
  have hinner := Hop.sends_iff.mpr hsent
  have hhost : said? middle.headers .xForwardedHost = some (.ofLatin1 "site" (by decide)) := by
    rw [Hop.headers_of_sends hfront]
    decide +kernel
  have hproto : said? middle.headers .xForwardedProto = some (.ofLatin1 "https" (by decide)) := by
    rw [Hop.headers_of_sends hfront]
    decide +kernel
  obtain ⟨hfor, -, htoldHost, htoldProto⟩ :=
    told_by_trusting_hops (.past .here hfront fun _ _ => rfl) hinner
  rw [hhost] at htoldHost
  rw [hproto] at htoldProto
  refine ⟨middle, sent, hfront, hinner, ?_, htoldHost, htoldProto⟩
  rw [hfor]
  decide +kernel

end Gateway.Proxy
