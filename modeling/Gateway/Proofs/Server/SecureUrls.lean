import Gateway.Proofs.Http.Fields
import Gateway.Proofs.Http.Hosts
import Gateway.Server.Redirect

/-! Where the plain listener sends its clients: to the host that they asked for, and to the path and
the query, unless the three cannot be put behind one another. -/
namespace Gateway.Server
open Http
open Http.Uri (marked)

def askedPath (u : Uri) : Bytes := if u.path = [] then [47] else u.path

/-- A URL of what the request asks for, on the secure listener of this authority's host. -/
structure Secures (r : RequestHead) (a : Authority) (port : UInt16) (u : Uri) : Prop where
  scheme_eq : u.scheme = some .https
  host_eq : u.authority.map (·.host) = some a.host
  port_eq : u.authority.bind (·.port?) = if port = defaultHttpsPort then none else some port
  path_eq : u.path = askedPath r.uri
  query_eq : u.query = r.uri.query

def spelledPort (port : UInt16) : Option Bytes :=
  if port = defaultHttpsPort then none else some (.ofNat port.toNat)

/-- The path as it stands in front of the query; the root for nothing at all. -/
def writtenPath (u : Uri) : Bytes := if u.rawPath = [] ∧ u.query = none then [47] else u.rawPath

theorem pathAndQuery_eq (u : Uri) : u.pathAndQuery = writtenPath u ++ marked 63 u.query := by
  unfold Uri.pathAndQuery writtenPath
  cases u.query with
  | none =>
    by_cases hpath : u.rawPath = []
    · simp [hpath, marked]
    · simp [hpath, marked]
  | some q => simp [marked]

/-- Where the path stands, an empty one is the root. -/
theorem askedPath_eq (u : Uri) :
    askedPath u = if writtenPath u = [] then [47] else writtenPath u := by
  unfold askedPath Uri.path writtenPath
  by_cases hpath : u.rawPath = []
  · cases u.scheme <;> cases u.query <;> simp [hpath]
  · simp [hpath]

theorem isPath_writtenPath {u : Uri} (h : u.HasParts) : IsPath (writtenPath u) := by
  unfold writtenPath
  split
  · exact IsPath.slash
  · exact h.path

theorem all_writtenPath (u : Uri) : (writtenPath u).all isPathByte = true := by
  unfold writtenPath
  split
  · rfl
  · exact u.path_valid

theorem head_writtenPath {u : Uri} (h : ∀ b ∈ u.rawPath.head?, b = 47) :
    ∀ b ∈ (writtenPath u).head?, b = 47 := by
  unfold writtenPath
  split
  · exact fun b hb => (Option.some.inj hb).symm
  · exact h

theorem isDigit_of_mem_spelledPort {port : UInt16} {digits : Bytes} {b : UInt8}
    (h : spelledPort port = some digits) (hb : b ∈ digits) : Bytes.isDigit b = true := by
  unfold spelledPort at h
  split_ifs at h
  obtain rfl := Option.some.inj h
  exact Bytes.isDigit_of_mem_ofNat hb

theorem of_mem_marked {p : UInt8 → Bool} {mark b : UInt8} {part : Option Bytes}
    (hmark : p mark = true) (hpart : ∀ bs ∈ part, ∀ b ∈ bs, p b = true)
    (hb : b ∈ marked mark part) : p b = true := by
  cases part with
  | none => cases hb
  | some bs =>
    rcases List.mem_cons.mp hb with rfl | hb
    · exact hmark
    · exact hpart bs rfl b hb

theorem isTail_pathAndQuery {u : Uri} (h : ∀ b ∈ u.rawPath.head?, b = 47) :
    Uri.IsTail u.pathAndQuery := by
  have htail := Uri.isTail_marked (head_writtenPath h) u.query none
  rwa [marked, List.append_nil, ← pathAndQuery_eq] at htail

section Urls
variable {r : RequestHead} {v : HeaderValue} {a : Authority} {port : UInt16}

theorem requestedHost?_eq (hget : r.headers.get? .host = some v) (hv : v.bytes = a.bytes) :
    requestedHost? r = some a.bytes := by
  have hplain : ∀ b : UInt8, isAuthorityByte b = true →
      ((32 ≤ b && b < 127) || b == 9) = true ∧ Bytes.isBlank b = false :=
    forall_octet (by decide +kernel)
  have hread : r.headers.text? .host = some a.bytes := by
    unfold Headers.text?
    rw [hget, Option.bind_some, HeaderValue.text?_eq_some_iff]
    refine ⟨?_, hv⟩
    unfold HeaderValue.isReadable
    rw [hv, List.all_eq_true]
    intro b hb
    exact (hplain b (isAuthorityByte_of_mem hb)).1
  have htrim : Bytes.trim a.bytes = a.bytes :=
    Bytes.trimWhile_eq_self fun b hb => (hplain b (isAuthorityByte_of_mem hb)).2
  obtain ⟨-, -, -, -, -, hne, -⟩ := isAuthority_iff.mp a.valid
  unfold requestedHost?
  rw [hread, Option.map_some, htrim, Option.filter_some_pos (by simp [hne])]
  rfl

theorem secureUrl_eq (h : requestedHost? r = some a.bytes) (hne : a.host ≠ []) (port : UInt16) :
    secureUrl r port = .ofLatin1 "https://" ++
      ((a.host ++ marked 58 (spelledPort port)) ++ r.uri.pathAndQuery) := by
  have hbare : withoutPort a.bytes = a.host := by
    have hread : Authority.ofBytes? a.bytes = some a := dif_pos a.valid
    unfold withoutPort
    rw [hread]
    rfl
  unfold secureUrl spelledPort
  rw [h, Option.map_some, hbare, Option.getD_some, List.append_assoc]
  by_cases hport : port = defaultHttpsPort
  · simp [hport, marked]
  · simp [hport, hne, marked]

theorem isAuthorityByte_of_mem_host {b : UInt8} (hb : b ∈ a.host) : isAuthorityByte b = true := by
  obtain ⟨user, hbytes, -⟩ := a.exists_user
  obtain ⟨-, rest, hrest⟩ := a.isHost_host
  refine isAuthorityByte_of_mem (a := a) ?_
  rw [hbytes, hrest]
  exact List.mem_append_right _ (List.mem_append_left _ hb)

/-- A `Location` can hold the URL, whatever it leads to. -/
theorem exists_location (h : requestedHost? r = some a.bytes) (hne : a.host ≠ []) (port : UInt16) :
    ∃ location : HeaderValue, location.bytes = secureUrl r port ∧
      (redirect r port).head.headers.values .location = [location] := by
  have hauthority : ∀ b : UInt8, isAuthorityByte b = true → isValueByte b = true :=
    forall_octet (by decide +kernel)
  have hdigit : ∀ b : UInt8, Bytes.isDigit b = true → isValueByte b = true :=
    forall_octet (by decide +kernel)
  have hpath : ∀ b : UInt8, isPathByte b = true → isValueByte b = true :=
    forall_octet (by decide +kernel)
  have hquery : ∀ b : UInt8, isQueryByte b = true → isValueByte b = true :=
    forall_octet (by decide +kernel)
  have hall : (secureUrl r port).all isValueByte = true := by
    rw [secureUrl_eq h hne, pathAndQuery_eq, List.all_eq_true]
    intro b hb
    simp only [List.mem_append] at hb
    rcases hb with hb | (hb | hb) | hb | hb
    · have hname : (Bytes.ofLatin1 "https://").all isValueByte = true := by decide
      exact List.all_eq_true.mp hname b hb
    · exact hauthority b (isAuthorityByte_of_mem_host hb)
    · refine of_mem_marked (p := isValueByte) rfl (fun digits hdigits c hc => ?_) hb
      exact hdigit c (isDigit_of_mem_spelledPort hdigits hc)
    · exact hpath b (List.all_eq_true.mp (all_writtenPath r.uri) b hb)
    · refine of_mem_marked (p := isValueByte) rfl (fun q hq c hc => ?_) hb
      exact hquery c (List.all_eq_true.mp (r.uri.query_valid q hq) c hc)
  have hread : HeaderValue.ofBytes? (secureUrl r port) = some ⟨_, hall⟩ := dif_pos hall
  refine ⟨⟨_, hall⟩, rfl, ?_⟩
  unfold redirect
  rw [hread]
  simp

theorem isAuthority_append_spelledPort (hne : a.host ≠ []) (port : UInt16) :
    isAuthority (a.host ++ marked 58 (spelledPort port)) = true ↔ isAuthority a.host = true := by
  cases hport : spelledPort port with
  | none => rw [marked, List.append_nil]
  | some digits =>
    have hdigits : ∀ b ∈ digits, Bytes.isDigit b = true :=
      fun b hb => isDigit_of_mem_spelledPort hport hb
    exact isAuthority_append_port a.isHost_host.1 hne hdigits

theorem port?_of_spelledPort {authority : Authority}
    (hbytes : authority.bytes = a.host ++ marked 58 (spelledPort port)) :
    authority.port? = if port = defaultHttpsPort then none else some port := by
  obtain ⟨hhost, -⟩ := a.isHost_host
  by_cases hport : port = defaultHttpsPort
  · have hspelled : spelledPort port = none := if_pos hport
    rw [hspelled, marked, List.append_nil] at hbytes
    rw [if_pos hport, Authority.port?_of_isHost (hbytes ▸ hhost)]
  · have hspelled : spelledPort port = some (.ofNat port.toNat) := if_neg hport
    have hnot : 58 ∉ Bytes.ofNat port.toNat := fun hmem =>
      absurd (Bytes.isDigit_of_mem_ofNat hmem) (by decide)
    rw [hspelled, marked] at hbytes
    rw [if_neg hport, Authority.port?_of_last hbytes hnot, Bytes.unsigned?_ofNat port.toNat_lt]
    simp

/-- A host that can stand alone is found again in the URL, and so is everything else. -/
theorem exists_secures (h : requestedHost? r = some a.bytes) (hne : a.host ≠ [])
    (hparts : r.uri.HasParts) (hslash : ∀ b ∈ r.uri.rawPath.head?, b = 47)
    (halone : isAuthority a.host = true) (hfits : (secureUrl r port).length ≤ Uri.maxLength) :
    ∃ u, Uri.parse? (secureUrl r port) = some u ∧ Secures r a port u := by
  obtain ⟨hhost, -⟩ := a.isHost_host
  have hvalid := (isAuthority_append_spelledPort hne port).mpr halone
  let authority : Authority := ⟨_, hvalid⟩
  let p : Uri.Spelling := ⟨.ofLatin1 "https", authority, writtenPath r.uri, r.uri.query, none⟩
  have htext : secureUrl r port = p.text := by
    rw [secureUrl_eq h hne, pathAndQuery_eq]
    simp [p, authority, Uri.Spelling.text, Uri.Spelling.tail, marked, Bytes.ofLatin1]
  have hp : p.Valid := {
    name := by rfl
    short := Nat.le_of_ble_eq_true rfl
    path := (isPath_writtenPath hparts).bytes
    slash := head_writtenPath hslash
    query := fun q hq => (hparts.query q hq).bytes
    fits := htext ▸ hfits }
  obtain ⟨u, hu, hscheme, hauthority, hpath, hquery⟩ :=
    Uri.Spelling.exists_parse?_of_parts hp (isPath_writtenPath hparts) hparts.query
  refine ⟨u, htext ▸ hu, ?_⟩
  constructor
  case scheme_eq => exact hscheme
  case host_eq =>
    have hat : 64 ∉ marked 58 (spelledPort port) := by
      intro hmem
      have hplain := of_mem_marked (p := (· != 64)) rfl (fun digits hdigits c hc => ?_) hmem
      · cases hplain
      · have hdigit := isDigit_of_mem_spelledPort hdigits hc
        rw [bne_iff_ne]
        rintro rfl
        cases hdigit
    rw [hauthority, Option.map_some, Authority.host_of_marked rfl hhost hne hat]
  case port_eq =>
    rw [hauthority, Option.bind_some]
    exact port?_of_spelledPort rfl
  case path_eq =>
    rw [askedPath_eq, Uri.path, hpath, hscheme]
    simp [p]
  case query_eq => exact hquery

/-- What leads to the host cannot do without any of this. -/
theorem parts_of_secures (h : requestedHost? r = some a.bytes) (hne : a.host ≠ [])
    {u : Uri} (hu : Uri.parse? (secureUrl r port) = some u) (hsecures : Secures r a port u) :
    (∀ b ∈ r.uri.rawPath.head?, b = 47) ∧ isAuthority a.host = true ∧
      (secureUrl r port).length ≤ Uri.maxLength := by
  obtain ⟨p, hp, htext, hscheme, hauthority, hpath, hquery⟩ :=
    Uri.exists_spelling hu hsecures.scheme_eq
  have hslash : ∀ b ∈ r.uri.rawPath.head?, b = 47 := by
    have hread : ∀ b ∈ u.path.head?, b = 47 := by
      unfold Uri.path
      rw [hpath, hscheme]
      split
      · exact fun b hb => (Option.some.inj hb).symm
      · exact hp.slash
    intro b hb
    obtain ⟨rest, hrest⟩ := List.head?_eq_some_iff.mp hb
    have hasked : askedPath r.uri = r.uri.rawPath := by simp [askedPath, Uri.path, hrest]
    rw [hsecures.path_eq, hasked] at hread
    exact hread b hb
  have hsplit : p.authority.bytes = a.host ++ marked 58 (spelledPort port) := by
    have hplain : ∀ b : UInt8, (isAuthorityByte b = true ∨ Bytes.isDigit b = true) →
        (!Uri.endsAuthority b) = true := forall_octet (by decide +kernel)
    have hurl : p.text = .ofLatin1 "https" ++ 58 :: 47 :: 47 ::
        ((a.host ++ marked 58 (spelledPort port)) ++ r.uri.pathAndQuery) := by
      rw [← htext, secureUrl_eq h hne]
      rfl
    refine (Uri.Spelling.splits hp).authority_eq hurl (List.all_eq_true.mp rfl) (fun b hb => ?_)
      (isTail_pathAndQuery hslash)
    rw [← Bool.not_eq_true']
    rcases List.mem_append.mp hb with hb | hb
    · exact hplain b (.inl (isAuthorityByte_of_mem_host hb))
    · refine of_mem_marked (p := (!Uri.endsAuthority ·)) rfl (fun digits hdigits c hc => ?_) hb
      exact hplain c (.inr (isDigit_of_mem_spelledPort hdigits hc))
  have halone := (isAuthority_append_spelledPort hne port).mp (hsplit ▸ p.authority.valid)
  exact ⟨hslash, halone, htext ▸ hp.fits⟩

end Urls

/-- A request that names its host is sent to a URL of the same resource there, unless its path does
not begin with a slash, the host cannot stand without the user information, or the URL would be too
long. -/
theorem redirect_secures_iff {r : RequestHead} {v : HeaderValue} {a : Authority} (port : UInt16)
    (hparts : r.uri.HasParts) (hget : r.headers.get? .host = some v) (hv : v.bytes = a.bytes)
    (hne : a.host ≠ []) : (redirect r port).head.status = .movedPermanently ∧
      ∃ location, (redirect r port).head.headers.values .location = [location] ∧
        ((∃ u, Uri.parse? location.bytes = some u ∧ Secures r a port u) ↔
          (∀ b ∈ r.uri.rawPath.head?, b = 47) ∧ isAuthority a.host = true ∧
            location.bytes.length ≤ Uri.maxLength) := by
  have hhost := requestedHost?_eq hget hv
  obtain ⟨location, hbytes, hvalues⟩ := exists_location hhost hne port
  refine ⟨rfl, location, hvalues, ?_⟩
  rw [hbytes]
  constructor
  · rintro ⟨u, hu, hsecures⟩
    exact parts_of_secures hhost hne hu hsecures
  · rintro ⟨hslash, halone, hfits⟩
    exact exists_secures hhost hne hparts hslash halone hfits

theorem redirect_secures_of_user_information :
    let uri : Uri := ⟨none, none, .ofLatin1 "/a", some (.ofLatin1 "x=1"), by decide, by decide⟩
    let host : HeaderValue := .ofLatin1 "user@[::1]:80" (by decide)
    let location : HeaderValue := .ofLatin1 "https://[::1]:8443/a?x=1" (by decide)
    let r : RequestHead := ⟨.get, uri, .ofFields [(.host, host)]⟩
    let a : Authority := ⟨host.bytes, by decide +kernel⟩
    Uri.parse? (.ofLatin1 "/a?x=1") = some uri ∧ r.headers.get? .host = some host ∧
      a.host = .ofLatin1 "[::1]" ∧
      (redirect r 8443).head.headers.values .location = [location] ∧
      ∃ u, Uri.parse? location.bytes = some u ∧ Secures r a 8443 u := by
  intro uri host location r a
  have huri : Uri.parse? (.ofLatin1 "/a?x=1") = some uri := by decide +kernel
  have hlocation : (redirect r 8443).head.headers.values .location = [location] := by
    decide +kernel
  have hhost : a.host = .ofLatin1 "[::1]" := by decide +kernel
  have halone : isAuthority a.host = true := by decide +kernel
  have hfits : location.bytes.length ≤ Uri.maxLength := by decide
  have hslash := (Uri.slash_iff_of_parse? huri).mpr (by decide)
  obtain ⟨-, sent, hsent, hiff⟩ := redirect_secures_iff (r := r) (v := host) (a := a) 8443
    (Uri.hasParts_of_parse? huri) rfl rfl (by decide +kernel)
  obtain rfl := List.singleton_inj.mp (hlocation.symm.trans hsent)
  exact ⟨huri, rfl, hhost, hlocation, hiff.mpr ⟨hslash, halone, hfits⟩⟩

/-- The asterisk is taken for a part of the host. -/
theorem redirect_elsewhere_of_asterisk :
    let uri : Uri := ⟨none, none, .ofLatin1 "*", none, by decide, by decide⟩
    let host : HeaderValue := .ofLatin1 "foo.test:80" (by decide)
    let location : HeaderValue := .ofLatin1 "https://foo.test*" (by decide)
    let r : RequestHead := ⟨⟨.ofLatin1 "OPTIONS", by decide⟩, uri, .ofFields [(.host, host)]⟩
    let a : Authority := ⟨host.bytes, by decide +kernel⟩
    Uri.parse? (.ofLatin1 "*") = some uri ∧ r.headers.get? .host = some host ∧
      a.host = .ofLatin1 "foo.test" ∧
      (redirect r 443).head.headers.values .location = [location] ∧
      ∃ u, Uri.parse? location.bytes = some u ∧
        u.authority.map (·.host) = some (.ofLatin1 "foo.test*") ∧ ¬ Secures r a 443 u := by
  intro uri host location r a
  have huri : Uri.parse? (.ofLatin1 "*") = some uri := by decide +kernel
  have hlocation : (redirect r 443).head.headers.values .location = [location] := by
    decide +kernel
  have hhost : a.host = .ofLatin1 "foo.test" := by decide +kernel
  have hread : (Uri.parse? location.bytes).map (fun u => u.authority.map (·.host)) =
      some (some (.ofLatin1 "foo.test*")) := by
    decide +kernel
  obtain ⟨u, hu, helsewhere⟩ := Option.map_eq_some_iff.mp hread
  refine ⟨huri, rfl, hhost, hlocation, u, hu, helsewhere, fun hsecures => ?_⟩
  have hsame := helsewhere.symm.trans hsecures.host_eq
  rw [hhost] at hsame
  revert hsame
  decide

end Gateway.Server
