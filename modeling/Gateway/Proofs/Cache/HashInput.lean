import Gateway.Cache.Variant
import Gateway.Proofs.Http.Authority
import Gateway.Proofs.Query.Spelling
import Gateway.Proofs.Text.Elements

/-! The octets that a variant's key is the hash of determine the variant, as no component holds the
octet that closes it. -/
namespace Gateway

namespace Bytes

/-- A piece without the separator ends where the first separator stands. -/
theorem append_sep_inj {sep : UInt8} {a b : Bytes} (ha : sep ∉ a) (hb : sep ∉ b)
    {x y : Bytes} (h : a ++ sep :: x = b ++ sep :: y) : a = b ∧ x = y := by
  have hsplit := splitFirst?_append ha x
  rw [h, splitFirst?_append hb y] at hsplit
  exact ⟨congrArg Prod.fst (Option.some.inj hsplit.symm),
    congrArg Prod.snd (Option.some.inj hsplit.symm)⟩

theorem not_mem_of_all {p : UInt8 → Bool} {b : UInt8} (hb : p b = false) {bs : Bytes}
    (h : bs.all p = true) : b ∉ bs := by
  intro hmem
  have := List.all_eq_true.mp h b hmem
  rw [hb] at this
  cases this

end Bytes

namespace Http

/-! ### Octets that the parts of a request cannot hold -/

theorem Method.ext {m n : Method} (h : m.bytes = n.bytes) : m = n := by
  cases m
  cases n
  simpa using h

theorem HeaderName.ext {m n : HeaderName} (h : m.bytes = n.bytes) : m = n := by
  cases m
  cases n
  simpa using h

theorem Method.zero_not_mem (m : Method) : 0 ∉ m.bytes := by
  have h := m.valid
  unfold isMethod at h
  exact Bytes.not_mem_of_all (by decide) ((Bool.and_eq_true_iff.mp h).2)

/-- A header name holds no equals sign. -/
theorem HeaderName.equals_not_mem (n : HeaderName) : 61 ∉ n.bytes := by
  have h := n.valid
  unfold isHeaderName at h
  exact Bytes.not_mem_of_all (by decide) ((Bool.and_eq_true_iff.mp h).2)

theorem HeaderValue.zero_not_mem (v : HeaderValue) : 0 ∉ v.bytes :=
  Bytes.not_mem_of_all (by decide) v.valid

theorem Headers.zero_not_mem_firstBytes (h : Headers) (n : HeaderName) : 0 ∉ h.firstBytes n := by
  unfold firstBytes
  cases h.get? n with
  | none => simp
  | some v => exact v.zero_not_mem

theorem Headers.zero_not_mem_text {h : Headers} {n : HeaderName} {t : Bytes}
    (ht : h.text? n = some t) : 0 ∉ t := by
  obtain ⟨v, -, hv⟩ := Option.bind_eq_some_iff.mp ht
  unfold HeaderValue.text? at hv
  split_ifs at hv
  obtain rfl := Option.some.inj hv
  exact v.zero_not_mem

theorem Authority.zero_not_mem (a : Authority) : 0 ∉ a.bytes := by
  intro hmem
  cases isAuthorityByte_of_mem hmem

theorem Uri.zero_not_mem_path (u : Uri) : 0 ∉ u.path := by
  unfold path
  split_ifs
  · decide
  · exact Bytes.not_mem_of_all (by decide) u.path_valid

end Http

namespace Query

theorem zero_not_mem_writeParam (p : Param) : 0 ∉ writeParam p := by
  have hescape : ∀ cs, 0 ∉ escape cs := not_mem_escape (forall_octet (by decide +kernel))
  unfold writeParam
  simp [hescape]

theorem zero_not_mem_write (ps : List Param) : 0 ∉ write ps := by
  induction ps with
  | nil => simp [write]
  | cons p rest ih =>
    cases rest with
    | nil => exact zero_not_mem_writeParam p
    | cons q rest => simp [write, zero_not_mem_writeParam, ih]

theorem zero_not_mem_canonical (query : Option Bytes) : 0 ∉ canonical query := by
  cases query with
  | none => simp [canonical]
  | some q => exact zero_not_mem_write (canonicalParams q)

end Query

namespace Cache

open Gateway.Http

namespace Variant

/-- Two variants of one resource: they agree in all but the headers. -/
structure SameResource (a b : Variant) : Prop where
  method : a.method = b.method
  path : a.path = b.path
  query : a.query = b.query
  host : a.host = b.host

/-- No component holds the octet that closes it. -/
structure Delimited (v : Variant) : Prop where
  path : 0 ∉ v.path
  query : 0 ∉ v.query
  host : 0 ∉ v.host

theorem delimited_ofRequest (r : RequestHead) : (ofRequest r).Delimited where
  path := r.uri.zero_not_mem_path
  query := Query.zero_not_mem_canonical r.uri.query
  host := by
    change 0 ∉ hostOf r.uri r.headers
    unfold hostOf
    cases ht : r.headers.text? .host with
    | some t => exact Headers.zero_not_mem_text ht
    | none =>
      cases r.uri.authority with
      | none => simp
      | some a => exact a.zero_not_mem

theorem Delimited.withNames {v : Variant} (h : v.Delimited) (names : List HeaderName) :
    (v.withNames names).Delimited := ⟨h.path, h.query, h.host⟩

theorem baseInput_append_inj {a b : Variant} (ha : a.Delimited) (hb : b.Delimited) {x y : Bytes}
    (h : a.baseInput ++ x = b.baseInput ++ y) : a.SameResource b ∧ x = y := by
  have hclosed : ∀ v : Variant, ∀ z, v.baseInput ++ z =
      v.method.bytes ++ 0 :: (v.path ++ 0 :: (v.query ++ 0 :: (v.host ++ 0 :: z))) := by
    intro v z
    simp [baseInput]
  rw [hclosed, hclosed] at h
  obtain ⟨hmethod, h⟩ := Bytes.append_sep_inj a.method.zero_not_mem b.method.zero_not_mem h
  obtain ⟨hpath, h⟩ := Bytes.append_sep_inj ha.path hb.path h
  obtain ⟨hquery, h⟩ := Bytes.append_sep_inj ha.query hb.query h
  obtain ⟨hhost, h⟩ := Bytes.append_sep_inj ha.host hb.host h
  exact ⟨⟨Method.ext hmethod, hpath, hquery, hhost⟩, h⟩

def fieldsInput (headers : Headers) (names : List HeaderName) : Bytes :=
  names.flatMap fun n => n.bytes ++ 61 :: (headers.firstBytes n ++ [0])

theorem fieldsInput_inj {g h : Headers} {ns ms : List HeaderName}
    (heq : fieldsInput g ns = fieldsInput h ms) :
    ns = ms ∧ ∀ n ∈ ns, g.firstBytes n = h.firstBytes n := by
  -- a name ends at its first equals sign, its value at the first zero octet after that
  have hcons : ∀ (i : Headers) n rest, fieldsInput i (n :: rest) =
      n.bytes ++ 61 :: (i.firstBytes n ++ 0 :: fieldsInput i rest) := by
    intro i n rest
    simp [fieldsInput]
  induction ns generalizing ms with
  | nil =>
    cases ms with
    | nil => simp
    | cons m ms =>
      rw [hcons] at heq
      simp [fieldsInput] at heq
  | cons n ns ih =>
    cases ms with
    | nil =>
      rw [hcons] at heq
      simp [fieldsInput] at heq
    | cons m ms =>
      rw [hcons, hcons] at heq
      obtain ⟨hname, heq⟩ := Bytes.append_sep_inj n.equals_not_mem m.equals_not_mem heq
      obtain ⟨hvalue, heq⟩ := Bytes.append_sep_inj (g.zero_not_mem_firstBytes n)
        (h.zero_not_mem_firstBytes m) heq
      obtain ⟨hrest, hvalues⟩ := ih heq
      obtain rfl := HeaderName.ext hname
      refine ⟨by rw [hrest], fun k hk => ?_⟩
      rcases List.mem_cons.mp hk with rfl | hk
      · exact hvalue
      · exact hvalues k hk

/-- On one base, variants have the same hash input exactly when they consider the same names and
have the same first value of each. -/
theorem hashInput_eq_iff_of_base {a b : Variant} (h : a.baseInput = b.baseInput) :
    a.hashInput = b.hashInput ↔ a.names = b.names ∧ ∀ n ∈ a.names, a.value n = b.value n := by
  unfold hashInput
  rw [h, List.append_cancel_left_eq]
  constructor
  · intro hfields
    exact fieldsInput_inj (g := a.headers) (h := b.headers) hfields
  · rintro ⟨hnames, hvalues⟩
    rw [← hnames]
    refine List.flatMap_congr fun n hn => ?_
    rw [hvalues n hn]

/-- Variants have the same hash input exactly when they are of one resource, consider the same
names, and have the same first value of each. -/
theorem hashInput_eq_iff {a b : Variant} (ha : a.Delimited) (hb : b.Delimited) :
    a.hashInput = b.hashInput ↔
      a.SameResource b ∧ a.names = b.names ∧ ∀ n ∈ a.names, a.value n = b.value n := by
  constructor
  · intro h
    obtain ⟨hbase, hfields⟩ := baseInput_append_inj ha hb h
    exact ⟨hbase, fieldsInput_inj (g := a.headers) (h := b.headers) hfields⟩
  · rintro ⟨⟨hmethod, hpath, hquery, hhost⟩, hvalues⟩
    have hbase : a.baseInput = b.baseInput := by
      unfold baseInput
      rw [hmethod, hpath, hquery, hhost]
    exact (hashInput_eq_iff_of_base hbase).mpr hvalues

/-- For variants made from requests no more needs to be known of the octets. -/
theorem hashInput_withNames_eq_iff (p q : RequestHead) (ns ms : List HeaderName) :
    ((ofRequest p).withNames ns).hashInput = ((ofRequest q).withNames ms).hashInput ↔
      (ofRequest p).SameResource (ofRequest q) ∧ ns = ms ∧
        ∀ n ∈ ns, p.headers.firstBytes n = q.headers.firstBytes n := by
  have hiff := hashInput_eq_iff ((delimited_ofRequest p).withNames ns)
    ((delimited_ofRequest q).withNames ms)
  constructor
  · intro h
    obtain ⟨⟨hmethod, hpath, hquery, hhost⟩, hrest⟩ := hiff.mp h
    exact ⟨⟨hmethod, hpath, hquery, hhost⟩, hrest⟩
  · rintro ⟨⟨hmethod, hpath, hquery, hhost⟩, hrest⟩
    exact hiff.mpr ⟨⟨hmethod, hpath, hquery, hhost⟩, hrest⟩

/-- Requests for one resource have the same base key. -/
theorem SameResource.key_eq {p q : RequestHead} (h : (ofRequest p).SameResource (ofRequest q)) :
    (ofRequest p).key = (ofRequest q).key := by
  have hinput : (ofRequest p).hashInput = (ofRequest q).hashInput :=
    (hashInput_withNames_eq_iff p q [] []).mpr ⟨h, rfl, fun n hn => (List.not_mem_nil hn).elim⟩
  unfold key
  rw [hinput]

/-- Whatever names are put to two requests, the octets hashed for them are the same exactly when
the requests agree in method, path, canonical query and host, the names are the same list, and the
first value of each name is the same. -/
theorem hashInput_ofRequest_eq_iff (p q : RequestHead) (ns ms : List HeaderName) :
    ((ofRequest p).withNames ns).hashInput = ((ofRequest q).withNames ms).hashInput ↔
      p.method = q.method ∧ p.uri.path = q.uri.path ∧
        Query.canonical p.uri.query = Query.canonical q.uri.query ∧
        hostOf p.uri p.headers = hostOf q.uri q.headers ∧
        ns = ms ∧ ∀ n ∈ ns, p.headers.firstBytes n = q.headers.firstBytes n := by
  rw [hashInput_withNames_eq_iff]
  constructor
  · rintro ⟨⟨hmethod, hpath, hquery, hhost⟩, hnames, hvalues⟩
    exact ⟨hmethod, hpath, hquery, hhost, hnames, hvalues⟩
  · rintro ⟨hmethod, hpath, hquery, hhost, hnames, hvalues⟩
    exact ⟨⟨hmethod, hpath, hquery, hhost⟩, hnames, hvalues⟩

end Variant

end Cache

end Gateway
