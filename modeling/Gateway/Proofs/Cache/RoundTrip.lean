import Gateway.Cache.Stored
import Gateway.Proofs.Cache.MessagePack
import Gateway.Proofs.Http.Fields
import Gateway.Proofs.Text.Utf8

/-! A stored response is read back from its blob as it was, but for its cookies, and writing what
was read gives the same blob. -/
namespace Gateway

namespace Cache

open Gateway.Http

namespace Stored

/-- A header section whose number of lines and whose values' lengths have 32 bits. -/
structure FieldsFit (h : Headers) : Prop where
  count : h.fields.length < UInt32.size
  value : ∀ f ∈ h.fields, f.2.bytes.length < UInt32.size

/-- Everything that the blob holds fits the widest form it may be written in. -/
structure Fits (r : Stored) : Prop where
  headers : FieldsFit r.withoutCookies.headers
  body : r.body.length < UInt32.size
  recorded : FieldsFit r.recorded

instance (h : Headers) : Decidable (FieldsFit h) :=
  decidable_of_iff (h.fields.length < UInt32.size ∧ ∀ f ∈ h.fields, f.2.bytes.length < UInt32.size)
    ⟨fun ⟨hcount, hvalue⟩ => ⟨hcount, hvalue⟩, fun hfit => ⟨hfit.count, hfit.value⟩⟩

instance (r : Stored) : Decidable r.Fits :=
  decidable_of_iff
    (FieldsFit r.withoutCookies.headers ∧ r.body.length < UInt32.size ∧ FieldsFit r.recorded)
    ⟨fun ⟨hheaders, hbody, hrecorded⟩ => ⟨hheaders, hbody, hrecorded⟩,
      fun hfit => ⟨hfit.headers, hfit.body, hfit.recorded⟩⟩

/-- A field line takes more room than its value. -/
theorem length_lt_writePair (f : HeaderName × HeaderValue) :
    f.2.bytes.length < (writePair f).length := by
  have hpair : (MessagePack.writeArray 2).length = 1 := by decide
  unfold writePair MessagePack.writeOctets
  simp only [List.length_append, hpair]
  omega

theorem fieldsFit_of_length {h : Headers} (hlen : (writePairs h).length < UInt32.size) :
    FieldsFit h := by
  have hroom : ∀ fs : List (HeaderName × HeaderValue),
      fs.length ≤ (fs.flatMap writePair).length ∧
        ∀ f ∈ fs, f.2.bytes.length ≤ (fs.flatMap writePair).length := by
    intro fs
    induction fs with
    | nil => simp
    | cons f fs ih =>
      have hfirst := length_lt_writePair f
      simp only [List.flatMap_cons, List.length_append, List.length_cons]
      refine ⟨by omega, fun g hg => ?_⟩
      rcases List.mem_cons.mp hg with rfl | hg
      · omega
      · exact Nat.le_trans (ih.2 g hg) (Nat.le_add_left _ _)
  have hlines : (h.fields.flatMap writePair).length < UInt32.size := by
    unfold writePairs at hlen
    rw [List.length_append] at hlen
    omega
  obtain ⟨hcount, hvalue⟩ := hroom h.fields
  exact ⟨Nat.lt_of_le_of_lt hcount hlines, fun f hf => Nat.lt_of_le_of_lt (hvalue f hf) hlines⟩

/-- A blob of less than four gigabytes cannot hold anything that does not fit. -/
theorem fits_of_length_encode {r : Stored} (h : r.encode.length < UInt32.size) : r.Fits := by
  unfold encode at h
  simp only [List.length_append] at h
  have hbody : r.body.length ≤ (MessagePack.writeOctets r.body).length := by
    unfold MessagePack.writeOctets
    rw [List.length_append]
    exact Nat.le_add_left _ _
  refine ⟨fieldsFit_of_length ?_, ?_, fieldsFit_of_length ?_⟩
  · omega
  · omega
  · omega

def octets (f : HeaderName × HeaderValue) : Bytes × Bytes := (f.1.bytes, f.2.bytes)

theorem utf8?_name (n : HeaderName) : utf8? n.bytes = some n.bytes := by
  have hdecodes := Text.Utf8.isSome_decode?_of_ascii fun b hb => n.byte_lt hb
  obtain ⟨cs, hcs⟩ := Option.isSome_iff_exists.mp hdecodes
  unfold utf8?
  rw [hcs]
  rfl

theorem name?_writeText (n : HeaderName) (rest : Bytes) :
    name? (MessagePack.writeText n.bytes ++ rest) = some (n.bytes, rest) := by
  have hlen : n.bytes.length < UInt32.size := Nat.lt_of_le_of_lt n.length_le (by decide)
  unfold name?
  simp [MessagePack.read?_writeText hlen, utf8?_name]

theorem pair?_writePair {f : HeaderName × HeaderValue} (h : f.2.bytes.length < UInt32.size)
    (rest : Bytes) : pair? (writePair f ++ rest) = some (octets f, rest) := by
  have hpair : (2 : Nat) < UInt32.size := by decide
  unfold pair? writePair
  simp only [List.append_assoc, MessagePack.read?_writeArray hpair, Option.bind_eq_bind,
    Option.bind_some, name?_writeText, MessagePack.octets?_writeOctets h]
  rfl

theorem pairs?_writePairs {h : Headers} (hfit : FieldsFit h) (rest : Bytes) :
    pairs? (writePairs h ++ rest) = some (h.fields.map octets, rest) := by
  have hrun : MessagePack.repeat? pair? h.fields.length (h.fields.flatMap writePair ++ rest) =
      some (h.fields.map octets, rest) :=
    MessagePack.repeat?_flatMap (fun f hf => pair?_writePair (hfit.value f hf)) rest
  unfold pairs? writePairs
  simp only [List.append_assoc, MessagePack.read?_writeArray hfit.count, Option.bind_eq_bind,
    Option.bind_some]
  exact hrun

/-- The four parts after the head of their array, with what follows them. -/
def Parts.inOrder? (bs : Bytes) : Option (Parts × Bytes) := do
  let (status, rest) ← MessagePack.integer? UInt16.size bs
  let (headers, rest) ← pairs? rest
  let (body, rest) ← MessagePack.octets? rest
  let (recorded, rest) ← pairs? rest
  some (⟨status, headers, body, recorded⟩, rest)

theorem Parts.read?_writeArray (bs : Bytes) :
    Parts.read? (MessagePack.writeArray 4 ++ bs) = (Parts.inOrder? bs).map Prod.fst := by
  have hfour : (4 : Nat) < UInt32.size := by decide
  unfold Parts.read? Parts.inOrder?
  simp only [MessagePack.read?_writeArray hfour, Option.bind_eq_bind, Option.bind_some,
    Option.map_bind, Function.comp_def, Option.map_some]

def writeParts (r : Stored) : Bytes :=
  MessagePack.writeUnsigned r.status.code ++ (writePairs r.withoutCookies.headers ++
    (MessagePack.writeOctets r.body ++ writePairs r.recorded))

theorem encode_eq (r : Stored) : r.encode = MessagePack.writeArray 4 ++ r.writeParts := by
  unfold encode writeParts
  simp only [List.append_assoc]

def parts (r : Stored) : Parts :=
  ⟨r.status.code, r.withoutCookies.headers.fields.map octets, r.body, r.recorded.fields.map octets⟩

theorem inOrder?_writeParts {r : Stored} (h : r.Fits) (rest : Bytes) :
    Parts.inOrder? (r.writeParts ++ rest) = some (r.parts, rest) := by
  have hcode : r.status.code < UInt16.size := Nat.lt_of_le_of_lt r.status.valid.2 (by decide)
  have hsize : r.status.code < UInt64.size := Nat.lt_of_lt_of_le hcode (by decide)
  unfold Parts.inOrder? writeParts
  simp only [List.append_assoc, Option.bind_eq_bind, Option.bind_some,
    MessagePack.integer?_writeUnsigned hcode hsize, pairs?_writePairs h.headers,
    MessagePack.octets?_writeOctets h.body, pairs?_writePairs h.recorded]
  rfl

theorem read?_encode_append {r : Stored} (h : r.Fits) (rest : Bytes) :
    Parts.read? (r.encode ++ rest) = some r.parts := by
  rw [encode_eq, List.append_assoc, Parts.read?_writeArray, inOrder?_writeParts h]
  rfl

theorem checkPairs_map_octets (fs : List (HeaderName × HeaderValue)) :
    checkPairs (fs.map octets) = .ok fs := by
  induction fs with
  | nil => rfl
  | cons f rest ih =>
    obtain ⟨n, v⟩ := f
    simp [checkPairs, octets, n.ofBytes?_bytes, v.ofBytes?_bytes, ih, Except.map]

theorem ofNat?_code (s : Status) : Status.ofNat? s.code = some s := by
  unfold Status.ofNat?
  rw [dif_pos s.valid]

theorem ofParts_parts (r : Stored) : ofParts r.parts = .ok r.withoutCookies := by
  unfold parts
  simp only [ofParts, ofNat?_code, checkPairs_map_octets, bind, Except.bind,
    Headers.ofFields_fields]
  rfl

theorem decode_encode_append {r : Stored} (h : r.Fits) (rest : Bytes) :
    decode (r.encode ++ rest) = .ok r.withoutCookies := by
  unfold decode
  rw [read?_encode_append h]
  exact ofParts_parts r

theorem decode_encode {r : Stored} (h : r.Fits) : decode r.encode = .ok r.withoutCookies := by
  simpa only [List.append_nil] using decode_encode_append h []

/-- The headers stand before the body and are read back whether or not it fits. -/
theorem headers_of_decode_encode {r s : Stored} (h : FieldsFit r.withoutCookies.headers)
    (hdecode : decode r.encode = .ok s) : s.headers = r.withoutCookies.headers := by
  have hcode : r.status.code < UInt16.size := Nat.lt_of_le_of_lt r.status.valid.2 (by decide)
  have hsize : r.status.code < UInt64.size := Nat.lt_of_lt_of_le hcode (by decide)
  have hread : ∀ p, Parts.read? r.encode = some p →
      p.headers = r.withoutCookies.headers.fields.map octets := by
    intro p hp
    rw [encode_eq, Parts.read?_writeArray, Option.map_eq_some_iff] at hp
    obtain ⟨⟨p, rest⟩, hp, rfl⟩ := hp
    unfold Parts.inOrder? writeParts at hp
    simp only [Option.bind_eq_bind, MessagePack.integer?_writeUnsigned hcode hsize,
      pairs?_writePairs h, Option.bind_some] at hp
    obtain ⟨body, -, hp⟩ := Option.bind_eq_some_iff.mp hp
    obtain ⟨recorded, -, hp⟩ := Option.bind_eq_some_iff.mp hp
    cases hp
    rfl
  unfold decode at hdecode
  cases hp : Parts.read? r.encode with
  | none =>
    rw [hp] at hdecode
    cases hdecode
  | some p =>
    rw [hp] at hdecode
    simp only [ofParts, hread p hp, checkPairs_map_octets, bind, Except.bind,
      Headers.ofFields_fields] at hdecode
    split at hdecode
    · cases hdecode
    · split at hdecode
      · cases hdecode
      · cases hdecode
        rfl

theorem encode_withoutCookies (r : Stored) : r.withoutCookies.encode = r.encode := by
  have hheaders : r.withoutCookies.withoutCookies.headers = r.withoutCookies.headers :=
    r.headers.erase_erase .setCookie
  unfold encode
  rw [hheaders]
  rfl

/-- The blob of a response is read as the response without its cookies: status, body, recorded
headers, the order of the names and all other values with their order are kept. What was read has
the same blob. -/
theorem decode_encode_drops_cookies (r : Stored) (h : r.Fits) :
    ∃ s, decode r.encode = .ok s ∧ s.status = r.status ∧ s.body = r.body ∧
      s.recorded = r.recorded ∧
      s.headers.names = r.headers.names.filter (· != .setCookie) ∧
      (∀ n, s.headers.values n = if n = .setCookie then [] else r.headers.values n) ∧
      s.encode = r.encode := by
  refine ⟨r.withoutCookies, decode_encode h, rfl, rfl, rfl, ?_, ?_, encode_withoutCookies r⟩
  · exact r.headers.names_erase .setCookie
  · exact r.headers.values_erase .setCookie

/-- Repeated lines, a cookie between them, and a cookie among the recorded headers. -/
theorem decode_encode_drops_cookies_repeated :
    let line (s : String) (h : (Bytes.ofLatin1 s).all isValueByte = true) :=
      (HeaderName.vary, HeaderValue.ofLatin1 s h)
    let cookie := (HeaderName.setCookie, HeaderValue.ofLatin1 "session=1" (by decide))
    let r : Stored := ⟨.ok, .ofFields [line "accept" (by decide), cookie, line "cookie" (by decide)],
      List.replicate 300 7, .ofFields [cookie]⟩
    r.Fits ∧ ∃ s, decode r.encode = .ok s ∧ s.body = r.body ∧ s.recorded = r.recorded ∧
      s.headers.values .vary = r.headers.values .vary ∧ s.headers.values .setCookie = [] ∧
      s.encode = r.encode := by
  intro line cookie r
  have hfits : r.Fits := by decide +kernel
  obtain ⟨s, hdecode, -, hbody, hrecorded, -, hvalues, hencode⟩ :=
    decode_encode_drops_cookies r hfits
  exact ⟨hfits, s, hdecode, hbody, hrecorded, hvalues .vary, hvalues .setCookie, hencode⟩

end Stored

end Cache

end Gateway
