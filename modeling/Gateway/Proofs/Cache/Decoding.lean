import Gateway.Proofs.Cache.BlobForms
import Gateway.Proofs.Cache.Passage

/-! What a blob is decoded to: nothing when it has no shape, and else the response of its parts or the
first of them that no response may have, the status before the headers and these before the recorded
ones. -/
namespace Gateway.Cache.Stored

open Gateway.Http

/-! ### Valid parts -/

def ValidStatus (n : Nat) : Prop := 100 ≤ n ∧ n ≤ 999

/-- The name is a token, of any case, that is not too long; the value has no control octet but the
tab. -/
structure ValidPair (pair : Bytes × Bytes) : Prop where
  name_ne_nil : pair.1 ≠ []
  name_length : pair.1.length ≤ maxNameLength
  name_token : ∀ b ∈ pair.1, isTokenByte b = true
  value_control : ∀ b ∈ pair.2, b < 32 ∨ b = 127 → b = 9

def FirstInvalid (pairs : List (Bytes × Bytes)) (name : Bytes) : Prop :=
  ∃ before value after, pairs = before ++ (name, value) :: after ∧
    (∀ pair ∈ before, ValidPair pair) ∧ ¬ ValidPair (name, value)

def lowered (pair : Bytes × Bytes) : Bytes × Bytes := (Bytes.lower pair.1, pair.2)

structure Parts.Valid (p : Parts) : Prop where
  status : ValidStatus p.status
  headers : ∀ pair ∈ p.headers, ValidPair pair
  recorded : ∀ pair ∈ p.recorded, ValidPair pair

/-- The response has these parts, with the header lines in the order of the pairs. -/
structure Parts.Gives (p : Parts) (r : Stored) : Prop where
  status : r.status.code = p.status
  headers : ∃ lines, lines.map octets = p.headers.map lowered ∧ r.headers = .ofFields lines
  body : r.body = p.body
  recorded : ∃ lines, lines.map octets = p.recorded.map lowered ∧ r.recorded = .ofFields lines

/-- Why no response has these parts: the status comes before the headers, these before the recorded
ones, and of several pairs the first is named. -/
inductive Parts.Refused (p : Parts) : DecodeError → Prop where
  | status (h : ¬ ValidStatus p.status) : Refused p (.invalidStatus p.status)
  | headers {name : Bytes} (hstatus : ValidStatus p.status) (h : FirstInvalid p.headers name) :
      Refused p (.invalidHeader name)
  | recorded {name : Bytes} (hstatus : ValidStatus p.status)
      (hheaders : ∀ pair ∈ p.headers, ValidPair pair) (h : FirstInvalid p.recorded name) :
      Refused p (.invalidHeader name)

theorem validPair_iff {pair : Bytes × Bytes} : ValidPair pair ↔
    (HeaderName.ofBytes? pair.1).isSome = true ∧ (HeaderValue.ofBytes? pair.2).isSome = true := by
  rw [HeaderName.isSome_ofBytes?_iff, HeaderValue.isSome_ofBytes?_iff]
  exact ⟨fun ⟨hne, hlength, htoken, hcontrol⟩ => ⟨⟨hne, hlength, htoken⟩, hcontrol⟩,
    fun ⟨⟨hne, hlength, htoken⟩, hcontrol⟩ => ⟨hne, hlength, htoken, hcontrol⟩⟩

instance (pair : Bytes × Bytes) : Decidable (ValidPair pair) := decidable_of_iff _ validPair_iff.symm

/-! ### Checking pairs -/

theorem checkPairs_cons_of_valid {pair : Bytes × Bytes} (h : ValidPair pair)
    (pairs : List (Bytes × Bytes)) :
    ∃ line, octets line = lowered pair ∧
      checkPairs (pair :: pairs) = (checkPairs pairs).map (line :: ·) := by
  obtain ⟨hname, hvalue⟩ := validPair_iff.mp h
  obtain ⟨n, hn⟩ := Option.isSome_iff_exists.mp hname
  obtain ⟨v, hv⟩ := Option.isSome_iff_exists.mp hvalue
  refine ⟨(n, v), ?_, ?_⟩
  · exact Prod.ext (HeaderName.ofBytes?_eq_some_iff.mp hn).symm
      (HeaderValue.eq_of_ofBytes?_eq_some hv)
  · simp only [checkPairs, hn, hv]

theorem checkPairs_of_valid {pairs : List (Bytes × Bytes)} (h : ∀ pair ∈ pairs, ValidPair pair) :
    ∃ lines, lines.map octets = pairs.map lowered ∧ checkPairs pairs = .ok lines := by
  induction pairs with
  | nil => exact ⟨[], rfl, rfl⟩
  | cons pair pairs ih =>
    obtain ⟨hpair, hpairs⟩ := List.forall_mem_cons.mp h
    obtain ⟨lines, hlines, hcheck⟩ := ih hpairs
    obtain ⟨line, hline, hcons⟩ := checkPairs_cons_of_valid hpair pairs
    refine ⟨line :: lines, by rw [List.map_cons, List.map_cons, hline, hlines], ?_⟩
    rw [hcons, hcheck]
    rfl

theorem checkPairs_of_firstInvalid {pairs : List (Bytes × Bytes)} {name : Bytes}
    (h : FirstInvalid pairs name) : checkPairs pairs = .error (.invalidHeader name) := by
  obtain ⟨before, value, after, rfl, hbefore, hinvalid⟩ := h
  induction before with
  | nil =>
    rw [validPair_iff, not_and_or] at hinvalid
    simp only [List.nil_append, checkPairs]
    split
    · rename_i n v hn hv
      simp [hn, hv] at hinvalid
    · rfl
  | cons pair before ih =>
    obtain ⟨hpair, hpairs⟩ := List.forall_mem_cons.mp hbefore
    obtain ⟨line, -, hcons⟩ := checkPairs_cons_of_valid hpair (before ++ (name, value) :: after)
    rw [List.cons_append, hcons, ih hpairs]
    rfl

/-- Pairs that are not all valid have a first one that is not. -/
theorem exists_firstInvalid {pairs : List (Bytes × Bytes)} (h : ¬ ∀ pair ∈ pairs, ValidPair pair) :
    ∃ name, FirstInvalid pairs name := by
  induction pairs with
  | nil => simp at h
  | cons pair pairs ih =>
    by_cases hpair : ValidPair pair
    · have hothers : ¬ ∀ pair ∈ pairs, ValidPair pair := fun hall =>
        h (List.forall_mem_cons.mpr ⟨hpair, hall⟩)
      obtain ⟨name, before, value, after, rfl, hbefore, hinvalid⟩ := ih hothers
      exact ⟨name, pair :: before, value, after, rfl, List.forall_mem_cons.mpr ⟨hpair, hbefore⟩,
        hinvalid⟩
    · exact ⟨pair.1, [], pair.2, pairs, rfl, by simp, hpair⟩

/-! ### Checking parts -/

theorem ofNat?_of_validStatus {n : Nat} (h : ValidStatus n) : Status.ofNat? n = some ⟨n, h⟩ :=
  dif_pos h

theorem ofParts_of_refused {p : Parts} {e : DecodeError} (h : p.Refused e) :
    ofParts p = .error e := by
  unfold ofParts
  cases h with
  | status hstatus =>
    have hnone : Status.ofNat? p.status = none := dif_neg hstatus
    rw [hnone]
  | headers hstatus hfirst =>
    rw [ofNat?_of_validStatus hstatus, checkPairs_of_firstInvalid hfirst]
    rfl
  | recorded hstatus hheaders hfirst =>
    obtain ⟨lines, -, hcheck⟩ := checkPairs_of_valid hheaders
    rw [ofNat?_of_validStatus hstatus, hcheck, checkPairs_of_firstInvalid hfirst]
    rfl

theorem ofParts_of_valid {p : Parts} (h : p.Valid) : ∃ r, p.Gives r ∧ ofParts p = .ok r := by
  obtain ⟨headers, hheaders, hcheckHeaders⟩ := checkPairs_of_valid h.headers
  obtain ⟨recorded, hrecorded, hcheckRecorded⟩ := checkPairs_of_valid h.recorded
  refine ⟨⟨⟨p.status, h.status⟩, .ofFields headers, p.body, .ofFields recorded⟩,
    ⟨rfl, ⟨headers, hheaders, rfl⟩, rfl, ⟨recorded, hrecorded, rfl⟩⟩, ?_⟩
  unfold ofParts
  rw [ofNat?_of_validStatus h.status, hcheckHeaders, hcheckRecorded]
  rfl

theorem exists_refused {p : Parts} (h : ¬ p.Valid) : ∃ e, p.Refused e := by
  by_cases hstatus : ValidStatus p.status
  · by_cases hheaders : ∀ pair ∈ p.headers, ValidPair pair
    · obtain ⟨name, hname⟩ := exists_firstInvalid fun hrecorded => h ⟨hstatus, hheaders, hrecorded⟩
      exact ⟨_, .recorded hstatus hheaders hname⟩
    · obtain ⟨name, hname⟩ := exists_firstInvalid hheaders
      exact ⟨_, .headers hstatus hname⟩
  · exact ⟨_, .status hstatus⟩

theorem octets_injective : Function.Injective octets := by
  intro f g h
  obtain ⟨hname, hvalue⟩ := Prod.mk.inj h
  obtain ⟨⟨_, _⟩, ⟨_, _⟩⟩ := f
  obtain ⟨⟨_, _⟩, ⟨_, _⟩⟩ := g
  subst hname hvalue
  rfl

theorem Parts.Gives.unique {p : Parts} {r s : Stored} (hr : p.Gives r) (hs : p.Gives s) : r = s := by
  have hlines {lines others : List (HeaderName × HeaderValue)} {pairs : List (Bytes × Bytes)}
      (h : lines.map octets = pairs) (h' : others.map octets = pairs) : lines = others :=
    List.map_injective_iff.mpr octets_injective (h.trans h'.symm)
  obtain ⟨⟨code, _⟩, headers, body, recorded⟩ := r
  obtain ⟨⟨code', _⟩, headers', body', recorded'⟩ := s
  obtain ⟨rfl, ⟨lines, h, rfl⟩, rfl, ⟨seen, hseen, rfl⟩⟩ := hr
  obtain ⟨hcode, ⟨_, h', rfl⟩, hbody, ⟨_, hseen', rfl⟩⟩ := hs
  obtain rfl := hlines h h'
  obtain rfl := hlines hseen hseen'
  cases hcode
  cases hbody
  rfl

theorem ofParts_eq_ok_iff {p : Parts} {r : Stored} : ofParts p = .ok r ↔ p.Valid ∧ p.Gives r := by
  constructor
  · intro h
    have hvalid : p.Valid := by
      by_contra hinvalid
      obtain ⟨e, he⟩ := exists_refused hinvalid
      cases h.symm.trans (ofParts_of_refused he)
    obtain ⟨s, hgives, hs⟩ := ofParts_of_valid hvalid
    obtain rfl : s = r := Except.ok.inj (hs.symm.trans h)
    exact ⟨hvalid, hgives⟩
  · rintro ⟨hvalid, hgives⟩
    obtain ⟨s, hgives', hs⟩ := ofParts_of_valid hvalid
    rw [hs, hgives'.unique hgives]

theorem ofParts_eq_error_iff {p : Parts} {e : DecodeError} :
    ofParts p = .error e ↔ p.Refused e := by
  refine ⟨fun h => ?_, ofParts_of_refused⟩
  have hinvalid : ¬ p.Valid := by
    intro hvalid
    obtain ⟨r, -, hr⟩ := ofParts_of_valid hvalid
    cases h.symm.trans hr
  obtain ⟨e', he'⟩ := exists_refused hinvalid
  obtain rfl : e' = e := Except.error.inj ((ofParts_of_refused he').symm.trans h)
  exact he'

theorem decode_of_shapeOf {p : Parts} {blob : Bytes} (h : p.ShapeOf blob) :
    decode blob = ofParts p := by
  unfold decode
  rw [Parts.read?_eq_some_iff.mpr h]

theorem decode_eq_malformed_iff {blob : Bytes} :
    decode blob = .error .malformed ↔ ∀ p : Parts, ¬ p.ShapeOf blob := by
  constructor
  · intro h p hp
    rw [decode_of_shapeOf hp, ofParts_eq_error_iff] at h
    cases h
  · intro h
    have hnone : Parts.read? blob = none :=
      Option.eq_none_iff_forall_ne_some.mpr fun p hp => h p (Parts.read?_eq_some_iff.mp hp)
    unfold decode
    rw [hnone]

/-! ### Responses that were decoded -/

theorem validPair_octets (f : HeaderName × HeaderValue) : ValidPair (octets f) := by
  have hname := f.1.ofBytes?_bytes
  have hvalue := f.2.ofBytes?_bytes
  exact validPair_iff.mpr ⟨Option.isSome_of_eq_some hname, Option.isSome_of_eq_some hvalue⟩

theorem fieldsFit_ofFields {pairs : List (Bytes × Bytes)} (h : PairsFit pairs)
    {lines : List (HeaderName × HeaderValue)} (hlines : lines.map octets = pairs.map lowered) :
    FieldsFit (.ofFields lines) := by
  have hperm := Headers.perm_fields_ofFields lines
  have hcount : lines.length = pairs.length := by
    simpa only [List.length_map] using congrArg List.length hlines
  refine ⟨by rw [hperm.length_eq, hcount]; exact h.1, fun f hf => ?_⟩
  have hmem : octets f ∈ pairs.map lowered := hlines ▸ List.mem_map_of_mem (hperm.mem_iff.mp hf)
  obtain ⟨pair, hpair, heq⟩ := List.mem_map.mp hmem
  have hvalue : pair.2 = f.2.bytes := congrArg Prod.snd heq
  exact hvalue ▸ h.2 pair hpair

theorem FieldsFit.erase {h : Headers} (hfit : FieldsFit h) (n : HeaderName) :
    FieldsFit (h.erase n) := by
  have hlines := h.sublist_fields_erase n
  exact ⟨Nat.lt_of_le_of_lt hlines.length_le hfit.count,
    fun f hf => hfit.value f (hlines.subset hf)⟩

theorem Parts.Gives.fits {p : Parts} {r : Stored} {blob : Bytes} (h : p.Gives r)
    (hshape : p.ShapeOf blob) : r.Fits := by
  obtain ⟨hheaders, hbody, hrecorded⟩ := hshape.fits
  obtain ⟨lines, hlines, heq⟩ := h.headers
  obtain ⟨seen, hseen, heqSeen⟩ := h.recorded
  refine ⟨FieldsFit.erase ?_ .setCookie, h.body ▸ hbody, ?_⟩
  · rw [heq]
    exact fieldsFit_ofFields hheaders hlines
  · rw [heqSeen]
    exact fieldsFit_ofFields hrecorded hseen

/-- A response that is replayed has its own status and body, or status 304 and none, and its own
headers but for `X-Cache`. -/
theorem replay_cases (r : Stored) (request : Headers) :
    ((r.replay request).1.status = r.status ∧ (r.replay request).2 = r.body ∨
      (r.replay request).1.status = .notModified ∧ (r.replay request).2 = []) ∧
    ∀ n, (r.replay request).1.headers.values n =
      if n = .xCache then [hitMark] else r.headers.values n := by
  refine ⟨?_, ResponseCache.values_replay r request⟩
  unfold replay
  split_ifs
  · exact .inr ⟨rfl, rfl⟩
  · exact .inl ⟨rfl, rfl⟩

/-- A blob without a shape is malformed. With a shape, whichever forms its values have, it is decoded
exactly when all its parts are valid, and then as the response of these; else the error is that of the
first part that is not valid. What is decoded has a valid status, names in lower case and no control
octets in its values, so it can be replayed to every request, and written to a blob that is read as
this response without its cookies. -/
theorem decode_iff_valid_parts (blob : Bytes) :
    (decode blob = .error .malformed ↔ ∀ p : Parts, ¬ p.ShapeOf blob) ∧
    (∀ p : Parts, p.ShapeOf blob →
      ((∃ r, decode blob = .ok r) ↔ p.Valid) ∧
      (∀ r, decode blob = .ok r → p.Gives r) ∧
      ∀ e, decode blob = .error e ↔ p.Refused e) ∧
    ∀ r, decode blob = .ok r →
      ValidStatus r.status.code ∧
      (∀ f ∈ r.headers.fields ++ r.recorded.fields,
        ValidPair (octets f) ∧ ∀ b ∈ f.1.bytes, Bytes.isUpper b = false) ∧
      (∀ request : Headers,
        ((r.replay request).1.status = r.status ∧ (r.replay request).2 = r.body ∨
          (r.replay request).1.status = .notModified ∧ (r.replay request).2 = []) ∧
        ∀ n, (r.replay request).1.headers.values n =
          if n = .xCache then [hitMark] else r.headers.values n) ∧
      r.Fits ∧ decode r.encode = .ok r.withoutCookies := by
  refine ⟨decode_eq_malformed_iff, fun p hp => ?_, fun r hr => ?_⟩
  · rw [decode_of_shapeOf hp]
    refine ⟨⟨?_, fun hvalid => ?_⟩, fun r hr => ?_, fun e => ofParts_eq_error_iff⟩
    · rintro ⟨r, hr⟩
      exact (ofParts_eq_ok_iff.mp hr).1
    · obtain ⟨r, -, hr⟩ := ofParts_of_valid hvalid
      exact ⟨r, hr⟩
    · exact (ofParts_eq_ok_iff.mp hr).2
  · have hshape : ∃ p : Parts, p.ShapeOf blob := by
      by_contra hnone
      push Not at hnone
      cases hr.symm.trans (decode_eq_malformed_iff.mpr hnone)
    obtain ⟨p, hp⟩ := hshape
    rw [decode_of_shapeOf hp] at hr
    have hfits : r.Fits := (ofParts_eq_ok_iff.mp hr).2.fits hp
    exact ⟨r.status.valid, fun f _ => ⟨validPair_octets f, fun b hb => (f.1.byte_valid hb).2⟩,
      replay_cases r, hfits, decode_encode hfits⟩

deriving instance DecidableEq for Parts

/-- A map with an unknown field and its parts out of order, in wider forms than they need, and then
two blobs with several defects: a bad status counts first, and of bad pairs the first. -/
theorem decode_iff_valid_parts_of_reordered_map :
    let text (s : String) := Bytes.ofLatin1 s
    let blob := [0xDE, 0, 5, 0xA4] ++ text "body" ++ [0x92, 0xCC, 7, 0xD0, 8] ++
      [0xA1, 120, 0x91, 0x81, 1, 0xCB, 0, 0, 0, 0, 0, 0, 0, 0] ++
      [0xCD, 0, 0, 0xD2, 0, 0, 0, 200] ++
      [0xC4, 7] ++ text "headers" ++ [0xDD, 0, 0, 0, 1, 0x92, 0xC5, 0, 4] ++ text "Vary" ++
      [0xD9, 6] ++ text "accept" ++ [3, 0x90, 0xFF]
    let p : Parts := ⟨200, [(text "Vary", text "accept")], [7, 8], []⟩
    let bad := [0x94, 0xCD, 3, 0xE8, 0x91, 0x92, 0xA1, 32, 0xA0, 0xC4, 0, 0x90]
    let q : Parts := ⟨1000, [([32], [])], [], []⟩
    let listed := [0x94, 0xCC, 200, 0x93, 0x92, 0xA1, 97, 0xA1, 9, 0x92, 0xA1, 98, 0xA1, 10,
      0x92, 0xA0, 0xA0, 0xA0, 0x91, 0x92, 0xA0, 0xA0]
    let s : Parts := ⟨200, [([97], [9]), ([98], [10]), ([], [])], [], [([], [])]⟩
    p.ShapeOf blob ∧ p.Valid ∧
      (∃ r, decode blob = .ok r ∧ p.Gives r ∧ r.Fits ∧ decode r.encode = .ok r.withoutCookies) ∧
      q.ShapeOf bad ∧ decode bad = .error (.invalidStatus 1000) ∧
      s.ShapeOf listed ∧ decode listed = .error (.invalidHeader [98]) := by
  intro text blob p bad q listed s
  have hp : p.ShapeOf blob := Parts.read?_eq_some_iff.mp (by decide +kernel)
  have hq : q.ShapeOf bad := Parts.read?_eq_some_iff.mp (by decide +kernel)
  have hs : s.ShapeOf listed := Parts.read?_eq_some_iff.mp (by decide +kernel)
  have hvalid : p.Valid := ⟨⟨by decide, by decide⟩, by decide +kernel, by decide⟩
  obtain ⟨-, hshaped, hdecoded⟩ := decode_iff_valid_parts blob
  obtain ⟨hiff, hgives, -⟩ := hshaped p hp
  obtain ⟨r, hr⟩ := hiff.mpr hvalid
  obtain ⟨-, -, -, hfits, hagain⟩ := hdecoded r hr
  have hstatus : q.Refused (.invalidStatus 1000) := .status fun h => absurd h.2 (by decide)
  have hfirst : FirstInvalid s.headers [98] :=
    ⟨[([97], [9])], [10], [([], [])], rfl, by decide +kernel, by decide +kernel⟩
  have hheader : s.Refused (.invalidHeader [98]) := .headers ⟨by decide, by decide⟩ hfirst
  exact ⟨hp, hvalid, ⟨r, hr, hgives r hr, hfits, hagain⟩, hq,
    (((decode_iff_valid_parts bad).2.1 q hq).2.2 _).mpr hstatus, hs,
    (((decode_iff_valid_parts listed).2.1 s hs).2.2 _).mpr hheader⟩

end Gateway.Cache.Stored
