import Gateway.Proofs.Cache.Partition
import Gateway.Proofs.Query.Canonical

/-! Which queries share a canonical spelling although their octets differ: names and values are read
as text in between, so those that are not UTF-8 may be merged with others, and no others are. -/
namespace Gateway

open Text.Utf8

namespace Query

variable {ps qs : List (Bytes × Bytes)}

/-- The parameters of a query as they are on the wire, in octets. -/
def wireParams : Option Bytes → List (Bytes × Bytes)
  | none => []
  | some query => octetPairs query

def wireValuesOf (name : Bytes) (ps : List (Bytes × Bytes)) : List Bytes :=
  (ps.filter (·.1 = name)).map (·.2)

def IsText (ps : List (Bytes × Bytes)) : Prop :=
  ∀ p ∈ ps, (decode? p.1).isSome = true ∧ (decode? p.2).isSome = true

/-- No name and no value has the mark of octets that are not UTF-8. -/
def Unmarked (ps : List Param) : Prop := ∀ p ∈ ps, replacement ∉ p.1 ∧ replacement ∉ p.2

theorem params_eq (query : Option Bytes) : params query = (wireParams query).map paramOf := by
  cases query <;> rfl

theorem isText_of_unmarked (h : Unmarked (ps.map paramOf)) : IsText ps := by
  intro p hp
  obtain ⟨hname, hvalue⟩ := h (paramOf p) (List.mem_map_of_mem hp)
  exact ⟨isSome_decode?_of_unmarked hname, isSome_decode?_of_unmarked hvalue⟩

theorem mem_iff_mem_valuesOf {p : Param} {ps : List Param} : p ∈ ps ↔ p.2 ∈ valuesOf p.1 ps := by
  unfold valuesOf
  rw [List.mem_map]
  constructor
  · intro hp
    exact ⟨p, List.mem_filter.mpr ⟨hp, decide_eq_true rfl⟩, rfl⟩
  · rintro ⟨q, hq, hvalue⟩
    obtain ⟨hmem, hname⟩ := List.mem_filter.mp hq
    have heq : q = p := Prod.ext (of_decide_eq_true hname) hvalue
    exact heq ▸ hmem

/-- What is the same for each name has the same marks. -/
theorem unmarked_of_valuesOf_eq {ps qs : List Param} (hps : Unmarked ps)
    (h : ∀ name, valuesOf name ps = valuesOf name qs) : Unmarked qs := by
  intro q hq
  have hvalue : q.2 ∈ valuesOf q.1 ps := by
    rw [h]
    exact mem_iff_mem_valuesOf.mp hq
  exact hps q (mem_iff_mem_valuesOf.mpr hvalue)

/-- Of parameters in UTF-8 the text tells the octets. -/
theorem wireValuesOf_of_isText (hps : IsText ps) {name : Bytes}
    (hname : (decode? name).isSome = true) :
    wireValuesOf name ps = (valuesOf (decodeLossy name) (ps.map paramOf)).map encodeChars := by
  have hfilter : ∀ p ∈ ps, decide (p.1 = name) = decide ((paramOf p).1 = decodeLossy name) := by
    intro p hp
    rw [decide_eq_decide]
    refine ⟨congrArg decodeLossy, fun heq => ?_⟩
    rw [← encodeChars_decodeLossy hname, ← encodeChars_decodeLossy (hps p hp).1]
    exact congrArg encodeChars heq
  have hvalue : ∀ p ∈ ps.filter (·.1 = name), p.2 = encodeChars (paramOf p).2 := by
    intro p hp
    exact (encodeChars_decodeLossy (hps p (List.mem_filter.mp hp).1).2).symm
  unfold wireValuesOf valuesOf
  rw [List.map_congr_left hvalue, List.filter_map, List.map_map, List.map_map,
    List.filter_congr hfilter]
  rfl

theorem name_of_mem_wireValuesOf (hps : IsText ps) {name value : Bytes}
    (h : value ∈ wireValuesOf name ps) : (decode? name).isSome = true := by
  obtain ⟨p, hp, -⟩ := List.mem_map.mp h
  obtain ⟨hmem, hname⟩ := List.mem_filter.mp hp
  exact of_decide_eq_true hname ▸ (hps p hmem).1

theorem wireValuesOf_eq_of_isText (hps : IsText ps) (hqs : IsText qs)
    (h : ∀ name, valuesOf name (ps.map paramOf) = valuesOf name (qs.map paramOf)) (name : Bytes) :
    wireValuesOf name ps = wireValuesOf name qs := by
  by_cases hname : (decode? name).isSome = true
  · rw [wireValuesOf_of_isText hps hname, wireValuesOf_of_isText hqs hname, h]
  · have hnone {rs : List (Bytes × Bytes)} (hrs : IsText rs) : wireValuesOf name rs = [] := by
      refine List.eq_nil_iff_forall_not_mem.mpr fun value hvalue => hname ?_
      exact name_of_mem_wireValuesOf hrs hvalue
    rw [hnone hps, hnone hqs]

end Query

namespace Cache.Variant

open Gateway.Http Gateway.Query

/-- Requests whose queries differ on the wire, in the values of some name, do not share a stored
response: their canonical queries differ, and whatever names are put to them their keys are hashes
of different octets. -/
def ToldApart (p q : RequestHead) : Prop :=
  (∃ name, wireValuesOf name (wireParams p.uri.query) ≠ wireValuesOf name (wireParams q.uri.query)) →
    Query.canonical p.uri.query ≠ Query.canonical q.uri.query ∧
      ∀ ns ms, ((ofRequest p).withNames ns).hashInput ≠ ((ofRequest q).withNames ms).hashInput

/-- Requests are told apart exactly when their queries do not differ on the wire, or the text of
some name's values differs too. So they are whenever both queries are UTF-8, and whenever the text
of one of them has no mark of octets that are not. -/
theorem toldApart_iff (p q : RequestHead) :
    let ps := wireParams p.uri.query
    let qs := wireParams q.uri.query
    (ToldApart p q ↔ (∀ name, wireValuesOf name ps = wireValuesOf name qs) ∨
      ∃ name, valuesOf name (params p.uri.query) ≠ valuesOf name (params q.uri.query)) ∧
    (IsText ps → IsText qs → ToldApart p q) ∧
    (Unmarked (params p.uri.query) → ToldApart p q) := by
  intro ps qs
  have hiff : ToldApart p q ↔ (∀ name, wireValuesOf name ps = wireValuesOf name qs) ∨
      ∃ name, valuesOf name (params p.uri.query) ≠ valuesOf name (params q.uri.query) := by
    constructor
    · intro hapart
      by_cases hsame : ∀ name, wireValuesOf name ps = wireValuesOf name qs
      · exact .inl hsame
      · push Not at hsame
        have hcanonical := (hapart hsame).1
        rw [Ne, canonical_eq_iff] at hcanonical
        push Not at hcanonical
        exact .inr hcanonical
    · rintro (hsame | ⟨name, hne⟩) ⟨wireName, hdiffers⟩
      · exact absurd (hsame wireName) hdiffers
      · have hcanonical : Query.canonical p.uri.query ≠ Query.canonical q.uri.query :=
          fun heq => hne (canonical_eq_iff.mp heq name)
        refine ⟨hcanonical, fun ns ms heq => hcanonical ?_⟩
        exact ((hashInput_ofRequest_eq_iff p q ns ms).mp heq).2.2.1
  have htext (hps : IsText ps) (hqs : IsText qs) : ToldApart p q := by
    rw [hiff]
    by_cases hsame : ∀ name, valuesOf name (params p.uri.query) = valuesOf name (params q.uri.query)
    · rw [params_eq, params_eq] at hsame
      exact .inl (wireValuesOf_eq_of_isText hps hqs hsame)
    · push Not at hsame
      exact .inr hsame
  refine ⟨hiff, htext, fun hunmarked => ?_⟩
  by_cases hsame : ∀ name, valuesOf name (params p.uri.query) = valuesOf name (params q.uri.query)
  · have hother := unmarked_of_valuesOf_eq hunmarked hsame
    rw [params_eq] at hunmarked hother
    exact htext (isText_of_unmarked hunmarked) (isText_of_unmarked hother)
  · push Not at hsame
    exact hiff.mpr (.inr hsame)

def queryRequest (query : Bytes) (h : ∀ q ∈ some query, q.all isQueryByte = true) : RequestHead :=
  { cookieRequest [] with uri := { (cookieRequest []).uri with query := some query, query_valid := h } }

/-- Accented letters, and the same octets cut off with a second name that differs. -/
theorem toldApart_of_accented_letters :
    let p := queryRequest (.ofLatin1 "a=%C3%A9") (by decide)
    let q := queryRequest (.ofLatin1 "a=%c3%a8") (by decide)
    let cut := queryRequest (.ofLatin1 "a=%C3&b=1") (by decide)
    let other := queryRequest (.ofLatin1 "a=%C4&b=2") (by decide)
    wireValuesOf [97] (wireParams p.uri.query) = [[0xC3, 0xA9]] ∧
      wireValuesOf [97] (wireParams q.uri.query) = [[0xC3, 0xA8]] ∧
      IsText (wireParams p.uri.query) ∧ IsText (wireParams q.uri.query) ∧
      Unmarked (params p.uri.query) ∧ ToldApart p q ∧
      ¬ IsText (wireParams cut.uri.query) ∧ ToldApart cut other := by
  intro p q cut other
  have hp : IsText (wireParams p.uri.query) := by
    unfold IsText
    decide +kernel
  have hq : IsText (wireParams q.uri.query) := by
    unfold IsText
    decide +kernel
  have hunmarked : Unmarked (params p.uri.query) := by
    unfold Unmarked
    decide +kernel
  have hcut : ¬ IsText (wireParams cut.uri.query) := by
    unfold IsText
    decide +kernel
  have hnumber : valuesOf ['b'] (params cut.uri.query) ≠ valuesOf ['b'] (params other.uri.query) := by
    decide +kernel
  exact ⟨by decide +kernel, by decide +kernel, hp, hq, hunmarked, (toldApart_iff p q).2.1 hp hq, hcut,
    (toldApart_iff cut other).1.mpr (.inr ⟨['b'], hnumber⟩)⟩

/-- Octets that cannot begin a character are all read as the same mark: two queries with one such
octet each have one canonical spelling, and the requests one key. -/
theorem not_toldApart_of_ill_formed_value :
    let p := queryRequest (.ofLatin1 "a=%FF") (by decide)
    let q := queryRequest (.ofLatin1 "a=%FE") (by decide)
    wireValuesOf [97] (wireParams p.uri.query) = [[0xFF]] ∧
      wireValuesOf [97] (wireParams q.uri.query) = [[0xFE]] ∧
      Query.canonical p.uri.query = .ofLatin1 "a=%EF%BF%BD" ∧
      Query.canonical q.uri.query = .ofLatin1 "a=%EF%BF%BD" ∧
      (∀ names, ((ofRequest p).withNames names).key = ((ofRequest q).withNames names).key) ∧
      ¬ ToldApart p q := by
  intro p q
  have hp : wireValuesOf [97] (wireParams p.uri.query) = [[0xFF]] := by decide +kernel
  have hq : wireValuesOf [97] (wireParams q.uri.query) = [[0xFE]] := by decide +kernel
  have hwritten : write [(['a'], [replacement])] = Bytes.ofLatin1 "a=%EF%BF%BD" := by decide +kernel
  have hread : params p.uri.query = [(['a'], [replacement])] := by decide +kernel
  have hreadOther : params q.uri.query = [(['a'], [replacement])] := by decide +kernel
  have hspelled : Query.canonical p.uri.query = .ofLatin1 "a=%EF%BF%BD" := by
    rw [canonical_eq, hread, List.mergeSort_singleton, hwritten]
  have hother : Query.canonical q.uri.query = .ofLatin1 "a=%EF%BF%BD" := by
    rw [canonical_eq, hreadOther, List.mergeSort_singleton, hwritten]
  have hcanonical := hspelled.trans hother.symm
  refine ⟨hp, hq, hspelled, hother, fun names => ?_, fun hapart => (hapart ⟨[97], ?_⟩).1 hcanonical⟩
  · have hinput : ((ofRequest p).withNames names).hashInput =
        ((ofRequest q).withNames names).hashInput :=
      (hashInput_ofRequest_eq_iff p q names names).mpr
        ⟨rfl, rfl, hcanonical, rfl, rfl, fun _ _ => rfl⟩
    unfold key
    rw [hinput]
  · rw [hp, hq]
    decide

end Cache.Variant

end Gateway
