import Gateway.Proofs.Http.Authority
import Gateway.Proofs.Text.Utf8

/-! What a path and a query may be made of, and that it is enough for a URI: every part that is read
is one, and parts can be joined and shortened. -/
namespace Gateway.Http

/-- A text that a URI may have as its path: the octets of a path, in UTF-8. -/
structure IsPath (path : Bytes) : Prop where
  bytes : path.all isPathByte = true
  utf8 : (Text.Utf8.decode? path).isSome = true

structure IsQuery (query : Bytes) : Prop where
  bytes : query.all isQueryByte = true
  utf8 : (Text.Utf8.decode? query).isSome = true

namespace IsPath

variable {as bs : Bytes}

theorem append (has : IsPath as) (hbs : IsPath bs) : IsPath (as ++ bs) where
  bytes := by rw [List.all_append, has.bytes, hbs.bytes]; rfl
  utf8 := Text.Utf8.isSome_decode?_append has.utf8 hbs.utf8

theorem slash : IsPath [47] where
  bytes := by decide
  utf8 := Text.Utf8.isSome_decode?_of_ascii (by simp)

theorem of_append (h : IsPath (as ++ bs)) (hascii : ∀ b ∈ bs.head?, b.toNat < 0x80) :
    IsPath as where
  bytes := by
    have hall := h.bytes
    rw [List.all_append, Bool.and_eq_true] at hall
    exact hall.1
  utf8 := Text.Utf8.isSome_decode?_of_append h.utf8 hascii

end IsPath

theorem IsQuery.join {as bs : Bytes} (has : IsQuery as) (hbs : IsQuery bs) :
    IsQuery (as ++ 38 :: bs) where
  bytes := by
    have hmark : isQueryByte 38 = true := by decide
    rw [List.all_append, List.all_cons, has.bytes, hbs.bytes, hmark]
    rfl
  utf8 := by
    have hmark : (Text.Utf8.decode? [38]).isSome = true :=
      Text.Utf8.isSome_decode?_of_ascii (by simp)
    exact Text.Utf8.isSome_decode?_append has.utf8
      (Text.Utf8.isSome_decode?_append hmark hbs.utf8)

namespace Uri

variable {scheme : Option Scheme} {authority : Option Authority} {path : Bytes}
  {query : Option Bytes} {u : Uri}

structure Consists (u : Uri) (scheme : Option Scheme) (authority : Option Authority) (path : Bytes)
    (query : Option Bytes) : Prop where
  scheme_eq : u.scheme = scheme
  authority_eq : u.authority = authority
  rawPath_eq : u.rawPath = path
  query_eq : u.query = query

theorem ofParts?_eq_some_iff : ofParts? scheme authority path query = some u ↔
    IsPath path ∧ (∀ q ∈ query, IsQuery q) ∧ Consists u scheme authority path query := by
  have hempty : (Text.Utf8.decode? []).isSome = true := by simp [Text.Utf8.decode?]
  unfold ofParts?
  constructor
  · intro h
    split_ifs at h with hpath hquery hutf8
    obtain rfl := Option.some.inj h
    rw [Bool.and_eq_true] at hutf8
    refine ⟨⟨hpath, hutf8.1⟩, ?_, rfl, rfl, rfl, rfl⟩
    rintro q hq
    obtain rfl := Option.mem_def.mp hq
    exact ⟨hquery q hq, hutf8.2⟩
  · rintro ⟨hpath, hquery, hparts⟩
    have hutf8 : (Text.Utf8.decode? path).isSome && (Text.Utf8.decode? (query.getD [])).isSome := by
      rw [Bool.and_eq_true]
      refine ⟨hpath.utf8, ?_⟩
      cases query with
      | none => exact hempty
      | some q => exact (hquery q rfl).utf8
    rw [dif_pos hpath.bytes, dif_pos fun q hq => (hquery q hq).bytes, if_pos hutf8]
    obtain ⟨rfl, rfl, rfl, rfl⟩ := hparts
    rfl

variable (scheme authority) in
theorem exists_ofParts? (hpath : IsPath path) (hquery : ∀ q ∈ query, IsQuery q) :
    ∃ u, ofParts? scheme authority path query = some u := by
  let u : Uri := ⟨scheme, authority, path, query, hpath.bytes, fun q hq => (hquery q hq).bytes⟩
  exact ⟨u, ofParts?_eq_some_iff.mpr ⟨hpath, hquery, rfl, rfl, rfl, rfl⟩⟩

/-- Whatever is read as a URI has a path and a query that can be used again. -/
structure HasParts (u : Uri) : Prop where
  path : IsPath u.rawPath
  query : ∀ q ∈ u.query, IsQuery q

theorem hasParts_of_ofParts? (h : ofParts? scheme authority path query = some u) : u.HasParts := by
  obtain ⟨hpath, hquery, hparts⟩ := ofParts?_eq_some_iff.mp h
  obtain ⟨-, -, rfl, rfl⟩ := hparts
  exact ⟨hpath, hquery⟩

theorem hasParts_of_readPath? {s : Bytes} (h : readPath? scheme authority s = some u) :
    u.HasParts := by
  unfold readPath? at h
  dsimp only at h
  split at h
  · exact hasParts_of_ofParts? h
  · exact hasParts_of_ofParts? h

theorem hasParts_of_parse? {s : Bytes} (h : parse? s = some u) : u.HasParts := by
  unfold parse? at h
  split_ifs at h with hlong hstar hpath
  · exact hasParts_of_ofParts? h
  · exact hasParts_of_readPath? h
  · dsimp only at h
    split at h
    · split_ifs at h with hname
      obtain ⟨a, -, hread⟩ := Option.bind_eq_some_iff.mp h
      exact hasParts_of_readPath? hread
    · obtain ⟨a, -, hread⟩ := Option.bind_eq_some_iff.mp h
      exact hasParts_of_ofParts? hread

/-- The path of a URI: what is written, or the root. -/
theorem HasParts.isPath (h : u.HasParts) : IsPath u.path := by
  unfold Uri.path
  split
  · exact IsPath.slash
  · exact h.path

end Uri

end Gateway.Http
