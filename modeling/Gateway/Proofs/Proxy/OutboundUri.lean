import Gateway.Proofs.Proxy.TargetParts

/-! The URI that a request is sent on with: the target's scheme and authority, both paths and both
queries. Paths and queries can be joined whatever they are, so only their length can be too much. -/
namespace Gateway.Proxy.Target
open Http

/-- The first path without the slashes at its end, then the second one, after a slash. -/
def joinedPath (base path : Bytes) : Bytes :=
  base.rdropWhile (· == 47) ++ (if path.head? = some 47 then path else 47 :: path)

/-- The queries in which there is something, with ampersands between them. -/
def joinedQuery (queries : List (Option Bytes)) : Option Bytes :=
  match queries.filterMap (·.filter (!·.isEmpty)) with
  | [] => none
  | q :: qs => some ([38].intercalate (q :: qs))

variable {t : Target} {base inbound : Uri}

theorem Denotes.outboundPath_eq (h : Denotes base t) (path : Bytes) :
    t.outboundPath path = joinedPath base.path path := by
  unfold outboundPath joinedPath
  rw [h.basePath]
  by_cases hslash : path.head? = some 47
  · rw [if_pos (beq_iff_eq.mpr hslash), if_pos hslash]
  · rw [if_neg (beq_iff_eq.not.mpr hslash), if_neg hslash]

theorem Denotes.outboundQuery_eq (h : Denotes base t) (query : Option Bytes) :
    t.outboundQuery query = joinedQuery [base.query, query] := by
  unfold outboundQuery joinedQuery
  rw [h.baseQuery]
  cases hb : base.query.filter (!·.isEmpty) with
  | none =>
    cases hq : query.filter (!·.isEmpty) with
    | none => simp [hb, hq]
    | some q => simp [hb, hq]
  | some b =>
    cases hq : query.filter (!·.isEmpty) with
    | none => simp [hb, hq]
    | some q => simp [hb, hq, List.intercalate]

theorem isPath_joinedPath {base path : Bytes} (hbase : IsPath base) (hpath : IsPath path) :
    IsPath (joinedPath base path) := by
  have hkept : IsPath (base.rdropWhile (· == 47)) := by
    rw [← List.rdropWhile_append_rtakeWhile (p := (· == 47)) (l := base)] at hbase
    apply hbase.of_append
    intro b hb
    have hslash := List.mem_rtakeWhile_imp (List.mem_of_mem_head? hb)
    rw [beq_iff_eq.mp hslash]
    decide
  unfold joinedPath
  split
  · exact hkept.append hpath
  · exact hkept.append (IsPath.slash.append hpath)

theorem isQuery_joinedQuery {base query : Option Bytes} (hbase : ∀ q ∈ base, IsQuery q)
    (hquery : ∀ q ∈ query, IsQuery q) : ∀ q ∈ joinedQuery [base, query], IsQuery q := by
  have hpresent {q : Option Bytes} (hq : ∀ r ∈ q, IsQuery r) :
      ∀ r ∈ q.filter (!·.isEmpty), IsQuery r :=
    fun r hr => hq r (Option.filter_eq_some_iff.mp hr).1
  have hbase := hpresent hbase
  have hquery := hpresent hquery
  unfold joinedQuery
  intro q hq
  cases hb : base.filter (!·.isEmpty) with
  | none =>
    cases hr : query.filter (!·.isEmpty) with
    | none => simp [hb, hr] at hq
    | some r =>
      obtain rfl : r = q := by simpa [hb, hr] using hq
      exact hquery r hr
  | some b =>
    cases hr : query.filter (!·.isEmpty) with
    | none =>
      obtain rfl : b = q := by simpa [hb, hr] using hq
      exact hbase b hb
    | some r =>
      obtain rfl : b ++ 38 :: r = q := by simpa [hb, hr, List.intercalate] using hq
      exact (hbase b hb).join (hquery r hr)

/-- Only the length of the joined path and query can keep a request from being sent on; its URI has
the target's scheme and authority, whatever the request names. -/
theorem locate?_spec {url : String} {s : Bytes} (htarget : parse url = .ok t)
    (hinbound : Uri.parse? s = some inbound) :
    ∃ base, Uri.parse? (Text.Utf8.encode url) = some base ∧ base.scheme = some t.scheme ∧
      base.authority = some t.authority ∧
      let path := joinedPath base.path inbound.path
      let query := joinedQuery [base.query, inbound.query]
      (t.locate? inbound = none ↔ Uri.maxLength < (path ++ querySuffix query).length) ∧
      ∀ u, t.locate? inbound = some u →
        u.scheme = base.scheme ∧ u.authority = base.authority ∧ u.path = path ∧
          u.query = query := by
  obtain ⟨base, hbase, hdenotes⟩ := parse_eq_ok_iff.mp htarget
  have hparts := Uri.hasParts_of_parse? hbase
  have hfrom := Uri.hasParts_of_parse? hinbound
  have hpath := isPath_joinedPath hparts.isPath hfrom.isPath
  have hquery := isQuery_joinedQuery hparts.query hfrom.query
  have hne : joinedPath base.path inbound.path ≠ [] := by
    unfold joinedPath
    split
    · rename_i hslash
      obtain ⟨rest, hrest⟩ := List.head?_eq_some_iff.mp hslash
      rw [hrest]
      exact List.append_ne_nil_of_right_ne_nil _ (List.cons_ne_nil _ _)
    · exact List.append_ne_nil_of_right_ne_nil _ (List.cons_ne_nil _ _)
  refine ⟨base, hbase, hdenotes.scheme, hdenotes.authority, ?_⟩
  dsimp only
  unfold locate?
  dsimp only
  rw [hdenotes.outboundPath_eq, hdenotes.outboundQuery_eq]
  generalize joinedPath base.path inbound.path = path at hpath hne ⊢
  generalize joinedQuery [base.query, inbound.query] = query at hquery ⊢
  constructor
  · split
    · rename_i hlong
      exact iff_of_true rfl hlong
    · rename_i hshort
      obtain ⟨u, hu⟩ := Uri.exists_ofParts? (some t.scheme) (some t.authority) hpath hquery
      rw [hu]
      exact iff_of_false nofun hshort
  · intro u hu
    split at hu
    · cases hu
    · obtain ⟨-, -, hscheme, hauthority, hraw, hsame⟩ := Uri.ofParts?_eq_some_iff.mp hu
      refine ⟨hscheme.trans hdenotes.scheme.symm, hauthority.trans hdenotes.authority.symm, ?_,
        hsame⟩
      unfold Uri.path
      rw [hraw, if_neg]
      simp [hne]

theorem locate?_of_absolute_form :
    let url := "http://backend:3000/app//?v=1"
    let inbound := Bytes.ofLatin1 "https://user@other/users?id=5"
    ∃ t i u, parse url = .ok t ∧ Uri.parse? inbound = some i ∧ t.locate? i = some u ∧
      u.scheme = some .http ∧ u.authority.map (·.bytes) = some (.ofLatin1 "backend:3000") ∧
      u.path = .ofLatin1 "/app/users" ∧ u.query = some (.ofLatin1 "v=1&id=5") := by
  intro url inbound
  have htarget : ((parse url).toOption.map fun t => (t.scheme, t.authority.bytes)) =
      some (.http, .ofLatin1 "backend:3000") := by
    decide +kernel
  have hbase : (Uri.parse? (Text.Utf8.encode url)).map (fun b => (b.path, b.query)) =
      some (.ofLatin1 "/app//", some (.ofLatin1 "v=1")) := by
    decide +kernel
  have hinbound : (Uri.parse? inbound).map (fun i => (i.path, i.query)) =
      some (.ofLatin1 "/users", some (.ofLatin1 "id=5")) := by
    decide +kernel
  obtain ⟨t, ht, htarget⟩ := Option.map_eq_some_iff.mp htarget
  obtain ⟨i, hi, hinbound⟩ := Option.map_eq_some_iff.mp hinbound
  obtain ⟨hscheme, hauthority⟩ := Prod.mk.inj htarget
  obtain ⟨hfrom, hasked⟩ := Prod.mk.inj hinbound
  have hparse := ok_of_toOption ht
  obtain ⟨base, hread, hsame, hhost, hlong, hparts⟩ := locate?_spec hparse hi
  rw [hread] at hbase
  obtain ⟨hpath, hquery⟩ := Prod.mk.inj (Option.some.inj hbase)
  rw [hpath, hquery, hfrom, hasked] at hlong hparts
  have hfits : t.locate? i ≠ none := hlong.not.mpr (by decide +kernel)
  obtain ⟨u, hu⟩ := Option.ne_none_iff_exists'.mp hfits
  obtain ⟨hs, ha, hp, hq⟩ := hparts u hu
  refine ⟨t, i, u, hparse, hi, hu, ?_, ?_, ?_, ?_⟩
  · rw [hs, hsame, hscheme]
  · rw [ha, hhost, Option.map_some, hauthority]
  · rw [hp]
    decide +kernel
  · rw [hq]
    decide +kernel

end Gateway.Proxy.Target
