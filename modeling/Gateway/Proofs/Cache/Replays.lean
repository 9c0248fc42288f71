import Gateway.Proofs.Cache.Passage
import Gateway.Proofs.Text.Elements

/-! What is answered from a stored response: the whole of it, or its head alone when the request names
the stored entity tag. Nothing else in the request matters. -/
namespace Gateway.Cache.Stored

open Gateway.Http

/-- An element of a comma-separated text stands between two commas, or a comma and an end, with
blanks around it that do not belong to it. -/
def IsElement (text element : Bytes) : Prop :=
  ∃ before left right after, text = before ++ (left ++ element ++ right) ++ after ∧
    (∀ b ∈ before.getLast?, b = 44) ∧ (∀ b ∈ after.head?, b = 44) ∧ 44 ∉ element ∧
    (∀ b ∈ left, Bytes.isBlank b = true) ∧ (∀ b ∈ right, Bytes.isBlank b = true) ∧
    (∀ b ∈ element.head?, Bytes.isBlank b = false) ∧
    ∀ b ∈ element.getLast?, Bytes.isBlank b = false

/-- The first stored entity tag is an element of one of the request's `If-None-Match` lines. -/
def NamedBy (r : Stored) (request : Headers) : Prop :=
  ∃ etag, r.headers.get? .etag = some etag ∧
    ∃ v ∈ request.values .ifNoneMatch, IsElement v.bytes etag.bytes

theorem isElement_iff {text element : Bytes} :
    IsElement text element ↔ ∃ piece ∈ Bytes.splitOn 44 text, Bytes.trim piece = element := by
  constructor
  · rintro ⟨before, left, right, after, htext, hbefore, hafter, hcomma, hleft, hright, hends⟩
    have hblank {bs : Bytes} (h : ∀ b ∈ bs, Bytes.isBlank b = true) : 44 ∉ bs :=
      fun hmem => absurd (h 44 hmem) (by decide)
    have hpiece : 44 ∉ left ++ element ++ right := by
      simp [hblank hleft, hcomma, hblank hright]
    exact ⟨left ++ element ++ right,
      Bytes.mem_splitOn_iff.mpr ⟨hpiece, before, after, htext, hbefore, hafter⟩,
      Bytes.trimWhile_eq_iff.mpr ⟨left, right, rfl, hleft, hright, hends⟩⟩
  · rintro ⟨piece, hpiece, htrim⟩
    obtain ⟨hcomma, before, after, htext, hbefore, hafter⟩ := Bytes.mem_splitOn_iff.mp hpiece
    obtain ⟨left, right, rfl, hleft, hright, hends⟩ := Bytes.trimWhile_eq_iff.mp htrim
    have hinner : 44 ∉ element := fun hmem =>
      hcomma (List.mem_append_left right (List.mem_append_right left hmem))
    exact ⟨before, left, right, after, htext, hbefore, hafter, hinner, hleft, hright, hends⟩

theorem etagMatches_iff {r : Stored} {request : Headers} :
    r.etagMatches request = true ↔ r.NamedBy request := by
  unfold etagMatches NamedBy
  cases r.headers.get? .etag with
  | none => simp
  | some etag =>
    simp only [List.any_eq_true, beq_iff_eq, Option.some.injEq, exists_eq_left', isElement_iff]

theorem replay_of_etagMatches {r : Stored} {request : Headers} (h : r.etagMatches request = true) :
    r.replay request = (⟨.notModified, r.headers.insert .xCache hitMark⟩, []) := by
  unfold replay
  dsimp only
  rw [if_pos h]

theorem replay_of_not_etagMatches {r : Stored} {request : Headers}
    (h : ¬ r.etagMatches request = true) :
    r.replay request = (⟨r.status, r.headers.insert .xCache hitMark⟩, r.body) := by
  unfold replay
  dsimp only
  rw [if_neg h]

theorem etagMatches_congr {g h : Headers} (hsame : g.values .ifNoneMatch = h.values .ifNoneMatch)
    (r : Stored) : r.etagMatches g = r.etagMatches h := by
  unfold etagMatches
  rw [hsame]

/-- A request that names the stored entity tag gets status 304 and no body, any other the stored
status and body; so a 304 without a body comes of one or the other. The headers are the stored ones
but for `X-Cache`. Of the request only its `If-None-Match` lines matter. -/
theorem replay_iff_namedBy (r : Stored) (request : Headers) :
    (r.NamedBy request →
        (r.replay request).1.status = .notModified ∧ (r.replay request).2 = []) ∧
      (¬ r.NamedBy request →
        (r.replay request).1.status = r.status ∧ (r.replay request).2 = r.body) ∧
      ((r.replay request).1.status = .notModified ∧ (r.replay request).2 = [] ↔
        r.NamedBy request ∨ r.status = .notModified ∧ r.body = []) ∧
      (∀ n, (r.replay request).1.headers.values n =
        if n = .xCache then [hitMark] else r.headers.values n) ∧
      ∀ other : Headers, other.values .ifNoneMatch = request.values .ifNoneMatch →
        r.replay other = r.replay request := by
  have hnamed : r.NamedBy request →
      (r.replay request).1.status = .notModified ∧ (r.replay request).2 = [] := by
    intro h
    rw [replay_of_etagMatches (etagMatches_iff.mpr h)]
    exact ⟨rfl, rfl⟩
  have hother : ¬ r.NamedBy request →
      (r.replay request).1.status = r.status ∧ (r.replay request).2 = r.body := by
    intro h
    rw [replay_of_not_etagMatches (mt etagMatches_iff.mp h)]
    exact ⟨rfl, rfl⟩
  refine ⟨hnamed, hother, ?_, ResponseCache.values_replay r request, fun other hsame => ?_⟩
  · by_cases h : r.NamedBy request
    · exact iff_of_true (hnamed h) (.inl h)
    · obtain ⟨hstatus, hbody⟩ := hother h
      rw [hstatus, hbody, or_iff_right h]
  · unfold replay
    rw [etagMatches_congr hsame]

/-- An unreadable line, an empty element, and the tag with blanks around it between two others. -/
theorem replay_iff_namedBy_of_listed_tag :
    let value (s : String) (h : (Bytes.ofLatin1 s).all isValueByte = true) := HeaderValue.ofLatin1 s h
    let r : Stored := ⟨.ok, .ofFields [(.etag, value "\"v1\"" (by decide)),
      (.xCache, value "miss" (by decide)), (.vary, value "accept" (by decide)),
      (.xCache, value "old" (by decide)), (.vary, value "cookie" (by decide))], [1, 2, 3], ∅⟩
    let lines := [(HeaderName.ifNoneMatch, value "\u00e9" (by decide)),
      (.ifNoneMatch, value "\"v0\",,\t\"v1\" ,*" (by decide))]
    let request : Headers := .ofFields lines
    let other : Headers := .ofFields ((.range, value "bytes=0-1" (by decide)) :: lines)
    r.NamedBy request ∧ (r.replay request).1.status = .notModified ∧ (r.replay request).2 = [] ∧
      (r.replay request).1.headers.values .xCache = [hitMark] ∧
      (r.replay request).1.headers.values .vary = r.headers.values .vary ∧
      other.values .ifNoneMatch = request.values .ifNoneMatch ∧
      r.replay other = r.replay request := by
  intro value r lines request other
  have hnamed : r.NamedBy request := etagMatches_iff.mp (by decide +kernel)
  have hsame : other.values .ifNoneMatch = request.values .ifNoneMatch := by decide +kernel
  obtain ⟨hanswer, -, -, hvalues, hother⟩ := replay_iff_namedBy r request
  exact ⟨hnamed, (hanswer hnamed).1, (hanswer hnamed).2, hvalues .xCache, hvalues .vary, hsame,
    hother other hsame⟩

end Gateway.Cache.Stored
