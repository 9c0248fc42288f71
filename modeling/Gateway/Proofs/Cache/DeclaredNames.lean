import Gateway.Proofs.Cache.Partition
import Gateway.Proofs.Cache.Replays
import Gateway.Proofs.Cache.VaryNames

/-! The names that a response varies on are those that its readable `Vary` lines declare. As a list
they are told by the set of these names alone, and so is the key of every request. -/
namespace Gateway.Cache

open Gateway.Http

/-- A readable `Vary` line has the name among its elements, in some spelling. -/
def Declares (h : Headers) (n : HeaderName) : Prop :=
  ∃ v ∈ h.values .vary, v.isReadable = true ∧
    ∃ element, Stored.IsElement v.bytes element ∧ Bytes.lower element = n.bytes

theorem declares_iff {h : Headers} {n : HeaderName} :
    Declares h n ↔ n ∈ (h.tokens .vary).filterMap HeaderName.ofBytes? := by
  unfold Declares Headers.tokens Headers.elements Headers.texts
  simp only [List.mem_filterMap, List.mem_filter, List.mem_flatMap, List.mem_map,
    HeaderName.ofBytes?_eq_some_iff, Stored.isElement_iff]
  constructor
  · rintro ⟨v, hv, hreadable, element, ⟨piece, hpiece, htrim⟩, hlower⟩
    have htext : v.text? = some v.bytes := HeaderValue.text?_eq_some_iff.mpr ⟨hreadable, rfl⟩
    have hnonempty : (!element.isEmpty) = true := by
      rw [Bool.not_eq_true', List.isEmpty_eq_false_iff]
      rintro rfl
      exact n.bytes_ne_nil hlower.symm
    exact ⟨element, ⟨⟨v.bytes, ⟨v, hv, htext⟩, piece, hpiece, htrim⟩, hnonempty⟩, hlower⟩
  · rintro ⟨element, ⟨⟨text, ⟨v, hv, htext⟩, piece, hpiece, htrim⟩, -⟩, hlower⟩
    obtain ⟨hreadable, rfl⟩ := HeaderValue.text?_eq_some_iff.mp htext
    exact ⟨v, hv, hreadable, element, ⟨piece, hpiece, htrim⟩, hlower⟩

theorem mem_varyNames_iff {h : Headers} {n : HeaderName} : n ∈ varyNames h ↔ Declares h n := by
  rw [declares_iff, varyNames, mem_dedupAdjacent, List.mem_mergeSort]

theorem varyNames_eq_iff {g h : Headers} :
    varyNames g = varyNames h ↔ ∀ n, Declares g n ↔ Declares h n := by
  simp only [← mem_varyNames_iff]
  constructor
  · intro heq n
    rw [heq]
  · exact varyNames_eq_of_mem_iff

theorem bytes_lt_of_before {a b : HeaderName} (h : a.Before b) : a.bytes < b.bytes :=
  Std.lt_of_le_of_ne (of_decide_eq_true h.1) fun heq => h.2 (HeaderName.ext heq)

/-- The names ascend strictly and are those that the response declares. Responses that declare the
same names have the same list, and then every request has the same key for them. -/
theorem varyNames_iff_declares (h : Headers) :
    (varyNames h).Pairwise (fun a b => a.bytes < b.bytes) ∧
      (∀ n, n ∈ varyNames h ↔ Declares h n) ∧
      ∀ g : Headers, (varyNames g = varyNames h ↔ ∀ n, Declares g n ↔ Declares h n) ∧
        ((∀ n, Declares g n ↔ Declares h n) →
          ∀ v : Variant, (v.learn g).key = (v.learn h).key) := by
  refine ⟨(pairwise_varyNames h).imp bytes_lt_of_before, fun n => mem_varyNames_iff,
    fun g => ⟨varyNames_eq_iff, fun hdeclared v => ?_⟩⟩
  unfold Variant.learn
  rw [varyNames_eq_iff.mpr hdeclared]

/-- One line in small letters; and two lines with other cases, blanks, a repetition, an empty element
and an invalid one, with an unreadable line between them. -/
theorem varyNames_iff_declares_of_two_spellings :
    let line (s : String) (h : (Bytes.ofLatin1 s).all isValueByte = true) :=
      (HeaderName.vary, HeaderValue.ofLatin1 s h)
    let g : Headers := .ofFields [line "range,accept-encoding" (by decide)]
    let h : Headers := .ofFields [line "Accept-Encoding\t, RANGE ,,te xt" (by decide),
      line "cookie, \u00e9" (by decide), line " range" (by decide)]
    let v := Variant.ofRequest (Variant.cookieRequest [])
    (∀ n, Declares g n ↔ Declares h n) ∧ varyNames g = varyNames h ∧ .range ∈ varyNames h ∧
      Variant.cookie ∉ varyNames h ∧ (v.learn g).key = (v.learn h).key := by
  intro line g h v
  have hg : (g.tokens .vary).filterMap HeaderName.ofBytes? = [.range, .acceptEncoding] := by
    decide +kernel
  have hh : (h.tokens .vary).filterMap HeaderName.ofBytes? = [.acceptEncoding, .range, .range] := by
    decide +kernel
  have hdeclared : ∀ n, Declares g n ↔ Declares h n := by
    intro n
    rw [declares_iff, declares_iff, hg, hh]
    simp [or_comm]
  obtain ⟨-, hmem, hsame⟩ := varyNames_iff_declares h
  refine ⟨hdeclared, (hsame g).1.mpr hdeclared, ?_, ?_, (hsame g).2 hdeclared v⟩
  · rw [hmem, declares_iff, hh]
    decide
  · rw [hmem, declares_iff, hh]
    decide

end Gateway.Cache
