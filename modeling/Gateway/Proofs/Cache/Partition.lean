import Gateway.Proofs.Cache.HashInput
import Gateway.Proofs.Cache.RoundTrip

/-! Which requests may share a stored response. The key, the recorded headers and the test of a
stored response all read the first line of a header, and agree on it. -/
namespace Gateway

theorem Http.Headers.get?_insert (h : Headers) (n m : HeaderName) (v : HeaderValue) :
    (h.insert n v).get? m = if m = n then some v else h.get? m := by
  unfold get?
  rw [values_insert]
  split_ifs <;> rfl

namespace Cache.Variant

open Gateway.Http

theorem get?_foldl_insert (headers start : Headers) (names : List HeaderName) (n : HeaderName) :
    (names.foldl (fun h m => match headers.get? m with
      | some value => h.insert m value
      | none => h) start).get? n =
    if n ∈ names then (headers.get? n).or (start.get? n) else start.get? n := by
  induction names generalizing start with
  | nil => simp
  | cons m rest ih =>
    rw [List.foldl_cons, ih]
    cases hm : headers.get? m with
    | none =>
      by_cases hn : n = m
      · subst hn
        simp [hm]
      · simp [hn]
    | some value =>
      dsimp only
      rw [Headers.get?_insert]
      by_cases hn : n = m
      · subst hn
        simp [hm]
      · simp [hn]

/-- The recorded headers hold the first line of each name that matters, and nothing else. -/
theorem get?_recorded (v : Variant) (n : HeaderName) :
    v.recorded.get? n = if n ∈ v.names then v.headers.get? n else none := by
  have hempty : (∅ : Headers).get? n = none := rfl
  refine (get?_foldl_insert v.headers ∅ v.names n).trans ?_
  rw [hempty, Option.or_none]

theorem firstBytes_recorded {v : Variant} {n : HeaderName} (h : n ∈ v.names) :
    v.recorded.firstBytes n = v.value n := by
  unfold value Headers.firstBytes
  rw [get?_recorded, if_pos h]

theorem accepts_iff (v : Variant) (stored : Headers) :
    v.accepts stored = true ↔ ∀ n ∈ v.names, stored.firstBytes n = v.value n := by
  unfold accepts
  simp only [List.all_eq_true, beq_iff_eq]

/-- A variant accepts what was recorded for another exactly when the first values agree. -/
theorem accepts_recorded_iff {a b : Variant} (h : a.names = b.names) :
    b.accepts a.recorded = true ↔ ∀ n ∈ a.names, a.value n = b.value n := by
  rw [accepts_iff, ← h]
  refine forall₂_congr fun n hn => ?_
  rw [firstBytes_recorded hn]

def cookie : HeaderName := ⟨.ofLatin1 "cookie", by decide⟩

def cookieRequest (lines : List HeaderValue) : RequestHead where
  method := .get
  uri := ⟨none, none, [47], none, by decide, by simp⟩
  headers := .ofFields (lines.map (cookie, ·))

/-- The variant as it would be for the resource of `base`. -/
def onResourceOf (v base : Variant) : Variant :=
  { base with headers := v.headers, names := v.names }

/-- On one resource, variants with the same names have the same hash input exactly when the first
values agree. -/
theorem hashInput_onResourceOf_eq_iff (base : Variant) {a b : Variant} (h : a.names = b.names) :
    (a.onResourceOf base).hashInput = (b.onResourceOf base).hashInput ↔
      ∀ n ∈ a.names, a.value n = b.value n := by
  have hbase : (a.onResourceOf base).baseInput = (b.onResourceOf base).baseInput := rfl
  rw [hashInput_eq_iff_of_base hbase]
  exact and_iff_right h

/-- The two tests for one variant agree. Of variants with the same names, one accepts what was
recorded for the other exactly when on one resource the octets hashed for them are the same; and it
still does when what was recorded comes back from the blob of a response. -/
theorem accepts_iff_hashInput_eq (p q base : Variant) (h : p.names = q.names) :
    let sameInput := (p.onResourceOf base).hashInput = (q.onResourceOf base).hashInput
    (q.accepts p.recorded = true ↔ sameInput) ∧
      ∀ r : Stored, r.recorded = p.recorded → r.Fits →
        ∃ s, Stored.decode r.encode = .ok s ∧ (q.accepts s.recorded = true ↔ sameInput) := by
  intro sameInput
  have hagree : q.accepts p.recorded = true ↔ sameInput := by
    rw [accepts_recorded_iff h]
    exact (hashInput_onResourceOf_eq_iff base h).symm
  refine ⟨hagree, fun r hrecorded hfits => ?_⟩
  have hkept : r.withoutCookies.recorded = p.recorded := hrecorded
  refine ⟨r.withoutCookies, Stored.decode_encode hfits, ?_⟩
  rw [hkept]
  exact hagree

/-- A name is listed twice, a header is repeated, and another is absent here and empty there. -/
theorem accepts_iff_hashInput_eq_of_repeated :
    let user := (cookie, HeaderValue.ofLatin1 "user=a" (by decide))
    let other := (cookie, HeaderValue.ofLatin1 "user=b" (by decide))
    let blank := (HeaderName.range, HeaderValue.ofLatin1 "" (by decide))
    let request (fields : List (HeaderName × HeaderValue)) : Variant :=
      (ofRequest { cookieRequest [] with headers := .ofFields fields }).withNames
        [cookie, .range, cookie]
    let p := request [user]
    let q := request [blank, user, other]
    let foreign := request [other]
    let r : Stored :=
      ⟨.ok, .ofFields [(.vary, .ofLatin1 "cookie, range" (by decide))], [1], p.recorded⟩
    r.Fits ∧ (p.onResourceOf p).hashInput = (q.onResourceOf p).hashInput ∧
      (p.onResourceOf p).hashInput ≠ (foreign.onResourceOf p).hashInput ∧
      ∃ s, Stored.decode r.encode = .ok s ∧ q.accepts s.recorded = true ∧
        foreign.accepts s.recorded = false := by
  intro user other blank request p q foreign r
  have hfits : r.Fits := by decide +kernel
  have hnames : ∀ fields, (request fields).names = [cookie, .range, cookie] := fun _ => rfl
  have hsame := accepts_iff_hashInput_eq p q p ((hnames _).trans (hnames _).symm)
  have hother := accepts_iff_hashInput_eq p foreign p ((hnames _).trans (hnames _).symm)
  have hinput : (p.onResourceOf p).hashInput = (q.onResourceOf p).hashInput :=
    hsame.1.mp (by decide +kernel)
  have hdiffers : (p.onResourceOf p).hashInput ≠ (foreign.onResourceOf p).hashInput :=
    hother.1.not.mp (by decide +kernel)
  obtain ⟨s, hs, haccepts⟩ := hsame.2 r rfl hfits
  obtain ⟨t, ht, hrefuses⟩ := hother.2 r rfl hfits
  have hst : t = s := Except.ok.inj (ht.symm.trans hs)
  rw [hst] at hrefuses
  refine ⟨hfits, hinput, hdiffers, s, hs, haccepts.mpr hinput, ?_⟩
  exact Bool.eq_false_iff.mpr (hrefuses.not.mpr hdiffers)

/-- Requests that differ in some line of a listed header do not share a stored response: neither
accepts what was recorded for the other, and their keys are hashes of different octets. -/
def KeptApart (names : List HeaderName) (p q : Variant) : Prop :=
  (∃ n ∈ names, p.headers.values n ≠ q.headers.values n) →
    (q.withNames names).accepts (p.withNames names).recorded = false ∧
      (p.withNames names).hashInput ≠ (q.withNames names).hashInput

/-- Requests for one resource are kept apart exactly when no listed header differs at all, or the
first line of one does: a difference in the later lines alone goes unnoticed. -/
theorem keptApart_iff (names : List HeaderName) {p q : RequestHead}
    (h : (ofRequest p).SameResource (ofRequest q)) :
    KeptApart names (ofRequest p) (ofRequest q) ↔
      (∀ n ∈ names, p.headers.values n = q.headers.values n) ∨
        ∃ n ∈ names, p.headers.firstBytes n ≠ q.headers.firstBytes n := by
  let a := (ofRequest p).withNames names
  let b := (ofRequest q).withNames names
  have hresource : a.SameResource b := ⟨h.method, h.path, h.query, h.host⟩
  have hinput : a.hashInput = b.hashInput ↔ ∀ n ∈ names, a.value n = b.value n := by
    rw [hashInput_eq_iff ((delimited_ofRequest p).withNames names)
      ((delimited_ofRequest q).withNames names)]
    exact ⟨fun heq => heq.2.2, fun heq => ⟨hresource, rfl, heq⟩⟩
  have haccepts : b.accepts a.recorded = true ↔ ∀ n ∈ names, a.value n = b.value n :=
    accepts_recorded_iff rfl
  constructor
  · intro hapart
    by_cases hsame : ∀ n ∈ names, p.headers.values n = q.headers.values n
    · exact .inl hsame
    · push Not at hsame
      obtain ⟨hrefused, -⟩ := hapart hsame
      have hfirst : ¬ ∀ n ∈ names, a.value n = b.value n := by
        rw [← haccepts]
        exact Bool.eq_false_iff.mp hrefused
      push Not at hfirst
      exact .inr hfirst
  · rintro (hsame | ⟨n, hn, hfirst⟩) hdiffers
    · obtain ⟨n, hn, hne⟩ := hdiffers
      exact absurd (hsame n hn) hne
    · have hnot : ¬ ∀ m ∈ names, a.value m = b.value m := fun hall => hfirst (hall n hn)
      refine ⟨Bool.eq_false_iff.mpr fun hacc => hnot (haccepts.mp hacc), ?_⟩
      exact fun heq => hnot (hinput.mp heq)

/-- Another first line is noticed. -/
theorem keptApart_of_first_line :
    let p := cookieRequest [.ofLatin1 "user=a" (by decide)]
    let q := cookieRequest [.ofLatin1 "user=b" (by decide), .ofLatin1 "theme=dark" (by decide)]
    KeptApart [cookie] (ofRequest p) (ofRequest q) := by
  intro p q
  have hresource : (ofRequest p).SameResource (ofRequest q) := by
    constructor <;> decide +kernel
  have hfirst : p.headers.firstBytes cookie ≠ q.headers.firstBytes cookie := by decide +kernel
  rw [keptApart_iff [cookie] hresource]
  exact .inr ⟨cookie, List.mem_singleton_self cookie, hfirst⟩

/-- A second line is not: what one request left is accepted for the other. -/
theorem not_keptApart_of_second_line :
    let p := cookieRequest [.ofLatin1 "user=a" (by decide)]
    let q := cookieRequest [.ofLatin1 "user=a" (by decide), .ofLatin1 "user=b" (by decide)]
    (ofRequest p).SameResource (ofRequest q) ∧
      p.headers.values cookie ≠ q.headers.values cookie ∧
      ((ofRequest q).withNames [cookie]).accepts ((ofRequest p).withNames [cookie]).recorded ∧
      ((ofRequest p).withNames [cookie]).hashInput = ((ofRequest q).withNames [cookie]).hashInput ∧
      ¬ KeptApart [cookie] (ofRequest p) (ofRequest q) := by
  intro p q
  have hresource : (ofRequest p).SameResource (ofRequest q) := by
    constructor <;> decide +kernel
  have hdiffers : p.headers.values cookie ≠ q.headers.values cookie := by decide +kernel
  have hinput : ((ofRequest p).withNames [cookie]).hashInput =
      ((ofRequest q).withNames [cookie]).hashInput := by decide +kernel
  refine ⟨hresource, hdiffers, by decide +kernel, hinput, fun hapart => ?_⟩
  have hlisted : ∃ n ∈ [cookie], (ofRequest p).headers.values n ≠ (ofRequest q).headers.values n :=
    ⟨cookie, List.mem_singleton_self cookie, hdiffers⟩
  exact (hapart hlisted).2 hinput

end Cache.Variant

end Gateway
