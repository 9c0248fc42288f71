import Gateway.Cache.Exchange
import Gateway.Proofs.Cache.Expiry
import Gateway.Proofs.Cache.HashInput

/-! A lookup only reads: it leaves what later readers find as it was, and what it answers with was
found under the key of a variant of the request. -/
namespace Gateway.Cache

open Gateway.Http

namespace ResponseCache

/-- The response that a read of the key would decode. -/
def held? (c : ResponseCache) (k : Key) (now : Time) : Option Stored :=
  (c.backend.store.get? k now).bind fun blob => (Stored.decode blob).toOption

theorem held?_eq_some {c : ResponseCache} {k : Key} {now : Time} {r : Stored} :
    c.held? k now = some r ↔
      ∃ blob, c.backend.store.get? k now = some blob ∧ Stored.decode blob = .ok r := by
  unfold held?
  rw [Option.bind_eq_some_iff]
  refine exists_congr fun blob => and_congr_right fun _ => ?_
  cases Stored.decode blob <;> simp [Except.toOption]

/-- From `now` on, the caches answer the same reads. -/
structure ReadsAs (now : Time) (c d : ResponseCache) : Prop where
  consistent : d.backend.store.Consistent → c.backend.store.Consistent
  get?_eq : ∀ k t, now ≤ t → c.backend.store.get? k t = d.backend.store.get? k t

namespace ReadsAs

theorem refl (now : Time) (c : ResponseCache) : ReadsAs now c c := ⟨id, fun _ _ _ => rfl⟩

/-- The figures and the index do not matter. -/
theorem of_store_eq {now : Time} {c d : ResponseCache} (h : c.backend.store = d.backend.store) :
    ReadsAs now c d := ⟨fun hd => h ▸ hd, fun _ _ _ => by rw [h]⟩

theorem trans {now : Time} {c d e : ResponseCache} (h : ReadsAs now c d) (h' : ReadsAs now d e) :
    ReadsAs now c e :=
  ⟨fun he => h.consistent (h'.consistent he),
    fun k t ht => (h.get?_eq k t ht).trans (h'.get?_eq k t ht)⟩

theorem held?_eq {now : Time} {c d : ResponseCache} (h : ReadsAs now c d) (k : Key) :
    c.held? k now = d.held? k now := by
  unfold held?
  rw [h.get?_eq k now (Nat.le_refl now)]

end ReadsAs

theorem fetch_fst (c : ResponseCache) (k : Key) (now : Time) :
    (c.fetch k now).1 = c.held? k now := by
  unfold fetch held?
  rw [← Metered.get_fst]

theorem readsAs_fetch (c : ResponseCache) (k : Key) (now : Time) :
    ReadsAs now (c.fetch k now).2 c where
  consistent h := Metered.consistent_perform h (.get k now)
  get?_eq m t ht := by
    change (c.backend.get k now).2.store.get? m t = _
    rw [Metered.store_get]
    exact Store.get?_get _ k m ht

def reads (c : ResponseCache) (now : Time) (ks : List Key) : ResponseCache :=
  ks.foldl (fun c k => (c.fetch k now).2) c

theorem readsAs_reads (c : ResponseCache) (now : Time) (ks : List Key) :
    ReadsAs now (c.reads now ks) c := by
  induction ks generalizing c with
  | nil => exact .refl now c
  | cons k ks ih => exact (ih (c.fetch k now).2).trans (readsAs_fetch c k now)

@[simp] theorem index_reads (c : ResponseCache) (now : Time) (ks : List Key) :
    (c.reads now ks).index = c.index := by
  induction ks generalizing c with
  | nil => rfl
  | cons k ks ih => exact ih (c.fetch k now).2

theorem reads_reads (c : ResponseCache) (now : Time) (ks ls : List Key) :
    (c.reads now ks).reads now ls = c.reads now (ks ++ ls) := by
  unfold reads
  exact List.foldl_append.symm

/-- The variants under whose keys `fetchVariant` reads, in order. -/
def fetchTried (c : ResponseCache) (v : Variant) (now : Time) : List Variant :=
  match c.held? v.key now with
  | none => [v]
  | some found =>
    if varyNames found.headers = v.names then [v] else [v, v.withNames (varyNames found.headers)]

/-- How a lookup may end that has read under the keys of `tried`. A hit was found under the key of
the variant that accepts it, and the names of this variant are noted. -/
inductive Attempt (c : ResponseCache) (tried : List Variant) (base : Key) (now : Time) :
    Lookup → Prop
  | missed (u : Variant) (hu : u ∈ tried) :
    Attempt c tried base now ⟨none, u, c.reads now (tried.map Variant.key)⟩
  | hit (u : Variant) (r : Stored) (hu : u ∈ tried) (hheld : c.held? u.key now = some r)
      (haccepts : u.accepts r.recorded = true) :
    Attempt c tried base now ⟨some r, u, { c.reads now (tried.map Variant.key) with
      index := c.index.remember base u.names }⟩

/-- What an attempt after further reads finds, and what it does, the first cache would as well. -/
theorem Attempt.of_reads {c : ResponseCache} {now : Time} {before tried : List Variant}
    {base : Key} {l : Lookup}
    (h : Attempt (c.reads now (before.map Variant.key)) tried base now l) :
    Attempt c (before ++ tried) base now l := by
  have hheld : ∀ k, (c.reads now (before.map Variant.key)).held? k now = c.held? k now :=
    (readsAs_reads c now _).held?_eq
  have hall : ∀ u ∈ tried, u ∈ before ++ tried := fun _ hu => List.mem_append_right before hu
  cases h with
  | missed u hu =>
    rw [reads_reads, ← List.map_append]
    exact .missed u (hall u hu)
  | hit u r hu hfound haccepts =>
    rw [reads_reads, ← List.map_append, index_reads]
    exact .hit u r (hall u hu) ((hheld u.key).symm.trans hfound) haccepts

theorem attempt_confirm {c : ResponseCache} {tried : List Variant} {u : Variant} {now : Time}
    {r : Stored} (base : Key) (hu : u ∈ tried) (hheld : c.held? u.key now = some r) :
    Attempt c tried base now
      ((c.reads now (tried.map Variant.key)).confirm u base u.names r) := by
  unfold confirm
  split_ifs with haccepts
  · rw [index_reads]
    exact .hit u r hu hheld haccepts
  · exact .missed u hu

/-- An attempt, told from what is held under the keys it reads. -/
theorem fetchVariant_eq (c : ResponseCache) (v : Variant) (base : Key) (now : Time) :
    c.fetchVariant v base v.key now =
      match c.held? v.key now with
      | none => ⟨none, v, c.reads now [v.key]⟩
      | some first =>
        if varyNames first.headers = v.names then (c.reads now [v.key]).confirm v base v.names first
        else
          let u := v.withNames (varyNames first.headers)
          match c.held? u.key now with
          | none => ⟨none, u, c.reads now [v.key, u.key]⟩
          | some corrected => (c.reads now [v.key, u.key]).confirm u base u.names corrected := by
  have hfirst := fetch_fst c v.key now
  have hreads : (c.fetch v.key now).2 = c.reads now [v.key] := rfl
  unfold fetchVariant
  rw [← hfirst]
  generalize c.fetch v.key now = fetched at hreads
  obtain ⟨found, c₁⟩ := fetched
  dsimp only at hreads ⊢
  cases found with
  | none => rw [hreads]
  | some first =>
    dsimp only
    by_cases hnames : varyNames first.headers = v.names
    · rw [if_pos hnames, if_pos hnames, hreads, hnames]
    · generalize hu : v.withNames (varyNames first.headers) = u
      have hnamesU : varyNames first.headers = u.names := by
        rw [← hu]
        rfl
      have hsecond := fetch_fst c₁ u.key now
      have hboth : (c₁.fetch u.key now).2 = c.reads now [v.key, u.key] := by
        rw [hreads]
        rfl
      rw [if_neg hnames, if_neg hnames, hnamesU]
      generalize c₁.fetch u.key now = refetched at hsecond hboth
      obtain ⟨corrected, c₂⟩ := refetched
      dsimp only at hsecond hboth ⊢
      rw [hreads, (readsAs_reads c now _).held?_eq] at hsecond
      rw [← hsecond, hboth]
      cases corrected <;> rfl

theorem attempt_fetchVariant (c : ResponseCache) (v : Variant) (base : Key) (now : Time) :
    Attempt c (c.fetchTried v now) base now (c.fetchVariant v base v.key now) := by
  rw [fetchVariant_eq]
  unfold fetchTried
  cases hfirst : c.held? v.key now with
  | none => exact .missed v (List.mem_singleton_self v)
  | some first =>
    dsimp only
    split_ifs with hnames
    · exact attempt_confirm base (List.mem_singleton_self v) hfirst
    · generalize v.withNames (varyNames first.headers) = u
      have hu : u ∈ [v, u] := List.mem_cons_of_mem v (List.mem_singleton_self u)
      cases hsecond : c.held? u.key now with
      | none => exact .missed u hu
      | some corrected => exact attempt_confirm base hu hsecond

def assumed (c : ResponseCache) (v : Variant) : Variant :=
  match c.index.known? v.key with
  | some names => v.withNames names
  | none => v

theorem assumed_withNames (c : ResponseCache) (v : Variant) :
    ∃ names, c.assumed v = v.withNames names := by
  unfold assumed
  cases c.index.known? v.key with
  | none => exact ⟨v.names, rfl⟩
  | some names => exact ⟨names, rfl⟩

theorem lookup_eq (c : ResponseCache) (v : Variant) (now : Time) :
    c.lookup v now =
      let first := c.fetchVariant (c.assumed v) v.key (c.assumed v).key now
      if first.hit.isNone && (c.assumed v).key != v.key then
        first.cache.fetchVariant (first.variant.withNames []) v.key v.key now
      else first := rfl

/-- The variants under whose keys a lookup reads, in order. -/
def tried (c : ResponseCache) (v : Variant) (now : Time) : List Variant :=
  let first := c.fetchVariant (c.assumed v) v.key (c.assumed v).key now
  c.fetchTried (c.assumed v) now ++
    if first.hit.isNone && (c.assumed v).key != v.key then first.cache.fetchTried v now else []

theorem fetchTried_withNames {c : ResponseCache} {v u : Variant} {now : Time}
    (h : u ∈ c.fetchTried v now) : ∃ names, u = v.withNames names := by
  unfold fetchTried at h
  split at h
  · exact ⟨v.names, List.mem_singleton.mp h⟩
  · split_ifs at h
    · exact ⟨v.names, List.mem_singleton.mp h⟩
    · rcases List.mem_cons.mp h with h | h
      · exact ⟨v.names, h⟩
      · exact ⟨_, List.mem_singleton.mp h⟩

/-- A lookup reads under variants of the request only. -/
theorem tried_withNames {c : ResponseCache} {v u : Variant} {now : Time}
    (h : u ∈ c.tried v now) : ∃ names, u = v.withNames names := by
  unfold tried at h
  dsimp only at h
  rcases List.mem_append.mp h with h | h
  · obtain ⟨names, rfl⟩ := fetchTried_withNames h
    obtain ⟨known, hknown⟩ := c.assumed_withNames v
    exact ⟨names, by rw [hknown]; rfl⟩
  · split_ifs at h
    · exact fetchTried_withNames h
    · cases h

theorem Attempt.variant_mem {c : ResponseCache} {tried : List Variant} {base : Key} {now : Time}
    {l : Lookup} (h : Attempt c tried base now l) : l.variant ∈ tried := by
  cases h with
  | missed u hu => exact hu
  | hit u r hu hheld haccepts => exact hu

/-- A missed attempt has only read. -/
theorem Attempt.reads_of_missed {c : ResponseCache} {tried : List Variant} {base : Key} {now : Time}
    {l : Lookup} (h : Attempt c tried base now l) (hmiss : l.hit = none) :
    l.cache = c.reads now (tried.map Variant.key) := by
  cases h with
  | missed u hu => rfl
  | hit u r hu hheld haccepts => cases hmiss

/-- A first attempt that missed has only read, and only the names of its variant are not those of
the lookup. -/
theorem missed_first {c : ResponseCache} {v : Variant} (hv : v.names = []) {now : Time}
    {first : Lookup} (h : Attempt c (c.fetchTried (c.assumed v) now) v.key now first)
    (hmiss : first.hit = none) :
    first.variant.withNames [] = v ∧
      first.cache = c.reads now ((c.fetchTried (c.assumed v) now).map Variant.key) := by
  obtain ⟨names, hnames⟩ := fetchTried_withNames h.variant_mem
  obtain ⟨known, hknown⟩ := c.assumed_withNames v
  constructor
  · rw [hnames, hknown]
    unfold Variant.withNames
    rw [← hv]
  · exact h.reads_of_missed hmiss

theorem attempt_lookup (c : ResponseCache) {v : Variant} (hv : v.names = []) (now : Time) :
    Attempt c (c.tried v now) v.key now (c.lookup v now) := by
  have hfirst := attempt_fetchVariant c (c.assumed v) v.key now
  rw [lookup_eq, tried]
  dsimp only
  generalize c.fetchVariant (c.assumed v) v.key (c.assumed v).key now = first at *
  split_ifs with hmiss
  -- the second attempt drops whatever names the first one put in place
  · simp only [Bool.and_eq_true, Option.isNone_iff_eq_none] at hmiss
    obtain ⟨hbase, hreads⟩ := missed_first hv hfirst hmiss.1
    rw [hbase, hreads]
    exact (attempt_fetchVariant _ v v.key now).of_reads
  · rw [List.append_nil]
    exact hfirst

theorem Attempt.readsAs {c : ResponseCache} {tried : List Variant} {base : Key} {now : Time}
    {l : Lookup} (h : Attempt c tried base now l) : ReadsAs now l.cache c := by
  cases h with
  | missed u hu => exact readsAs_reads c now _
  | hit u r hu hheld haccepts =>
    refine .trans (.of_store_eq ?_) (readsAs_reads c now (tried.map Variant.key))
    rfl

theorem Attempt.held {c : ResponseCache} {tried : List Variant} {base : Key} {now : Time}
    {l : Lookup} (h : Attempt c tried base now l) {r : Stored} (hr : l.hit = some r) :
    ∃ u ∈ tried, c.held? u.key now = some r := by
  cases h with
  | missed u hu => cases hr
  | hit u found hu hheld haccepts =>
    obtain rfl := Option.some.inj hr
    exact ⟨u, hu, hheld⟩

theorem lookup_spec (c : ResponseCache) {v : Variant} (hv : v.names = []) (now : Time) :
    ReadsAs now (c.lookup v now).cache c ∧
      (∃ names, (c.lookup v now).variant = v.withNames names) ∧
      ∀ r, (c.lookup v now).hit = some r → ∃ u ∈ c.tried v now, c.held? u.key now = some r := by
  have hattempt := c.attempt_lookup hv now
  exact ⟨hattempt.readsAs, tried_withNames hattempt.variant_mem, fun r hr => hattempt.held hr⟩

end ResponseCache

end Gateway.Cache
