import Gateway.Proofs.Cache.Answers
import Gateway.Proofs.Cache.Partition

/-! What a lookup has confirmed of its answer. Two responses may take part in it: the names that the
first declares lead to the second, and what the second declares is not looked at. -/
namespace Gateway.Cache

open Gateway.Http

/-- The response was recorded with the values that the request has for the names it declares, and
the lookup leaves these names in the index, or none when there are none. -/
structure Lookup.Confirms (l : Lookup) (q : RequestHead) (r : Stored) : Prop where
  values : ∀ n ∈ varyNames r.headers, r.recorded.firstBytes n = q.headers.firstBytes n
  noted : l.cache.index.known? (Variant.ofRequest q).key =
    if varyNames r.headers = [] then none else some (varyNames r.headers)

namespace ResponseCache

/-- A hit was led to by the names of a response under the key that the index or the request alone
gives. It is accepted for these names, and they are noted. -/
theorem lookup_of_hit {c : ResponseCache} {v : Variant} (hv : v.names = []) {now : Time}
    {r : Stored} (hhit : (c.lookup v now).hit = some r) :
    ∃ first,
      (c.held? (v.withNames (c.index.names v.key)).key now = some first ∨
        c.held? v.key now = some first) ∧
      (c.lookup v now).variant = v.withNames (varyNames first.headers) ∧
      c.held? (c.lookup v now).variant.key now = some r ∧
      (c.lookup v now).variant.accepts r.recorded = true ∧
      (c.lookup v now).cache.index = c.index.remember v.key (varyNames first.headers) := by
  have hanswer : (c.lookup v now).answer? = some ((c.lookup v now).variant, r) := by
    rw [Lookup.answer?, hhit]
    rfl
  rw [c.answer?_lookup hv, found?, Option.or_eq_some_iff] at hanswer
  have hfirst : ∃ k, (k = (v.withNames (c.index.names v.key)).key ∨ k = v.key) ∧
      c.answer? v k now = some ((c.lookup v now).variant, r) := by
    rcases hanswer with hdirect | ⟨-, hbase⟩
    · exact ⟨_, .inl rfl, hdirect⟩
    · exact ⟨_, .inr rfl, hbase⟩
  obtain ⟨k, hk, hfound⟩ := hfirst
  obtain ⟨first, hheld, hvariant, hunder, haccepts⟩ := answer?_eq_some_iff.mp hfound
  refine ⟨first, ?_, hvariant, hunder, haccepts, ?_⟩
  · rcases hk with rfl | rfl
    · exact .inl hheld
    · exact .inr hheld
  · have hnames : (c.lookup v now).variant.names = varyNames first.headers := by rw [hvariant]; rfl
    have hattempt := c.attempt_lookup hv now
    rw [← hnames]
    generalize c.lookup v now = l at hhit hattempt
    cases hattempt with
    | missed u hu => cases hhit
    | hit u r hu hheld haccepts => rfl

/-- What a lookup knows of its answer is what the names of the first response say: for these names
the recorded values are those of the request, and these names are noted. So the answer is confirmed
exactly when it declares the names of that response itself, as it does when it is that response. (An
index that holds an empty list, which is never noted, would go on holding it.) -/
theorem confirms_iff {c : ResponseCache} {q : RequestHead} {now : Time} {r : Stored}
    (hhit : (c.lookup (.ofRequest q) now).hit = some r) :
    let v := Variant.ofRequest q
    let l := c.lookup v now
    ∃ first,
      (c.held? (v.withNames (c.index.names v.key)).key now = some first ∨
        c.held? v.key now = some first) ∧
      c.held? (v.withNames (varyNames first.headers)).key now = some r ∧
      (∀ n ∈ varyNames first.headers, r.recorded.firstBytes n = q.headers.firstBytes n) ∧
      l.cache.index.names v.key = varyNames first.headers ∧
      (l.Confirms q r ↔ varyNames r.headers = varyNames first.headers ∧
        (varyNames r.headers = [] → c.index.known? v.key ≠ some [])) := by
  intro v l
  obtain ⟨first, hheld, hvariant, hunder, haccepts, hindex⟩ := lookup_of_hit rfl hhit
  have hvalues : ∀ n ∈ varyNames first.headers,
      r.recorded.firstBytes n = q.headers.firstBytes n := by
    rw [hvariant] at haccepts
    exact (Variant.accepts_iff _ _).mp haccepts
  have hnames : l.cache.index.names v.key = varyNames first.headers := by
    rw [hindex, VaryIndex.names_remember, if_pos rfl]
  have hknown : l.cache.index.known? v.key =
      if varyNames first.headers = [] ∧ c.index.known? v.key ≠ some [] then none
      else some (varyNames first.headers) := by
    rw [hindex, VaryIndex.known?_remember, if_pos rfl]
  refine ⟨first, hheld, hvariant ▸ hunder, hvalues, hnames, ?_⟩
  constructor
  · rintro ⟨-, hnoted⟩
    have hsame : varyNames r.headers = varyNames first.headers := by
      rw [← hnames, VaryIndex.names, hnoted]
      split_ifs with hempty
      · exact hempty
      · rfl
    refine ⟨hsame, fun hempty hkept => ?_⟩
    rw [hknown, ← hsame] at hnoted
    simp [hempty, hkept] at hnoted
  · rintro ⟨hsame, hkept⟩
    refine ⟨hsame ▸ hvalues, ?_⟩
    rw [hknown, ← hsame]
    by_cases hempty : varyNames r.headers = []
    · rw [if_pos ⟨hempty, hkept hempty⟩, if_pos hempty]
    · rw [if_neg fun h => hempty h.1, if_neg hempty]

/-- A cache that has nothing in its index, and holds these responses under the keys of these
variants. -/
def holding (held : List (Variant × Stored)) : ResponseCache :=
  let write (b : Metered) (p : Variant × Stored) := b.set p.1.key p.2.encode 60000 0 fun _ _ => 0
  ⟨held.foldl write ⟨.empty 100000 10000, []⟩, [], 1000⟩

/-- The response under the base key leads to one that declares the same name. -/
theorem confirms_of_same_names :
    let q := Variant.cookieRequest [.ofLatin1 "user=a" (by decide)]
    let v := Variant.ofRequest q
    let u := v.withNames [.acceptEncoding]
    let headers := Headers.ofFields [(.vary, .ofLatin1 "Accept-Encoding" (by decide))]
    let second : Stored := ⟨.ok, headers, [2], u.recorded⟩
    let l := (holding [(v, ⟨.ok, headers, [1], ∅⟩), (u, second)]).lookup v 0
    l.hit = some second ∧ l.Confirms q second := by
  intro q v u headers second l
  have hhit : l.hit = some second := by decide +kernel
  obtain ⟨first, hheld, -, -, -, hiff⟩ := confirms_iff hhit
  have hfirst : first = ⟨.ok, headers, [1], ∅⟩ := by
    have hbase : (holding [(v, ⟨.ok, headers, [1], ∅⟩), (u, second)]).held? v.key 0 =
        some ⟨.ok, headers, [1], ∅⟩ := by decide +kernel
    rcases hheld with hheld | hheld
    · exact Option.some.inj (hheld.symm.trans hbase)
    · exact Option.some.inj (hheld.symm.trans hbase)
  refine ⟨hhit, hiff.mpr ⟨?_, ?_⟩⟩
  · rw [hfirst]
  · intro _ h
    cases h

/-- The response under the base key leads to one that declares another name. It was recorded for
another user, and is the answer all the same. -/
theorem not_confirms_of_other_names :
    let q := Variant.cookieRequest [.ofLatin1 "user=a" (by decide)]
    let v := Variant.ofRequest q
    let u := v.withNames [.acceptEncoding]
    let first : Stored :=
      ⟨.ok, .ofFields [(.vary, .ofLatin1 "Accept-Encoding" (by decide))], [1], ∅⟩
    let foreign : Stored := ⟨.ok, .ofFields [(.vary, .ofLatin1 "Cookie" (by decide))], [2],
      .ofFields [(Variant.cookie, .ofLatin1 "user=b" (by decide))]⟩
    let l := (holding [(v, first), (u, foreign)]).lookup v 0
    l.hit = some foreign ∧ Variant.cookie ∈ varyNames foreign.headers ∧
      foreign.recorded.firstBytes Variant.cookie ≠
        q.headers.firstBytes Variant.cookie ∧
      l.cache.index.known? v.key = some [.acceptEncoding] ∧ ¬ l.Confirms q foreign := by
  intro q v u first foreign l
  have hhit : l.hit = some foreign := by decide +kernel
  have hdeclared : Variant.cookie ∈ varyNames foreign.headers := by decide +kernel
  have hother : foreign.recorded.firstBytes Variant.cookie ≠
      q.headers.firstBytes Variant.cookie := by decide +kernel
  have hnoted : l.cache.index.known? v.key = some [.acceptEncoding] := by decide +kernel
  exact ⟨hhit, hdeclared, hother, hnoted, fun h => hother (h.values Variant.cookie hdeclared)⟩

end ResponseCache

end Gateway.Cache
