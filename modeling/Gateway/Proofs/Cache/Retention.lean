import Gateway.Proofs.Cache.Answers
import Gateway.Proofs.Cache.Partition
import Gateway.Proofs.Cache.Passage
import Gateway.Proofs.Cache.Provenance
import Gateway.Proofs.Cache.RoundTrip
import Mathlib.Data.List.Induction

/-! What has been stored is found again. As long as the responses of one resource declare the same
names, lookups and stores of other requests never change what the index says of it, and a response
that the store still holds answers every request like the one it was made for. -/
namespace Gateway.Cache

open Gateway.Http

theorem VaryIndex.names_remember_same {index : VaryIndex} {base : Key} {ns : List HeaderName}
    (h : index.names base = ns) (k : Key) : (index.remember base ns).names k = index.names k := by
  rw [names_remember]
  split_ifs with hk
  · rw [hk, h]
  · rfl

namespace ResponseCache

/-- A lookup hits at once when the index has the names of what is held for the variant. -/
theorem lookup_of_names {c : ResponseCache} {v : Variant} (hv : v.names = []) {now : Time}
    {found : Stored} (hnames : c.index.names v.key = varyNames found.headers)
    (hheld : c.held? (v.withNames (varyNames found.headers)).key now = some found)
    (haccepts : (v.withNames (varyNames found.headers)).accepts found.recorded = true) :
    (c.lookup v now).hit = some found := by
  have hdirect : c.answer? v (v.withNames (varyNames found.headers)).key now =
      some (v.withNames (varyNames found.headers), found) :=
    answer?_eq_some_iff.mpr ⟨found, hheld, rfl, hheld, haccepts⟩
  rw [c.hit_lookup hv, hnames, found?, hdirect]
  rfl

end ResponseCache

/-- A request that names no entity tag gets the whole response. -/
theorem Stored.replay_of_unconditional (r : Stored) {request : Headers}
    (h : request.values .ifNoneMatch = []) :
    (r.replay request).1.status = r.status ∧ (r.replay request).2 = r.body := by
  have hnone : r.etagMatches request = false := by
    unfold etagMatches
    rw [h]
    cases r.headers.get? .etag <;> rfl
  unfold replay
  rw [hnone]
  exact ⟨rfl, rfl⟩

theorem Deposit.variant_mem_keyed (d : Deposit) : d.variant ∈ d.keyed := by simp [keyed]

def Deposit.response (d : Deposit) : Stored := ⟨d.status, d.headers, d.body, d.variant.recorded⟩

namespace Traffic

/-- Of all the variants whose keys the run takes, different octets have different hashes. -/
def KeysApart (w : Traffic) (events : List Event) : Prop :=
  ∀ a ∈ w.gather keyed events, ∀ b ∈ w.gather keyed events, a.key = b.key →
    a.hashInput = b.hashInput

instance (w : Traffic) (events : List Event) : Decidable (w.KeysApart events) :=
  inferInstanceAs (Decidable (∀ a ∈ _, ∀ b ∈ _, _ → _))

/-- What a lookup of the request finds under the key of a variant was deposited for the same resource,
and declares the names of the variant. -/
theorem Traced.deposit_of_held {w : Traffic} (h : w.Traced) {r : RequestHead}
    (hkeys : w.Collisionless r) {u : Variant} (hu : u ∈ w.cache.tried (.ofRequest r) w.now)
    {stored : Stored} (hheld : w.cache.held? u.key w.now = some stored) :
    ∃ d ∈ w.deposits, w.cache.backend.store.get? u.key w.now = some d.blob ∧
      Stored.decode d.blob = .ok stored ∧ d.expires?.isSome ∧
      (Variant.ofRequest d.request).SameResource (.ofRequest r) ∧
      varyNames d.headers = u.names := by
  obtain ⟨blob, hblob, hdecode⟩ := ResponseCache.held?_eq_some.mp hheld
  obtain ⟨d, hd, hkey, rfl, e, hexpires, -⟩ :=
    h.deposited u.key blob w.now (Nat.le_refl w.now) hblob
  have hinput : d.variant.hashInput = u.hashInput := hkeys d hd u hu hkey
  obtain ⟨names, rfl⟩ := ResponseCache.tried_withNames hu
  obtain ⟨hresource, hnames, -⟩ := (Variant.hashInput_withNames_eq_iff _ _ _ _).mp hinput
  exact ⟨d, hd, hblob, hdecode, by rw [hexpires]; rfl, hresource, hnames⟩

/-- All the responses handed over for one base key declare the same names. -/
def UniformVary (w : Traffic) : Prop :=
  ∀ a ∈ w.deposits, ∀ b ∈ w.deposits,
    (Variant.ofRequest a.request).key = (Variant.ofRequest b.request).key →
      ∀ n, n ∈ varyNames a.headers ↔ n ∈ varyNames b.headers

theorem uniformVary_iff {w : Traffic} : w.UniformVary ↔ ∀ a ∈ w.deposits, ∀ b ∈ w.deposits,
    (Variant.ofRequest a.request).key = (Variant.ofRequest b.request).key →
      varyNames a.headers = varyNames b.headers := by
  refine forall₂_congr fun a _ => forall₂_congr fun b _ => imp_congr_right fun _ => ?_
  exact ⟨varyNames_eq_of_mem_iff, fun heq n => by rw [heq]⟩

instance (w : Traffic) : Decidable w.UniformVary := decidable_of_iff _ uniformVary_iff.symm

/-- The index has the names of every response that was stored, kept or not. -/
def Indexed (w : Traffic) : Prop :=
  ∀ d ∈ w.deposits, d.expires?.isSome →
    w.cache.index.names (Variant.ofRequest d.request).key = varyNames d.headers

section Steps
variable {w : Traffic} {seen : List Variant} (h : w.Indexed)
  (hseen : ∀ d ∈ w.deposits, ∀ u ∈ d.keyed, u ∈ seen)
include h

include hseen in
/-- A hit was deposited for the same resource, so the names that the lookup notes are there
already. -/
theorem Indexed.names_lookup (hw : w.Traced) {r : RequestHead}
    (hapart : ∀ a ∈ seen, ∀ b ∈ w.cache.tried (.ofRequest r) w.now, a.key = b.key →
      a.hashInput = b.hashInput) (k : Key) :
    (w.cache.lookup (.ofRequest r) w.now).cache.index.names k = w.cache.index.names k := by
  have hattempt := w.cache.attempt_lookup (v := .ofRequest r) rfl w.now
  generalize w.cache.lookup (.ofRequest r) w.now = found at hattempt
  cases hattempt with
  | missed u hu => rw [ResponseCache.index_reads]
  | hit u stored hu hheld haccepts =>
    have hkeys : w.Collisionless r := fun d hd =>
      hapart d.variant (hseen d hd d.variant d.variant_mem_keyed)
    obtain ⟨d, hd, -, -, hexpires, hresource, hnames⟩ := hw.deposit_of_held hkeys hu hheld
    refine VaryIndex.names_remember_same ?_ k
    rw [← hresource.key_eq, h d hd hexpires]
    exact hnames

/-- A store notes the names that every deposit for the base key declares. -/
theorem Indexed.names_store {d : Deposit} (huniform : ∀ e ∈ w.deposits,
      (Variant.ofRequest e.request).key = (Variant.ofRequest d.request).key →
        varyNames e.headers = varyNames d.headers)
    (draws : Draws) {e : Deposit} (he : e ∈ d :: w.deposits) (hstored : e.expires?.isSome) :
    (w.cache.store d.exchange d.body d.time draws).index.names (Variant.ofRequest e.request).key =
      varyNames e.headers := by
  cases hlife : d.expires? with
  | none =>
    rw [w.cache.index_store_of_none hlife]
    rcases List.mem_cons.mp he with rfl | he
    · simp [hlife] at hstored
    · exact h e he hstored
  | some expires =>
    rw [w.cache.index_store_deposit hlife, VaryIndex.names_remember]
    rcases List.mem_cons.mp he with rfl | he
    · rw [if_pos rfl]
    · split_ifs with hbase
      · exact (huniform e he hbase).symm
      · exact h e he hstored

include hseen in
theorem Indexed.effect {w' : Traffic} {calls : List Call} {keyed : List Variant}
    (heffect : Effect w calls keyed w') (hw : w.Traced) (huniform : w'.UniformVary)
    (hapart : ∀ a ∈ seen, ∀ b ∈ keyed, a.key = b.key → a.hashInput = b.hashInput) :
    w'.Indexed := by
  have hsame : w'.deposits = w.deposits → (∀ k, w'.cache.index.names k = w.cache.index.names k) →
      w'.Indexed := by
    intro hdeposits hnames d hd hstored
    rw [hdeposits] at hd
    rw [hnames]
    exact h d hd hstored
  cases heffect with
  | looked r w' hcache hdeposits hnow =>
    refine hsame hdeposits fun k => ?_
    rw [hcache.index]
    exact h.names_lookup hseen hw (fun a ha b hb => hapart a ha b (List.mem_cons_of_mem _ hb)) k
  | deposited d draws w' htime hcache hdeposits hnow =>
    intro e he hstored
    have hd : d ∈ w'.deposits := by simp [hdeposits]
    have hnames := uniformVary_iff.mp huniform
    rw [hcache.index]
    refine h.names_store (fun f hf => hnames f ?_ d hd) draws (hdeposits ▸ he) hstored
    rw [hdeposits]
    exact List.mem_cons_of_mem d hf
  | swept w' hstore hindex hdeposits hnow =>
    exact hsame hdeposits fun k => by rw [hindex]
  | idle w' hcache hdeposits hnow =>
    exact hsame hdeposits fun k => by rw [hcache.index]

end Steps

theorem KeysApart.of_append {w : Traffic} {events rest : List Event}
    (h : w.KeysApart (events ++ rest)) : w.KeysApart events := by
  intro a ha b hb
  rw [KeysApart, gather_append] at h
  exact h a (List.mem_append_left _ ha) b (List.mem_append_left _ hb)

/-- The keys that the last step takes are apart from those of the steps before. -/
theorem KeysApart.of_concat {w : Traffic} {events : List Event} {event : Event}
    (h : w.KeysApart (events ++ [event])) : ∀ a ∈ w.gather keyed events,
      ∀ b ∈ (w.run events).keyed event, a.key = b.key → a.hashInput = b.hashInput := by
  intro a ha b hb
  rw [KeysApart, gather_append] at h
  refine h a (List.mem_append_left _ ha) b (List.mem_append_right _ ?_)
  rw [gather, gather, List.append_nil]
  exact hb

/-- In a run that begins without deposits, the keys of all that is deposited have been taken. -/
theorem keyed_of_deposits {w : Traffic} (h : w.Known) (hnone : w.deposits = [])
    (events : List Event) :
    ∀ d ∈ (w.run events).deposits, ∀ u ∈ d.keyed, u ∈ w.gather keyed events := by
  intro d hd
  rcases keyed_run h events hd with hbefore | hseen
  · rw [hnone] at hbefore
    cases hbefore
  · exact hseen

theorem run_concat (w : Traffic) (events : List Event) (event : Event) :
    w.run (events ++ [event]) = (w.run events).step event := by
  unfold run
  rw [List.foldl_append]
  rfl

/-- The index agrees with all that is deposited in a run that begins without deposits. -/
theorem indexed_run {w : Traffic} (h : w.Traced) (hnone : w.deposits = []) {events : List Event}
    (hkeys : w.KeysApart events) (huniform : (w.run events).UniformVary) :
    (w.run events).Indexed := by
  -- from the end, as only the last state has all the deposits that the assumptions speak of
  induction events using List.reverseRecOn with
  | nil =>
    intro d hd
    rw [show w.run [] = w from rfl, hnone] at hd
    cases hd
  | append_singleton events event ih =>
    have hw := h.run events
    obtain ⟨-, heffect⟩ := step_spec hw.known event
    obtain ⟨ds, hds, -⟩ := heffect.deposits_eq
    rw [run_concat] at huniform ⊢
    have hold : ∀ d ∈ (w.run events).deposits, d ∈ ((w.run events).step event).deposits := by
      intro d hd
      rw [hds]
      exact List.mem_append_right ds hd
    have huniform' : (w.run events).UniformVary := fun a ha b hb =>
      huniform a (hold a ha) b (hold b hb)
    exact (ih hkeys.of_append huniform').effect (keyed_of_deposits h.known hnone events) heffect hw
      huniform hkeys.of_concat

/-- When the index agrees with the deposits, a lookup finds what is held for a deposit like the
request. -/
theorem Indexed.lookup_deposit {w : Traffic} (h : w.Indexed) {d : Deposit} (hd : d ∈ w.deposits)
    (hstored : d.expires?.isSome) (hfits : d.response.Fits)
    (hget : w.cache.backend.store.get? d.variant.key w.now = some d.blob) {q : RequestHead}
    (hresource : (Variant.ofRequest d.request).SameResource (.ofRequest q))
    (hvalues : ∀ n ∈ varyNames d.headers, d.request.headers.firstBytes n = q.headers.firstBytes n) :
    (w.cache.lookup (.ofRequest q) w.now).hit = some d.response.withoutCookies := by
  have hvary : varyNames d.response.withoutCookies.headers = varyNames d.headers :=
    varyNames_erase (by decide) d.headers
  have hinput : d.variant.hashInput =
      ((Variant.ofRequest q).withNames (varyNames d.headers)).hashInput :=
    (Variant.hashInput_withNames_eq_iff _ _ _ _).mpr ⟨hresource, rfl, hvalues⟩
  have hsame : d.variant.names =
      ((Variant.ofRequest q).withNames (varyNames d.headers)).names := rfl
  refine ResponseCache.lookup_of_names rfl ?_ ?_ ?_
  · rw [hvary, ← hresource.key_eq]
    exact h d hd hstored
  · rw [hvary, ResponseCache.held?_eq_some]
    unfold Variant.key at hget ⊢
    exact ⟨d.blob, hinput ▸ hget, Stored.decode_encode hfits⟩
  · rw [hvary]
    exact (Variant.accepts_recorded_iff hsame).mpr hvalues

/-- While the store holds what was written for a deposit, and a blob can hold the response, every
request for the same resource with the same first values of the headers that the response varies on
is answered from it, and nothing behind the cache is called. The answer has the headers of the
origin without its cookies; when the request names no entity tag it has the status and the body as
well. -/
theorem answered_while_stored (capacity maxItemSize maxBody : Nat) (metrics : Metrics) (start : Time)
    (events : List Event) (d : Deposit) (expires : Time) (q : RequestHead) :
    let w₀ := fresh capacity maxItemSize maxBody metrics start
    let w := w₀.run events
    w₀.KeysApart events → w.UniformVary →
    d ∈ w.deposits → d.response.Fits → d.expires? = some expires →
    w₀.cache.backend.LastWrite (w₀.gather calls events) d.variant.key d.blob expires →
    w.now < expires →
    (Variant.ofRequest d.request).SameResource (.ofRequest q) →
    (∀ n ∈ varyNames d.headers, d.request.headers.firstBytes n = q.headers.firstBytes n) →
    ∃ head body,
      (∀ {σ ε : Type} (inner : Service σ ε) (content : Body) (s : σ), ∃ after,
        w.cache.serve inner q content w.now s = (.ok ⟨head, .whole body, none⟩, s, after)) ∧
      (∀ n, head.headers.values n =
        if n = .xCache then [Stored.hitMark]
        else if n = .setCookie then [] else d.headers.values n) ∧
      (q.headers.values .ifNoneMatch = [] → head.status = d.status ∧ body = d.body) := by
  intro w₀ w hkeys huniform hd hfits hexpires hlast hlive hresource hvalues
  have hw₀ : w₀.Traced := traced_fresh capacity maxItemSize maxBody metrics start
  obtain ⟨hstore, htimes, -⟩ := store_run hw₀.known events
  have hindexed : w.Indexed := indexed_run hw₀ rfl hkeys huniform
  have hget : w.cache.backend.store.get? d.variant.key w.now = some d.blob := by
    rw [hstore]
    exact (Metered.get?_run hw₀.consistent htimes d.variant.key d.blob).mpr
      (.inl ⟨expires, hlast, hlive⟩)
  let found := d.response.withoutCookies
  have hhit : (w.cache.lookup (.ofRequest q) w.now).hit = some found :=
    hindexed.lookup_deposit hd (by rw [hexpires]; rfl) hfits hget hresource hvalues
  refine ⟨(found.replay q.headers).1, (found.replay q.headers).2, ?_, ?_, ?_⟩
  · intro σ ε inner content s
    exact ⟨_, ResponseCache.serve_of_hit hhit⟩
  · intro n
    rw [ResponseCache.values_replay found q.headers n]
    exact congrArg _ (d.headers.values_erase .setCookie n)
  · exact found.replay_of_unconditional

/-- Another variant of the resource and another resource are stored, the store is swept and the other
variant read before the first one is asked for again, just before the end of its lifetime. -/
theorem answered_while_stored_beside_others :
    let request (path : Bytes) (h : path.all isPathByte = true) (encoding : HeaderValue) :
        RequestHead :=
      ⟨.get, ⟨none, none, path, none, h, by simp⟩, .ofFields [(.acceptEncoding, encoding)]⟩
    let gzip := request [47] (by decide) (.ofLatin1 "gzip" (by decide))
    let brotli := request [47] (by decide) (.ofLatin1 "br" (by decide))
    let elsewhere := request [47, 97] (by decide) (.ofLatin1 "br" (by decide))
    let maxAge := (HeaderName.cacheControl, HeaderValue.ofLatin1 "public, max-age=60" (by decide))
    let varying : ResponseHead := ⟨.ok, .ofFields [maxAge,
      (.setCookie, .ofLatin1 "session=1" (by decide)),
      (.vary, .ofLatin1 "Accept-Encoding" (by decide))]⟩
    let draws : Draws := fun _ _ => 0
    let events : List Event := [
      .receive gzip, .respond 0 varying (.whole [1, 2, 3]) draws, .poll 0 draws,
      .receive brotli, .respond 0 varying (.whole [4]) draws, .poll 1 draws,
      .receive elsewhere, .respond 0 ⟨.ok, .ofFields [maxAge]⟩ (.whole [5]) draws, .poll 2 draws,
      .purge, .advance 59999, .receive brotli]
    let w₀ := fresh 1000 1000 100 [] 0
    let w := w₀.run events
    let d : Deposit := ⟨gzip, .ok, varying.headers, [1, 2, 3], 0⟩
    let q : RequestHead :=
      { gzip with headers := gzip.headers.insert .userAgent (.ofLatin1 "b" (by decide)) }
    let refusing : Service Unit Unit := fun _ _ s => (.error (), s)
    (w₀.KeysApart events ∧ w.UniformVary ∧ d ∈ w.deposits ∧ d.response.Fits ∧
      w₀.cache.backend.LastWrite (w₀.gather calls events) d.variant.key d.blob 60000 ∧
      w.now < 60000) ∧
    ∃ head body, (w.cache.serve refusing q .empty w.now ()).1 = .ok ⟨head, .whole body, none⟩ ∧
      head.headers.values .xCache = [Stored.hitMark] ∧ head.headers.values .setCookie = [] ∧
      head.status = .ok ∧ body = [1, 2, 3] := by
  intro request gzip brotli elsewhere maxAge varying draws events w₀ w d q refusing
  have hkeys : w₀.KeysApart events := by decide +kernel
  have huniform : w.UniformVary := by decide +kernel
  have hd : d ∈ w.deposits := by decide +kernel
  have hfits : d.response.Fits := Stored.fits_of_length_encode (by decide +kernel)
  have hexpires : d.expires? = some 60000 := by decide +kernel
  have hlast : w₀.cache.backend.LastWrite (w₀.gather calls events) d.variant.key d.blob 60000 := by
    decide +kernel
  have hlive : w.now < 60000 := by decide +kernel
  have hresource : (Variant.ofRequest d.request).SameResource (.ofRequest q) := by
    constructor <;> decide +kernel
  obtain ⟨head, body, hserve, hvalues, hwhole⟩ :=
    answered_while_stored 1000 1000 100 [] 0 events d 60000 q hkeys huniform hd hfits hexpires hlast
      hlive hresource (by decide +kernel)
  obtain ⟨after, hserve⟩ := hserve refusing .empty ()
  obtain ⟨hstatus, hbody⟩ := hwhole (by decide +kernel)
  refine ⟨⟨hkeys, huniform, hd, hfits, hlast, hlive⟩, head, body, congrArg Prod.fst hserve, ?_⟩
  exact ⟨hvalues .xCache, hvalues .setCookie, hstatus, hbody⟩

end Traffic

end Gateway.Cache
