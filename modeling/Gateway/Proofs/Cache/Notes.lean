import Gateway.Proofs.Cache.Confirmation
import Gateway.Proofs.Cache.DeclaredNames
import Gateway.Proofs.Cache.Retention

/-! What the index tells of a run. Hits and stores take note of a response under a base key; all
else leaves the index as it was. For each base key it has the names that the last noted response
declares. -/
namespace Gateway.Cache

open Gateway.Http

namespace VaryIndex

/-- Each base key has one list of names, which is not empty and ascends strictly. -/
structure Kept (index : VaryIndex) : Prop where
  keys_nodup : (index.map Prod.fst).Nodup
  names_ne_nil : ∀ p ∈ index, p.2 ≠ []
  ascending : ∀ p ∈ index, p.2.Pairwise fun a b => a.bytes < b.bytes

theorem Kept.nil : Kept [] where
  keys_nodup := .nil
  names_ne_nil _ hp := (List.not_mem_nil hp).elim
  ascending _ hp := (List.not_mem_nil hp).elim

theorem Kept.known?_ne {index : VaryIndex} (h : index.Kept) (base : Key) :
    index.known? base ≠ some [] := fun hknown =>
  h.names_ne_nil (base, []) (mem_of_lookup hknown) rfl

theorem Kept.nodup {index : VaryIndex} (h : index.Kept) {p : Key × List HeaderName}
    (hp : p ∈ index) : p.2.Nodup :=
  (h.ascending p hp).imp fun hlt heq => by
    rw [heq] at hlt
    exact List.lt_irrefl _ hlt

def note (index : VaryIndex) (p : Key × Headers) : VaryIndex := index.remember p.1 (varyNames p.2)

theorem Kept.note {index : VaryIndex} (h : index.Kept) (p : Key × Headers) :
    (index.note p).Kept := by
  have hsublist : (index.filter (·.1 != p.1)).Sublist index := List.filter_sublist
  have hrest : VaryIndex.Kept (index.filter (·.1 != p.1)) :=
    ⟨h.keys_nodup.sublist (hsublist.map Prod.fst),
      fun q hq => h.names_ne_nil q (hsublist.subset hq),
      fun q hq => h.ascending q (hsublist.subset hq)⟩
  unfold VaryIndex.note remember
  split_ifs with hknown hempty
  · exact h
  · exact hrest
  · refine ⟨?_, fun q hq => ?_, fun q hq => ?_⟩
    · refine List.nodup_cons.mpr ⟨fun hmem => ?_, hrest.keys_nodup⟩
      obtain ⟨q, hq, hbase⟩ := List.mem_map.mp hmem
      simpa [hbase] using (List.mem_filter.mp hq).2
    · rcases List.mem_cons.mp hq with rfl | hq
      · rwa [List.isEmpty_iff] at hempty
      · exact hrest.names_ne_nil q hq
    · rcases List.mem_cons.mp hq with rfl | hq
      · exact (pairwise_varyNames p.2).imp bytes_lt_of_before
      · exact hrest.ascending q hq

theorem Kept.foldl_note {index : VaryIndex} (h : index.Kept) (notes : List (Key × Headers)) :
    (notes.foldl VaryIndex.note index).Kept := by
  induction notes generalizing index with
  | nil => exact h
  | cons p rest ih => exact ih (h.note p)

/-- The headers of the last response that was noted under the base key. -/
def lastUnder? (notes : List (Key × Headers)) (base : Key) : Option Headers :=
  notes.reverse.lookup base

theorem lastUnder?_concat (notes : List (Key × Headers)) (p : Key × Headers) (base : Key) :
    lastUnder? (notes ++ [p]) base = if base = p.1 then some p.2 else lastUnder? notes base := by
  unfold lastUnder?
  rw [List.reverse_concat, List.lookup_cons]
  split_ifs with hbase
  · simp [hbase]
  · rw [beq_eq_false_iff_ne.mpr hbase]

/-- An index that began empty tells of each base key what was noted last, and nothing when that
response declares no names. -/
theorem known?_foldl_note (notes : List (Key × Headers)) (base : Key) :
    known? (notes.foldl note []) base =
      ((lastUnder? notes base).map varyNames).filter (· ≠ []) := by
  induction notes using List.reverseRecOn with
  | nil => rfl
  | append_singleton notes p ih =>
    have hkept := Kept.nil.foldl_note notes
    rw [List.foldl_concat, note, known?_remember, lastUnder?_concat]
    split_ifs with hbase hempty
    · simp [hempty.1, Option.filter_some]
    · have hdeclares : varyNames p.2 ≠ [] := fun hnone => hempty ⟨hnone, hkept.known?_ne p.1⟩
      simp [hdeclares, Option.filter_some]
    · exact ih

end VaryIndex

theorem Store.Consistent.length_le_of_get? {s : Store} (hs : s.Consistent) {k : Key} {now : Time}
    {value : Bytes} (h : s.get? k now = some value) : value.length ≤ s.maxItemSize := by
  rw [Store.get?_eq_item?, Option.map_eq_some_iff] at h
  obtain ⟨item, hitem, rfl⟩ := h
  exact hs.item_le k item (Option.eq_some_of_filter_eq_some hitem)

/-- What the index notes of a deposit. A response without a lifetime is not stored, so not noted. -/
def Deposit.noted (d : Deposit) : List (Key × Headers) :=
  if d.expires?.isSome then [((Variant.ofRequest d.request).key, d.headers)] else []

namespace ResponseCache

theorem index_store_noted (c : ResponseCache) (d : Deposit) (draws : Draws) :
    (c.store d.exchange d.body d.time draws).index = d.noted.foldl VaryIndex.note c.index := by
  unfold Deposit.noted
  cases hexpires : d.expires? with
  | none => exact c.index_store_of_none hexpires draws
  | some expires => exact c.index_store_deposit hexpires draws

theorem index_lookup_of_miss {c : ResponseCache} {v : Variant} (hv : v.names = []) {now : Time}
    (hmiss : (c.lookup v now).hit = none) : (c.lookup v now).cache.index = c.index := by
  rw [(c.attempt_lookup hv now).reads_of_missed hmiss, index_reads]

/-- A lookup notes the names of one response at most, which need not be the one it answers with. -/
theorem kept_lookup {c : ResponseCache} (h : c.index.Kept) {v : Variant} (hv : v.names = [])
    (now : Time) : (c.lookup v now).cache.index.Kept := by
  cases hhit : (c.lookup v now).hit with
  | none =>
    rw [index_lookup_of_miss hv hhit]
    exact h
  | some stored =>
    obtain ⟨first, -, -, -, -, hindex⟩ := lookup_of_hit hv hhit
    rw [hindex]
    exact h.note (v.key, first.headers)

end ResponseCache

namespace Traffic

/-- The responses that a step notes: those that it hands to the store, or the one that it answers
with. -/
def noted (w : Traffic) : Event → List (Key × Headers)
  | .receive r => match (w.cache.lookup (.ofRequest r) w.now).hit with
    | some stored => [((Variant.ofRequest r).key, stored.headers)]
    | none => []
  | event => (w.added event).flatMap Deposit.noted

theorem index_receive (w : Traffic) (r : RequestHead) :
    (w.receive r).cache.index = (w.cache.lookup (.ofRequest r) w.now).cache.index := by
  unfold receive ResponseCache.receive
  dsimp only
  cases (w.cache.lookup (.ofRequest r) w.now).hit <;> rfl

/-- Only a lookup and a store touch the index, and a store notes what it is handed. -/
theorem Effect.index_eq {w w' : Traffic} {calls : List Call} {keyed : List Variant}
    (h : Effect w calls keyed w') {ds : List Deposit} (hds : w'.deposits = ds ++ w.deposits)
    (hkeyed : keyed = ds.flatMap Deposit.keyed) :
    w'.cache.index = (ds.flatMap Deposit.noted).foldl VaryIndex.note w.cache.index := by
  have hnone : w'.deposits = w.deposits → ds = [] := fun hsame =>
    List.self_eq_append_left.mp (hsame.symm.trans hds)
  cases h with
  | looked r w' hcache hdeposits hnow =>
    obtain rfl := hnone hdeposits
    cases hkeyed
  | deposited d draws w' htime hcache hdeposits hnow =>
    have hone : [d] = ds := List.append_cancel_right (hdeposits.symm.trans hds)
    rw [← hone, hcache.index, w.cache.index_store_noted d draws, List.flatMap_singleton]
  | swept w' hstore hindex hdeposits hnow =>
    obtain rfl := hnone hdeposits
    exact hindex
  | idle w' hcache hdeposits hnow =>
    obtain rfl := hnone hdeposits
    exact hcache.index

/-- A step that is no lookup notes what it hands to the store. -/
theorem index_step_of_ne_receive {w : Traffic} (h : w.Known) {event : Event}
    (hevent : ∀ r, event ≠ .receive r) :
    (w.step event).cache.index =
      ((w.added event).flatMap Deposit.noted).foldl VaryIndex.note w.cache.index := by
  obtain ⟨-, heffect⟩ := step_spec h event
  obtain ⟨ds, hds, -⟩ := heffect.deposits_eq
  rw [added_eq hds]
  refine heffect.index_eq hds ?_
  rw [← added_eq hds]
  cases event with
  | receive r => exact (hevent r rfl).elim
  | purge => simp [keyed, added, step]
  | respond i head body draws | fail i | poll i draws | advance ms => rfl

theorem Known.kept_step {w : Traffic} (h : w.Known) (hkept : w.cache.index.Kept) (event : Event) :
    (w.step event).cache.index.Kept := by
  by_cases hevent : ∃ r, event = .receive r
  · obtain ⟨r, rfl⟩ := hevent
    rw [step, index_receive]
    exact ResponseCache.kept_lookup hkept rfl w.now
  · push Not at hevent
    rw [index_step_of_ne_receive h hevent]
    exact hkept.foldl_note _

theorem Known.kept_run {w : Traffic} (h : w.Known) (hkept : w.cache.index.Kept)
    (events : List Event) : (w.run events).cache.index.Kept := by
  induction events generalizing w with
  | nil => exact hkept
  | cons event rest ih => exact ih (step_spec h event).1 (h.kept_step hkept event)

/-- Nothing is noted: a lookup that misses, a failed request, a response that is passed on without
a capture or whose body is not handed over, a poll that does not end a capture. -/
def Unnoted (w : Traffic) : Event → Prop
  | .receive r => (w.cache.lookup (.ofRequest r) w.now).hit = none
  | .respond i head body _ => ∀ x, w.waiting[i]? = some x →
    x.cacheable = false ∨ mayStore head.status head.headers = false ∨
      (Capture.start body w.cache.maxBody).captured = none
  | .poll i _ => ∀ c, w.capturing[i]? = some c →
    c.capture.captured.isSome ∨ c.capture.poll.2.captured = none
  | .fail _ | .purge | .advance _ => True

theorem Unnoted.deposits_step {w : Traffic} {event : Event} (h : w.Unnoted event)
    (hevent : ∀ r, event ≠ .receive r) : (w.step event).deposits = w.deposits := by
  cases event with
  | receive r => exact (hevent r rfl).elim
  | fail i | purge | advance ms => rfl
  | respond i head body draws =>
    unfold step
    dsimp only
    cases hx : w.waiting[i]? with
    | none => rfl
    | some x =>
      dsimp only
      unfold respond ResponseCache.relay
      rcases h x hx with hbypass | hunstorable | hkept
      · simp [hbypass]
      · cases x.cacheable <;> simp [hunstorable]
      · cases x.cacheable
        · simp
        · cases mayStore head.status head.headers <;> simp [settle, hkept]
  | poll i draws =>
    unfold step
    dsimp only
    cases hc : w.capturing[i]? with
    | none => rfl
    | some c =>
      dsimp only
      unfold poll
      dsimp only
      split_ifs with hdone
      · rfl
      · have hpending : c.capture.poll.2.captured = none := (h c hc).resolve_left hdone
        simp [settle, hpending]

theorem Unnoted.index_step {w : Traffic} (hw : w.Known) {event : Event} (h : w.Unnoted event) :
    (w.step event).cache.index = w.cache.index := by
  by_cases hevent : ∃ r, event = .receive r
  · obtain ⟨r, rfl⟩ := hevent
    rw [step, index_receive]
    exact ResponseCache.index_lookup_of_miss rfl h
  · push Not at hevent
    have hadded : w.added event = [] := added_eq (h.deposits_step hevent)
    rw [index_step_of_ne_receive hw hevent, hadded]
    rfl

/-- A blob has wide enough forms for the headers of every response that the store has room for. -/
def Legible (w : Traffic) : Prop :=
  ∀ d ∈ w.deposits, d.blob.length ≤ w.cache.backend.store.maxItemSize →
    Stored.FieldsFit d.response.withoutCookies.headers

instance (w : Traffic) : Decidable w.Legible :=
  inferInstanceAs (Decidable (∀ d ∈ _, _ → _))

/-- It always has when no item may have four gigabytes. -/
theorem legible_of_maxItemSize {w : Traffic}
    (h : w.cache.backend.store.maxItemSize < UInt32.size) : w.Legible := by
  intro d _ hroom
  have hlength : d.response.encode.length < UInt32.size := Nat.lt_of_le_of_lt hroom h
  exact (Stored.fits_of_length_encode hlength).headers

theorem maxItemSize_run {w : Traffic} (h : w.Known) (events : List Event) :
    (w.run events).cache.backend.store.maxItemSize = w.cache.backend.store.maxItemSize := by
  rw [(store_run h events).1]
  exact (Metered.limits_run _ _).2

theorem Legible.of_run {w : Traffic} (h : w.Known) (events : List Event)
    (hlegible : (w.run events).Legible) : w.Legible := by
  intro d hd hroom
  refine hlegible d (mem_deposits_run h events hd) ?_
  rwa [maxItemSize_run h events]

/-- What is found under the key of a variant gives its headers back, and they declare the names of
the variant. -/
theorem Traced.varyNames_of_held {w : Traffic} (h : w.Traced) (hlegible : w.Legible)
    {r : RequestHead} (hkeys : w.Collisionless r) {u : Variant}
    (hu : u ∈ w.cache.tried (.ofRequest r) w.now) {stored : Stored}
    (hheld : w.cache.held? u.key w.now = some stored) : varyNames stored.headers = u.names := by
  obtain ⟨d, hd, hblob, hdecode, -, -, hnames⟩ := h.deposit_of_held hkeys hu hheld
  have hroom : d.blob.length ≤ w.cache.backend.store.maxItemSize :=
    h.consistent.length_le_of_get? hblob
  rw [Stored.headers_of_decode_encode (hlegible d hd hroom) hdecode, ← hnames]
  exact varyNames_erase (by decide) d.headers

/-- When different octets have different keys, a step notes what it stores or answers with. -/
theorem Traced.index_step {w : Traffic} (h : w.Traced) (hlegible : w.Legible) {event : Event}
    (hapart : ∀ d ∈ w.deposits, ∀ u ∈ w.keyed event,
      d.variant.key = u.key → d.variant.hashInput = u.hashInput) :
    (w.step event).cache.index = (w.noted event).foldl VaryIndex.note w.cache.index := by
  cases event with
  | receive r =>
    rw [step, index_receive, noted]
    cases hhit : (w.cache.lookup (.ofRequest r) w.now).hit with
    | none => exact ResponseCache.index_lookup_of_miss rfl hhit
    | some stored =>
      have hmem := (w.cache.attempt_lookup (v := .ofRequest r) rfl w.now).variant_mem
      obtain ⟨first, -, hvariant, hheld, -, hindex⟩ := ResponseCache.lookup_of_hit rfl hhit
      have hkeys : w.Collisionless r := fun d hd u hu =>
        hapart d hd u (List.mem_cons_of_mem _ hu)
      have hnames := h.varyNames_of_held hlegible hkeys hmem hheld
      have hnoted : varyNames stored.headers = varyNames first.headers := by
        rw [hnames, hvariant]
        rfl
      rw [hindex, ← hnoted]
      rfl
  | respond i head body draws | fail i | poll i draws | purge | advance ms =>
    refine index_step_of_ne_receive h.known fun r hr => ?_
    cases hr

/-- Over a run that begins without deposits, the index is the one that its notes leave. -/
theorem index_run {w : Traffic} (h : w.Traced) (hnone : w.deposits = []) {events : List Event}
    (hkeys : w.KeysApart events) (hlegible : (w.run events).Legible) :
    (w.run events).cache.index = (w.gather noted events).foldl VaryIndex.note w.cache.index := by
  -- from the end, as the keys of a lookup are apart from those of all deposits before it
  induction events using List.reverseRecOn with
  | nil => rfl
  | append_singleton events event ih =>
    have hw := h.run events
    have hbefore : (w.run events).Legible := by
      rw [run_concat] at hlegible
      exact Legible.of_run hw.known [event] hlegible
    have hapart : ∀ d ∈ (w.run events).deposits, ∀ u ∈ (w.run events).keyed event,
        d.variant.key = u.key → d.variant.hashInput = u.hashInput := fun d hd =>
      hkeys.of_concat _ (keyed_of_deposits h.known hnone events d hd _ d.variant_mem_keyed)
    rw [run_concat, hw.index_step hbefore hapart, ih hkeys.of_append hbefore, gather_append,
      List.foldl_append, gather, gather, List.append_nil]

/-- The index never holds an empty list, nor two for one base key; its lists ascend strictly, so no
name is there twice. Nothing but a hit and a store changes it. When different octets have different
keys, it has for each base key the names that the response of the last hit or store under this key
declares, and nothing when there was none or it declares none. -/
theorem index_tells_last_noted (capacity maxItemSize maxBody : Nat) (metrics : Metrics)
    (start : Time) (events : List Event) :
    let w₀ := fresh capacity maxItemSize maxBody metrics start
    let w := w₀.run events
    (w.cache.index.map Prod.fst).Nodup ∧
    (∀ p ∈ w.cache.index,
      p.2 ≠ [] ∧ p.2.Pairwise (fun a b => a.bytes < b.bytes) ∧ p.2.Nodup) ∧
    (∀ event, w.Unnoted event → (w.step event).cache.index = w.cache.index) ∧
    (w₀.KeysApart events → w.Legible → ∀ base, w.cache.index.known? base =
      ((VaryIndex.lastUnder? (w₀.gather noted events) base).map varyNames).filter (· ≠ [])) := by
  intro w₀ w
  have hw₀ : w₀.Traced := traced_fresh capacity maxItemSize maxBody metrics start
  have hkept : w.cache.index.Kept := hw₀.known.kept_run .nil events
  refine ⟨hkept.keys_nodup, fun p hp => ?_, fun event hunnoted => ?_, fun hkeys hlegible base => ?_⟩
  · exact ⟨hkept.names_ne_nil p hp, hkept.ascending p hp, hkept.nodup hp⟩
  · exact hunnoted.index_step (hw₀.known.run events)
  · have hindex : w.cache.index = (w₀.gather noted events).foldl VaryIndex.note [] :=
      index_run hw₀ rfl hkeys hlegible
    rw [hindex]
    exact VaryIndex.known?_foldl_note _ base

/-- Two requests miss before either of them is answered. The first response declares nothing and the
second one a name, which is noted; a third request is answered by the first response, and there is
no note any more. -/
theorem index_tells_last_noted_of_fallback :
    let request (path : Bytes) (h : path.all isPathByte = true) (encoding : HeaderValue) :
        RequestHead :=
      ⟨.get, ⟨none, none, path, none, h, by simp⟩, .ofFields [(.acceptEncoding, encoding)]⟩
    let gzip := request [47] (by decide) (.ofLatin1 "gzip" (by decide))
    let brotli := request [47] (by decide) (.ofLatin1 "br" (by decide))
    let other := request [47] (by decide) (.ofLatin1 "zstd" (by decide))
    let elsewhere := request [47, 97] (by decide) (.ofLatin1 "br" (by decide))
    let maxAge := (HeaderName.cacheControl, HeaderValue.ofLatin1 "public, max-age=60" (by decide))
    let plain : ResponseHead := ⟨.ok, .ofFields [maxAge]⟩
    let varying : ResponseHead :=
      ⟨.ok, .ofFields [maxAge, (.vary, .ofLatin1 "Accept-Encoding" (by decide))]⟩
    let draws : Draws := fun _ _ => 0
    let stores : List Event := [.receive gzip, .receive brotli, .respond 0 plain (.whole [1]) draws,
      .respond 0 varying (.whole [2]) draws, .poll 0 draws, .poll 1 draws]
    let events := stores ++ [.receive other]
    let w₀ := fresh 1000 1000 100 [] 0
    let base := (Variant.ofRequest gzip).key
    (w₀.KeysApart events ∧ (w₀.run events).Legible ∧
      (w₀.run events).Unnoted (.receive elsewhere)) ∧
    (w₀.run stores).cache.index.known? base = some [.acceptEncoding] ∧
    VaryIndex.lastUnder? (w₀.gather noted events) base = some plain.headers ∧
    (w₀.run events).cache.index.known? base = none ∧
    ((w₀.run events).step (.receive elsewhere)).cache.index = (w₀.run events).cache.index := by
  intro request gzip brotli other elsewhere maxAge plain varying draws stores events w₀ base
  have hkeys : w₀.KeysApart events := by decide +kernel
  have hlegible : (w₀.run events).Legible := legible_of_maxItemSize (by decide +kernel)
  have hstored : (w₀.run stores).Legible := legible_of_maxItemSize (by decide +kernel)
  have hmiss : (w₀.run events).Unnoted (.receive elsewhere) := by
    unfold Unnoted
    decide +kernel
  have hfirst : VaryIndex.lastUnder? (w₀.gather noted stores) base = some varying.headers := by
    decide +kernel
  have hlast : VaryIndex.lastUnder? (w₀.gather noted events) base = some plain.headers := by
    decide +kernel
  obtain ⟨-, -, -, hstores⟩ := index_tells_last_noted 1000 1000 100 [] 0 stores
  obtain ⟨-, -, hsame, htells⟩ := index_tells_last_noted 1000 1000 100 [] 0 events
  have hw₀ : fresh 1000 1000 100 [] 0 = w₀ := rfl
  rw [hw₀] at hstores hsame htells
  refine ⟨⟨hkeys, hlegible, hmiss⟩, ?_, hlast, ?_, hsame (.receive elsewhere) hmiss⟩
  · rw [hstores hkeys.of_append hstored base, hfirst]
    decide +kernel
  · rw [htells hkeys hlegible base, hlast]
    decide +kernel

end Traffic

end Gateway.Cache
