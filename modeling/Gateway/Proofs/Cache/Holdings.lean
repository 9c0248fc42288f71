import Gateway.Proofs.Cache.RoundTrip
import Gateway.Proofs.Cache.Steps

/-! What is true of all that a cache holds, expired or not. Reads and sweeps only take away from it,
so a property of every response that is handed to the store is one of every response in it. -/
namespace Gateway.Cache

open Gateway.Http

def Call.written? : Call → Option Bytes
  | .set _ value _ _ _ => some value
  | .get _ _ | .purge _ => none

variable {described : Bytes → Prop}

namespace Metered

def Keeps (described : Bytes → Prop) (c : Metered) : Prop :=
  ∀ k i, c.store.item? k = some i → described i.value

theorem keeps_fresh (described : Bytes → Prop) (capacity maxItemSize : Nat) (metrics : Metrics) :
    (fresh capacity maxItemSize metrics).Keeps described := nofun

theorem Keeps.set {c : Metered} (h : c.Keeps described) (k : Key) {value : Bytes}
    (hvalue : described value) (expires now : Time) (draws : Draws) :
    (c.set k value expires now draws).Keeps described := by
  intro m i hi
  rw [store_set] at hi
  -- A write that is refused changes nothing; else what is there now is new or was there before.
  by_cases haccepts : c.store.Accepts value expires now
  · rw [Store.item?_set haccepts] at hi
    split_ifs at hi
    · obtain rfl := Option.some.inj hi
      exact hvalue
    · exact h m i hi
  · rcases Store.set_of_not_accepts haccepts k draws with hsame | hsame
    · rw [hsame] at hi
      exact h m i hi
    · rw [hsame] at hi
      exact h m i hi

theorem Keeps.get {c : Metered} (h : c.Keeps described) (k : Key) (now : Time) :
    (c.get k now).2.Keeps described := by
  intro m i hi
  rw [store_get, Store.item?_get] at hi
  split_ifs at hi
  · obtain ⟨j, hj, rfl⟩ := Option.map_eq_some_iff.mp hi
    exact h k j (Option.filter_eq_some_iff.mp hj).1
  · exact h m i hi

theorem Keeps.purge {c : Metered} (h : c.Keeps described) (now : Time) :
    (c.purge now).2.Keeps described := by
  intro m i hi
  rw [store_purge, Store.purge, Store.item?_foldl_erase] at hi
  split_ifs at hi
  exact h m i hi

theorem Keeps.perform {c : Metered} (h : c.Keeps described) {call : Call}
    (hwritten : ∀ value ∈ call.written?, described value) : (c.perform call).Keeps described := by
  cases call with
  | set k value expires now draws => exact h.set k (hwritten value rfl) expires now draws
  | get k now => exact h.get k now
  | purge now => exact h.purge now

theorem Keeps.run {c : Metered} (h : c.Keeps described) {calls : List Call}
    (hwritten : ∀ call ∈ calls, ∀ value ∈ call.written?, described value) :
    (c.run calls).Keeps described := by
  induction calls generalizing c with
  | nil => exact h
  | cons call rest ih =>
    apply ih (h.perform (hwritten call List.mem_cons_self))
    exact fun later hlater => hwritten later (List.mem_cons_of_mem call hlater)

end Metered

namespace Stored

/-- A blob made for a response of this status and with these headers. -/
def IsBlobOf (blob : Bytes) (head : ResponseHead) : Prop :=
  ∃ r : Stored, r.status = head.status ∧ r.headers = head.headers ∧ r.encode = blob

/-- A response that was read from such a blob. One of less than four gigabytes gives back the status
and all headers but cookies. -/
def ComesFrom (stored : Stored) (head : ResponseHead) : Prop :=
  ∃ blob, IsBlobOf blob head ∧ decode blob = .ok stored ∧
    (blob.length < UInt32.size → stored.status = head.status ∧
      stored.headers = head.headers.erase .setCookie)

theorem IsBlobOf.comesFrom {blob : Bytes} {head : ResponseHead} (h : IsBlobOf blob head)
    {stored : Stored} (hdecode : decode blob = .ok stored) : stored.ComesFrom head := by
  refine ⟨blob, h, hdecode, fun hlength => ?_⟩
  obtain ⟨r, hstatus, hheaders, rfl⟩ := h
  rw [decode_encode (fits_of_length_encode hlength)] at hdecode
  obtain rfl := Except.ok.inj hdecode
  exact ⟨hstatus, congrArg (·.erase .setCookie) hheaders⟩

end Stored

namespace ResponseCache

theorem keeps_lookup {c : ResponseCache} (h : c.backend.Keeps described) {v : Variant}
    (hv : v.names = []) (now : Time) : (c.lookup v now).cache.backend.Keeps described := by
  rw [(c.attempt_lookup hv now).backend]
  apply h.run
  intro call hcall value hvalue
  obtain ⟨u, -, rfl⟩ := List.mem_map.mp hcall
  cases hvalue

theorem keeps_store {c : ResponseCache} (h : c.backend.Keeps described) {e : Exchange}
    (hmade : ∀ blob, Stored.IsBlobOf blob ⟨e.status, e.headers⟩ → described blob) (body : Bytes)
    (now : Time) (draws : Draws) : (c.store e body now draws).backend.Keeps described := by
  unfold store
  cases lifetime? e.status e.headers with
  | none => exact h
  | some seconds => exact h.set _ (hmade _ ⟨_, rfl, rfl, rfl⟩) _ now draws

theorem keeps_settle {c : ResponseCache} (h : c.backend.Keeps described) {e : Exchange}
    (hmade : ∀ blob, Stored.IsBlobOf blob ⟨e.status, e.headers⟩ → described blob)
    (capture : Capture) (now : Time) (draws : Draws) :
    (c.settle capture e now draws).backend.Keeps described := by
  unfold settle
  cases capture.captured with
  | none => exact h
  | some body => exact keeps_store h hmade body now draws

/-- What a lookup answers with is read from a blob in the store. -/
theorem exists_blob_of_hit {c : ResponseCache} (h : c.backend.Keeps described) {v : Variant}
    (hv : v.names = []) {now : Time} {stored : Stored} (hhit : (c.lookup v now).hit = some stored) :
    ∃ blob, described blob ∧ Stored.decode blob = .ok stored := by
  obtain ⟨u, -, hheld⟩ := (c.attempt_lookup hv now).held hhit
  obtain ⟨blob, hblob, hdecode⟩ := held?_eq_some.mp hheld
  rw [Store.get?_eq_item?] at hblob
  obtain ⟨i, hi, rfl⟩ := Option.map_eq_some_iff.mp hblob
  exact ⟨i.value, h u.key i (Option.filter_eq_some_iff.mp hi).1, hdecode⟩

end ResponseCache

end Gateway.Cache
