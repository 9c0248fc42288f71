import Gateway.Cache.Store
import Gateway.Metrics

/-! The store with its figures: how many entries and octets it holds, and how many were evicted. -/
namespace Gateway.Cache

structure Metered where
  store : Store
  metrics : Metrics

namespace Metered

/-- Notes the number of entries and their total size. -/
def recordSize (s : Store) (m : Metrics) : Metrics :=
  (m.record .cacheEntries s.length).record .cacheBytes s.size

def set (c : Metered) (k : Key) (value : Bytes) (expires now : Time) (draws : Draws) : Metered :=
  let (written, store) := c.store.set k value expires now draws
  match written with
  | .stored victims =>
    let m := if victims.isEmpty then c.metrics else c.metrics.add .cacheEvictions victims.length
    ⟨store, recordSize store m⟩
  | .tooLarge | .alreadyExpired => ⟨store, c.metrics⟩

/-- Reads a value; the figures change only when the read removes an expired entry. -/
def get (c : Metered) (k : Key) (now : Time) : Option Bytes × Metered :=
  match c.store.get k now with
  | (.live value, store) => (some value, ⟨store, c.metrics⟩)
  | (.expired, store) => (none, ⟨store, recordSize store c.metrics⟩)
  | (.absent, store) => (none, ⟨store, c.metrics⟩)

def purge (c : Metered) (now : Time) : Nat × Metered :=
  let (count, store) := c.store.purge now
  (count, ⟨store, recordSize store c.metrics⟩)

end Metered

end Gateway.Cache
