import Gateway.Cache.Variant

/-! The bounded store. A table holds the entries; beside it stand the keys in slots, which evictions
sample, and the total size. `Store.get?` is the view of what a reader finds. -/
namespace Gateway.Cache

/-- A point in time, in milliseconds. -/
abbrev Time := Nat

structure Entry where
  value : Bytes
  expires : Time
  lastAccess : Time
  /-- The position of the entry's key among the slots. -/
  slot : Nat
  deriving DecidableEq

/-- The raw numbers that positions are drawn from: for each eviction of a write, and each draw. -/
abbrev Draws := Nat → Nat → Nat

structure Store where
  capacity : Nat
  maxItemSize : Nat
  size : Nat
  slots : List Key
  table : List (Key × Entry)

namespace Store

/-- The number of keys inspected for one eviction. -/
def sampleSize : Nat := 5

def empty (capacity maxItemSize : Nat) : Store := ⟨capacity, maxItemSize, 0, [], []⟩

def find? (s : Store) (k : Key) : Option Entry := s.table.lookup k

def length (s : Store) : Nat := s.table.length

/-- Removes the element at a position; the last element takes its place. -/
def swapRemove {α : Type} (xs : List α) (i : Nat) : List α :=
  match xs.getLast? with
  | none => []
  | some last => if i + 1 < xs.length then xs.dropLast.set i last else xs.dropLast

def setSlot (k : Key) (slot : Nat) (table : List (Key × Entry)) : List (Key × Entry) :=
  table.map fun (m, e) => if m = k then (m, { e with slot }) else (m, e)

/-- Removes a key; the key that takes its slot is told so. -/
def erase (s : Store) (k : Key) : Store :=
  match s.find? k with
  | none => s
  | some e =>
    let slots := swapRemove s.slots e.slot
    let table := s.table.filter (·.1 != k)
    let table := match slots[e.slot]? with
      | some moved => setSlot moved e.slot table
      | none => table
    { s with size := s.size - e.value.length, slots, table }

/-- Adds an entry for a key that is not there. -/
def add (s : Store) (k : Key) (value : Bytes) (expires now : Time) : Store :=
  { s with
    size := s.size + value.length
    slots := s.slots ++ [k]
    table := (k, ⟨value, expires, now, s.slots.length⟩) :: s.table }

/-- The keys that an eviction inspects: all while they are few, else drawn positions. -/
def sample (s : Store) (draw : Nat → Nat) : List Key :=
  if s.slots.length ≤ sampleSize then s.slots
  else (List.range sampleSize).filterMap fun i => s.slots[draw i % s.slots.length]?

/-- The first expired key of a sample, else the one that was used least recently; of several the
first. `oldest` is the best one seen so far. -/
def candidate? (s : Store) (now : Time) (oldest : Option (Key × Time)) : List Key → Option Key
  | [] => oldest.map (·.1)
  | k :: rest =>
    match s.find? k with
    | none => s.candidate? now oldest rest
    | some e =>
      if e.expires ≤ now then some k
      else match oldest with
        | some (_, lastAccess) =>
          if lastAccess ≤ e.lastAccess then s.candidate? now oldest rest
          else s.candidate? now (some (k, e.lastAccess)) rest
        | none => s.candidate? now (some (k, e.lastAccess)) rest

def victim? (s : Store) (now : Time) (draw : Nat → Nat) : Option Key :=
  s.candidate? now none (s.sample draw)

/-- Evicts until `need` more octets fit, at most `fuel` entries; the victims are listed in order. -/
def evict (need : Nat) (now : Time) (draws : Draws) : (fuel : Nat) → Store → List Key × Store
  | 0, s => ([], s)
  | fuel + 1, s =>
    if s.capacity < s.size + need then
      match s.victim? now (draws fuel) with
      | none => ([], s)
      | some k =>
        let (victims, s) := evict need now draws fuel (s.erase k)
        (k :: victims, s)
    else ([], s)

/-- What a write did. -/
inductive Written where
  | tooLarge
  | alreadyExpired
  | stored (victims : List Key)
  deriving DecidableEq

/-- A value that is too large for the store, or already expired, changes nothing. Any other
replaces the key's value and evicts what it needs room for. -/
def set (s : Store) (k : Key) (value : Bytes) (expires now : Time) (draws : Draws) :
    Written × Store :=
  if s.maxItemSize < value.length ∨ s.capacity < value.length then (.tooLarge, s)
  else if expires ≤ now then (.alreadyExpired, s)
  else
    let s := s.erase k
    let (victims, s) := evict value.length now draws s.slots.length s
    (.stored victims, s.add k value expires now)

def touch (k : Key) (now : Time) (table : List (Key × Entry)) : List (Key × Entry) :=
  table.map fun (m, e) => if m = k then (m, { e with lastAccess := now }) else (m, e)

/-- What a read did. -/
inductive Found where
  | absent
  | expired
  | live (value : Bytes)
  deriving DecidableEq

/-- A read notes the time of use; it removes an entry that has expired. -/
def get (s : Store) (k : Key) (now : Time) : Found × Store :=
  match s.find? k with
  | none => (.absent, s)
  | some e =>
    if now < e.expires then (.live e.value, { s with table := touch k now s.table })
    else (.expired, s.erase k)

/-- The value that a read at `now` finds. -/
def get? (s : Store) (k : Key) (now : Time) : Option Bytes :=
  ((s.find? k).filter (now < ·.expires)).map (·.value)

def expiredKeys (s : Store) (now : Time) : List Key :=
  (s.table.filter fun (_, e) => e.expires ≤ now).map (·.1)

/-- Removes every expired entry and counts them. -/
def purge (s : Store) (now : Time) : Nat × Store :=
  let expired := s.expiredKeys now
  (expired.length, expired.foldl erase s)

end Store

end Gateway.Cache
