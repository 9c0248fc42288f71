/-! The one announcement that everything is to stop, and who hears it. -/
namespace Gateway.App

/-- What a listener finds when it looks. -/
inductive Notice where
  | fired
  | empty
  | closed
  /-- Announcements were lost before it looked. -/
  | lagged
  deriving DecidableEq

/-- A channel that keeps only the latest announcements. A listener is known by its slot, and hears
what is sent after it came; what it has heard of is counted. -/
structure Channel where
  capacity : Nat
  sent : Nat
  /-- For each slot the announcements heard of, `none` after the listener has left. -/
  listeners : List (Option Nat)
  isOpen : Bool

namespace Channel

def new (capacity : Nat) : Channel := ⟨capacity, 0, [], true⟩

/-- Adds a listener and tells its slot. -/
def subscribe (c : Channel) : Nat × Channel :=
  (c.listeners.length, { c with listeners := c.listeners ++ [some c.sent] })

def listenerCount (c : Channel) : Nat := (c.listeners.filter (·.isSome)).length

/-- Without listeners nothing is sent. -/
def send (c : Channel) : Channel :=
  if c.listenerCount = 0 then c else { c with sent := c.sent + 1 }

def close (c : Channel) : Channel := { c with isOpen := false }

def drop (c : Channel) (slot : Nat) : Channel := { c with listeners := c.listeners.set slot none }

/-- Looks for the next announcement; `none` when there is no such listener. -/
def poll? (c : Channel) (slot : Nat) : Option (Notice × Channel) :=
  match c.listeners[slot]? with
  | some (some heard) =>
    let now (n : Nat) : Channel := { c with listeners := c.listeners.set slot (some n) }
    if c.capacity < c.sent - heard then some (.lagged, now (c.sent - c.capacity))
    else if heard < c.sent then some (.fired, now (heard + 1))
    else some (if c.isOpen then .empty else .closed, c)
  | _ => none

end Channel

/-- The announcement, which is made at most once. -/
structure Shutdown where
  channel : Channel
  triggered : Bool

namespace Shutdown

def new : Shutdown := ⟨.new 1, false⟩

def subscribe (s : Shutdown) : Nat × Shutdown :=
  let (slot, channel) := s.channel.subscribe
  (slot, { s with channel })

def trigger (s : Shutdown) : Shutdown :=
  if s.triggered then s else ⟨s.channel.send, true⟩

/-- Ends the announcer; listeners that heard nothing learn that nothing will come. -/
def close (s : Shutdown) : Shutdown := { s with channel := s.channel.close }

def drop (s : Shutdown) (slot : Nat) : Shutdown := { s with channel := s.channel.drop slot }

def poll? (s : Shutdown) (slot : Nat) : Option (Notice × Shutdown) :=
  (s.channel.poll? slot).map fun (notice, channel) => (notice, { s with channel })

def listenerCount (s : Shutdown) : Nat := s.channel.listenerCount

end Shutdown

end Gateway.App
