import Gateway.Http.Body

/-! A body that passes through unchanged while a bounded copy of its data is kept. The copy is
handed over when the body has ended; an error, or more data than the limit, gives it up. -/
namespace Gateway.Cache

open Gateway.Http

structure Capture where
  inner : Body
  limit : Nat
  buffer : Bytes
  overflowed : Bool
  /-- The copy is still to be handed over. -/
  waiting : Bool
  /-- What has been handed over. -/
  captured : Option Bytes

namespace Capture

/-- Hands the copy over, at most once. -/
def finish (c : Capture) : Capture :=
  if c.waiting then { c with waiting := false, captured := some c.buffer, buffer := [] } else c

/-- Adds the data of a frame to the copy, or gives the copy up. -/
def record (c : Capture) (data : Bytes) : Capture :=
  if c.overflowed then c
  else if c.limit < c.buffer.length + data.length then
    { c with overflowed := true, buffer := [], waiting := false }
  else { c with buffer := c.buffer ++ data }

/-- A body that already knows its end may never be polled, so it is captured at once. -/
def start (inner : Body) (limit : Nat) : Capture :=
  let c : Capture := ⟨inner, limit, [], false, true, none⟩
  if inner.report.endStream then c.finish else c

/-- What the frame adds, and the end when the body then knows it. -/
def onFrame (c : Capture) (f : Frame) : Capture :=
  let c := match f with
    | .data bs => c.record bs
    | .trailers _ => c
  if c.inner.report.endStream then c.finish else c

def poll (c : Capture) : Polled × Capture :=
  let (answer, inner) := c.inner.poll
  let c := { c with inner }
  (answer, match answer with
    | .frame f => c.onFrame f
    | .ended => c.finish
    | .failed => { c with waiting := false }
    | .pending => c)

/-- The capture says of itself what the body says. -/
def report (c : Capture) : BodyReport := c.inner.report

/-- Polls until the body ends or fails, as a client that reads everything does. -/
def drain (c : Capture) : Capture :=
  go (c.inner.polls.length + 1) c
where
  go : Nat → Capture → Capture
    | 0, c => c
    | n + 1, c =>
      match c.poll with
      | (.ended, c) => c
      | (.failed, c) => c
      | (_, c) => go n c

end Capture

end Gateway.Cache
