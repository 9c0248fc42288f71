import Gateway.Http.Headers

/-! Message bodies as their reader sees them: what each poll gives, and what the body says of itself
in between. -/
namespace Gateway.Http

inductive Frame where
  | data (bs : Bytes)
  | trailers (h : Headers)
  deriving DecidableEq

/-- What one poll of a body gives. -/
inductive Polled where
  | pending
  | frame (f : Frame)
  | failed
  | ended
  deriving DecidableEq

/-- What a body says of itself: whether it knows that no frame is left, and its remaining size if
that is known. -/
structure BodyReport where
  endStream : Bool
  exactSize : Option Nat
  deriving DecidableEq

/-- A body: its report now, and for each poll to come the answer and the report after it. A body
with no polls left has ended. -/
structure Body where
  report : BodyReport
  polls : List (Polled × BodyReport)
  deriving DecidableEq

namespace Body

def poll (b : Body) : Polled × Body :=
  match b.polls with
  | [] => (.ended, b)
  | (answer, report) :: rest => (answer, ⟨report, rest⟩)

/-- A body held whole: one data frame, none when it is empty, and its end is known at once. -/
def whole (bs : Bytes) : Body :=
  if bs.isEmpty then ⟨⟨true, some 0⟩, []⟩
  else ⟨⟨false, some bs.length⟩, [(.frame (.data bs), ⟨true, some 0⟩)]⟩

def empty : Body := whole []

/-- A body of unknown length that gives these answers and then ends. -/
def ofPolls (answers : List Polled) : Body := ⟨⟨false, none⟩, answers.map (·, ⟨false, none⟩)⟩

/-- The data of the frames up to the first error, if there is none: what a client that reads to
the end receives. -/
def contentOf? : List (Polled × BodyReport) → Option Bytes
  | [] => some []
  | (.frame (.data bs), _) :: rest => (contentOf? rest).map (bs ++ ·)
  | (.failed, _) :: _ => none
  | (.ended, _) :: _ => some []
  | (_, _) :: rest => contentOf? rest

def content? (b : Body) : Option Bytes := contentOf? b.polls

end Body

/-- A response as it travels through the gateway. -/
structure Response (α : Type) where
  head : α
  body : Body

end Gateway.Http
