import Gateway.Http.Headers

/-! The length of a message body as its headers give it. -/
namespace Gateway.Http1
open Http

/-- The number that all values agree on, in a list or in lines of their own; `none` when there is
none, when one is no number of 64 bits, or when two differ. -/
def agreed? (values : List (Option Nat)) : Option Nat :=
  match values with
  | [] => none
  | first :: rest => if rest.all (· == first) then first else none

/-- The elements of all values of a name; a value that cannot be read is an element that fails. -/
def lengthElements (h : Headers) : List (Option Nat) :=
  (h.values .contentLength).flatMap fun v =>
    match v.text? with
    | none => [none]
    | some t => (Bytes.splitOn 44 t).map fun element =>
      (Bytes.decimal? (Bytes.trim element)).filter (· < UInt64.size)

def contentLength? (h : Headers) : Option Nat := agreed? (lengthElements h)

/-- Whether the last transfer coding is `chunked`. -/
def isChunked (h : Headers) : Bool :=
  match (h.values .transferEncoding).getLast? with
  | none => false
  | some v => match v.text? with
    | none => false
    | some t =>
      Bytes.eqIgnoreCase (Bytes.trim (((Bytes.splitOn 44 t).getLast?).getD [])) (.ofLatin1 "chunked")

end Gateway.Http1
