import Gateway.Http.Headers

/-! The header names that a response varies on. -/
namespace Gateway.Cache

open Gateway.Http

/-- Drops an element that equals the one before it. -/
def dedupAdjacent : List HeaderName → List HeaderName
  | [] => []
  | [n] => [n]
  | n :: m :: rest => if n = m then dedupAdjacent (m :: rest) else n :: dedupAdjacent (m :: rest)

/-- The valid names among the elements of the readable `Vary` lines, ascending, each once. -/
def varyNames (headers : Headers) : List HeaderName :=
  dedupAdjacent (((headers.tokens .vary).filterMap HeaderName.ofBytes?).mergeSort HeaderName.le)

end Gateway.Cache
