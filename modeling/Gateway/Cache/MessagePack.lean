import Gateway.Bytes

/-! MessagePack values, written in their shortest form and read in any form. A value is read as its
head: a scalar or a string whole, of a container only the kind and the number of elements. -/
namespace Gateway.Cache.MessagePack

/-- The big-endian digits of a number in `width` octets. -/
def bigEndian : (width : Nat) → Nat → Bytes
  | 0, _ => []
  | w + 1, n => (n / Nat.pow 256 w % 256).toUInt8 :: bigEndian w n

def ofBigEndian (bs : Bytes) : Nat := bs.foldl (fun n b => n * 256 + b.toNat) 0

def writeUnsigned (n : Nat) : Bytes :=
  if n < 128 then [n.toUInt8]
  else if n < UInt8.size then 0xCC :: bigEndian 1 n
  else if n < UInt16.size then 0xCD :: bigEndian 2 n
  else if n < UInt32.size then 0xCE :: bigEndian 4 n
  else 0xCF :: bigEndian 8 n

def writeText (bs : Bytes) : Bytes :=
  (if bs.length < 32 then [(0xA0 + bs.length).toUInt8]
    else if bs.length < UInt8.size then 0xD9 :: bigEndian 1 bs.length
    else if bs.length < UInt16.size then 0xDA :: bigEndian 2 bs.length
    else 0xDB :: bigEndian 4 bs.length) ++ bs

def writeOctets (bs : Bytes) : Bytes :=
  (if bs.length < UInt8.size then 0xC4 :: bigEndian 1 bs.length
    else if bs.length < UInt16.size then 0xC5 :: bigEndian 2 bs.length
    else 0xC6 :: bigEndian 4 bs.length) ++ bs

/-- The head of an array of `n` elements. -/
def writeArray (n : Nat) : Bytes :=
  if n < 16 then [(0x90 + n).toUInt8]
  else if n < UInt16.size then 0xDC :: bigEndian 2 n
  else 0xDD :: bigEndian 4 n

inductive Head where
  | unsigned (n : Nat)
  | signed (i : Int)
  | text (bs : Bytes)
  | octets (bs : Bytes)
  | array (n : Nat)
  | map (n : Nat)
  | extension (kind : UInt8) (bs : Bytes)
  | nil
  | bool (b : Bool)
  | float
  deriving DecidableEq

/-- The first `n` octets and the rest, when there are that many. -/
def take? (n : Nat) (bs : Bytes) : Option (Bytes × Bytes) :=
  if n ≤ bs.length then some (bs.take n, bs.drop n) else none

/-- A big-endian number in `width` octets. -/
def number? (width : Nat) (bs : Bytes) : Option (Nat × Bytes) :=
  (take? width bs).map fun (digits, rest) => (ofBigEndian digits, rest)

def signedOf (width n : Nat) : Int :=
  if n < Nat.pow 2 (8 * width - 1) then n else (n : Int) - Nat.pow 2 (8 * width)

def unsigned? (width : Nat) (bs : Bytes) : Option (Head × Bytes) :=
  (number? width bs).map fun (n, rest) => (.unsigned n, rest)

def signed? (width : Nat) (bs : Bytes) : Option (Head × Bytes) :=
  (number? width bs).map fun (n, rest) => (.signed (signedOf width n), rest)

def string? (make : Bytes → Head) (width : Nat) (bs : Bytes) : Option (Head × Bytes) := do
  let (n, rest) ← number? width bs
  let (content, rest) ← take? n rest
  some (make content, rest)

def container? (make : Nat → Head) (width : Nat) (bs : Bytes) : Option (Head × Bytes) :=
  (number? width bs).map fun (n, rest) => (make n, rest)

def extension? (n : Nat) (bs : Bytes) : Option (Head × Bytes) := do
  let (content, rest) ← take? (n + 1) bs
  match content with
  | kind :: content => some (.extension kind content, rest)
  | [] => none

/-- The head at the front, with what follows it. -/
def Head.read? : Bytes → Option (Head × Bytes)
  | [] => none
  | marker :: rest =>
    let m := marker.toNat
    if m < 0x80 then some (.unsigned m, rest)
    else if m < 0x90 then some (.map (m - 0x80), rest)
    else if m < 0xA0 then some (.array (m - 0x90), rest)
    else if m < 0xC0 then (take? (m - 0xA0) rest).map fun (bs, rest) => (.text bs, rest)
    else if 0xE0 ≤ m then some (.signed ((m : Int) - 256), rest)
    else match m with
      | 0xC0 => some (.nil, rest)
      | 0xC2 => some (.bool false, rest)
      | 0xC3 => some (.bool true, rest)
      | 0xC4 => string? .octets 1 rest
      | 0xC5 => string? .octets 2 rest
      | 0xC6 => string? .octets 4 rest
      | 0xC7 => (number? 1 rest).bind fun (n, rest) => extension? n rest
      | 0xC8 => (number? 2 rest).bind fun (n, rest) => extension? n rest
      | 0xC9 => (number? 4 rest).bind fun (n, rest) => extension? n rest
      | 0xCA => (take? 4 rest).map fun (_, rest) => (.float, rest)
      | 0xCB => (take? 8 rest).map fun (_, rest) => (.float, rest)
      | 0xCC => unsigned? 1 rest
      | 0xCD => unsigned? 2 rest
      | 0xCE => unsigned? 4 rest
      | 0xCF => unsigned? 8 rest
      | 0xD0 => signed? 1 rest
      | 0xD1 => signed? 2 rest
      | 0xD2 => signed? 4 rest
      | 0xD3 => signed? 8 rest
      | 0xD4 => extension? 1 rest
      | 0xD5 => extension? 2 rest
      | 0xD6 => extension? 4 rest
      | 0xD7 => extension? 8 rest
      | 0xD8 => extension? 16 rest
      | 0xD9 => string? .text 1 rest
      | 0xDA => string? .text 2 rest
      | 0xDB => string? .text 4 rest
      | 0xDC => container? .array 2 rest
      | 0xDD => container? .array 4 rest
      | 0xDE => container? .map 2 rest
      | 0xDF => container? .map 4 rest
      | _ => none

/-- Runs a reader `n` times and collects what it reads. -/
def repeat? {α : Type} (read : Bytes → Option (α × Bytes)) : Nat → Bytes → Option (List α × Bytes)
  | 0, bs => some ([], bs)
  | n + 1, bs => do
    let (a, rest) ← read bs
    let (as, rest) ← repeat? read n rest
    some (a :: as, rest)

/-- What follows `n` values that `skip` passes over one by one. -/
def skipMany? (skip : Bytes → Option Bytes) : Nat → Bytes → Option Bytes
  | 0, bs => some bs
  | n + 1, bs => (skip bs).bind (skipMany? skip n)

/-- What follows one value of any kind with containers nested at most `depth` deep. -/
def skip? : (depth : Nat) → Bytes → Option Bytes
  | 0, bs => do
    match ← Head.read? bs with
    | (.array _, _) => none
    | (.map _, _) => none
    | (_, rest) => some rest
  | depth + 1, bs => do
    match ← Head.read? bs with
    | (.array n, rest) => skipMany? (skip? depth) n rest
    | (.map n, rest) => skipMany? (skip? depth) (2 * n) rest
    | (_, rest) => some rest

/-- An integer of any form that lies below `bound`. -/
def integer? (bound : Nat) (bs : Bytes) : Option (Nat × Bytes) := do
  match ← Head.read? bs with
  | (.unsigned n, rest) => if n < bound then some (n, rest) else none
  | (.signed (.ofNat n), rest) => if n < bound then some (n, rest) else none
  | _ => none

/-- Octets as a binary string, as text, or as an array of numbers below 256. -/
def octets? (bs : Bytes) : Option (Bytes × Bytes) := do
  match ← Head.read? bs with
  | (.octets content, rest) => some (content, rest)
  | (.text content, rest) => some (content, rest)
  | (.array n, rest) =>
    (repeat? (integer? 256) n rest).map fun (ns, rest) => (ns.map (·.toUInt8), rest)
  | _ => none

end Gateway.Cache.MessagePack
