import Gateway.Text.Utf8

/-! Domain names: mapping to lower case and to one spelling, and what a name may not hold. -/
namespace Gateway.Config

namespace Punycode

def base : Nat := 36
def thresholdMin : Nat := 1
def thresholdMax : Nat := 26

/-- The value of a digit: letters of either case, then decimal digits. -/
def digit? (c : Char) : Option Nat :=
  if 'a' ≤ c ∧ c ≤ 'z' then some (c.toNat - 97)
  else if 'A' ≤ c ∧ c ≤ 'Z' then some (c.toNat - 65)
  else if '0' ≤ c ∧ c ≤ '9' then some (c.toNat - 22)
  else none

/-- Divides a delta down until it fits the last division; `fuel` bounds the divisions. -/
def scale : Nat → Nat → Nat → Nat
  | 0, _, k => k
  | fuel + 1, delta, k =>
    if 455 < delta then scale fuel (delta / 35) (k + base) else k + 36 * delta / (delta + 38)

/-- The bias after a delta was read, so that like deltas stay short. -/
def adapt (delta count : Nat) (first : Bool) : Nat :=
  let delta := if first then delta / 700 else delta / 2
  scale 32 (delta + delta / count) 0

def threshold (k bias : Nat) : Nat :=
  if k ≤ bias + thresholdMin then thresholdMin
  else if bias + thresholdMax ≤ k then thresholdMax
  else k - bias

/-- Reads one number of variable length, its digits each weighing more than those before. -/
def delta? (bias : Nat) : Nat → Nat → Nat → List Char → Option (Nat × List Char)
  | _, _, _, [] => none
  | k, weight, i, c :: rest => do
    let d ← digit? c
    let i := i + d * weight
    guard (i < UInt32.size)
    let t := threshold k bias
    if d < t then some (i, rest) else delta? bias (k + base) (weight * (base - t)) i rest

def insertAt (cs : List Char) (i : Nat) (c : Char) : List Char := cs.take i ++ c :: cs.drop i

/-- Reads the insertions one after the other. -/
def insertions? : Nat → List Char → Nat → Nat → Nat → List Char → Option (List Char)
  | _, out, _, _, _, [] => some out
  | 0, _, _, _, _, _ => none
  | fuel + 1, out, n, i, bias, cs => do
    let (after, rest) ← delta? bias base 1 i cs
    let count := out.length + 1
    let n := n + after / count
    guard n.isValidChar
    let at_ := after % count
    insertions? fuel (insertAt out at_ (Char.ofNat n)) n (at_ + 1)
      (adapt (after - i) count (i = 0)) rest

/-- The label that a string of letters, digits and hyphens encodes. -/
def decode? (cs : List Char) : Option (List Char) :=
  let (literal, rest) :=
    if cs.contains '-' then
      let tail := (cs.reverse.takeWhile (· ≠ '-')).reverse
      (cs.take (cs.length - tail.length - 1), tail)
    else ([], cs)
  if literal.all (·.toNat < 128) then insertions? (rest.length + 1) literal 128 0 72 rest else none

end Punycode

namespace Domain

/-- ASCII characters that no name holds: controls, the space, delete and the delimiters of URLs. -/
def isForbidden (c : Char) : Bool :=
  c.toNat ≤ 0x20 || c.toNat = 0x7F || "%#/:<>?@[\\]^|".toList.contains c

/-- Characters that are dropped from names. -/
def isIgnored (c : Char) : Bool :=
  let n := c.toNat
  n = 0xAD || n = 0x34F || (0x180B ≤ n && n ≤ 0x180F) || n = 0x200B || n = 0x2060 || n = 0x2064
    || n = 0xFEFF || (0xFE00 ≤ n && n ≤ 0xFE0F) || (0xE0100 ≤ n && n ≤ 0xE01EF)

/-- Characters that no name can hold: controls, marks of direction, unassigned and private ones. -/
def isDisallowed (c : Char) : Bool :=
  let n := c.toNat
  (0x80 ≤ n && n ≤ 0x9F) || (0x200C ≤ n && n ≤ 0x200F) || (0x2028 ≤ n && n ≤ 0x202E)
    || (0x2061 ≤ n && n ≤ 0x2063) || (0x2065 ≤ n && n ≤ 0x206F) || (0x2FF0 ≤ n && n ≤ 0x2FFF)
    || (0xE000 ≤ n && n ≤ 0xF8FF) || (0xFDD0 ≤ n && n ≤ 0xFDEF) || (0xFFF0 ≤ n && n ≤ 0xFFFF)
    || (0xE0000 ≤ n && n ≤ 0xE00FF) || 0xE01F0 ≤ n || n % 0x10000 ≥ 0xFFFE

/-- Characters that stand for a space, alone or with a mark on it. -/
def isSpacing (c : Char) : Bool :=
  let n := c.toNat
  n = 0xA0 || n = 0xA8 || n = 0xAF || n = 0xB4 || n = 0xB8 || (0x2000 ≤ n && n ≤ 0x200A)
    || n = 0x2017 || n = 0x202F || n = 0x203E || n = 0x205F || n = 0x3000 || n = 0xFFE3
    || (0x2D8 ≤ n && n ≤ 0x2DD) || n = 0x37A || n = 0x384

/-- One spelling for letters of either case, for wide and raised characters, and for dots. -/
def mapChar (c : Char) : List Char :=
  let n := c.toNat
  if isIgnored c then []
  else if isSpacing c then [' ']
  else if 0xFF01 ≤ n ∧ n ≤ 0xFF5E then [(Char.ofNat (n - 0xFEE0)).toLower]
  else if n = 0x3002 ∨ n = 0xFF61 then ['.']
  else if n = 0xB2 ∨ n = 0xB3 then [Char.ofNat (n - 0x80)]
  else if n = 0xB9 then ['1']
  else if n = 0x2070 then ['0']
  else if 0x2074 ≤ n ∧ n ≤ 0x2079 then [Char.ofNat (n - 0x2040)]
  else if 0x2080 ≤ n ∧ n ≤ 0x2089 then [Char.ofNat (n - 0x2050)]
  else if 0x2460 ≤ n ∧ n ≤ 0x2468 then [Char.ofNat (n - 0x242F)]
  else [c.toLower]

def splitLabels (cs : List Char) : List (List Char) :=
  cs.foldr (fun c acc => if c = '.' then [] :: acc else match acc with
    | label :: labels => (c :: label) :: labels
    | [] => [[c]]) [[]]

/-- A combining mark, which begins no label. -/
def isMark (c : Char) : Bool :=
  let n := c.toNat
  (0x300 ≤ n && n ≤ 0x36F) || (0x483 ≤ n && n ≤ 0x489) || (0x591 ≤ n && n ≤ 0x5BD)
    || (0x610 ≤ n && n ≤ 0x61A) || (0x64B ≤ n && n ≤ 0x65F) || (0x900 ≤ n && n ≤ 0x903)
    || (0x1AB0 ≤ n && n ≤ 0x1AFF) || (0x1DC0 ≤ n && n ≤ 0x1DFF) || (0x20D0 ≤ n && n ≤ 0x20F0)
    || (0xFE20 ≤ n && n ≤ 0xFE2F)

/-- A label that is already encoded must decode to one that needs it and is spelled as it should. -/
def isLabel (label : List Char) : Bool :=
  match label with
  | 'x' :: 'n' :: '-' :: '-' :: rest =>
    match Punycode.decode? rest with
    | none => false
    | some decoded =>
      decoded.any (128 ≤ ·.toNat) && !decoded.any isDisallowed && !decoded.head?.any isMark
        && decoded.all fun c => mapChar c == [c] && !isForbidden c
  | _ => !label.head?.any isMark

/-- The name in the spelling that is looked up, letters beyond ASCII left as they are; `none` when
the octets are no name. Beyond ASCII this follows the tables of UTS 46 only in part: a character
that stands for several (U+2100) or is not assigned (U+0378) is kept, and a joiner is refused also
where the letters around it ask for one. -/
def toAscii? (bs : Bytes) : Option (List Char) := do
  let name := (← Text.Utf8.decode? bs).flatMap mapChar
  if name.any (fun c => isForbidden c || isDisallowed c) || !(splitLabels name).all isLabel then none
  else some name

end Domain

end Gateway.Config
