import Gateway.Bytes
import Gateway.Config.Document

/-! Reading TOML 1.0. Which error a text has is not told, only that it is no document. -/
namespace Gateway.Config.Toml

/-- What was read and what follows it. -/
abbrev Reader (α : Type) := List Char → Option (α × List Char)

def isSpace (c : Char) : Bool := c = ' ' || c = '\t'

def skipSpaces (cs : List Char) : List Char := cs.dropWhile isSpace

/-- A character that may stand in comments: no control character other than the tab. -/
def isPlain (c : Char) : Bool := c = '\t' || (0x20 ≤ c.toNat && c.toNat ≠ 0x7F)

def newline? : List Char → Option (List Char)
  | '\n' :: rest => some rest
  | '\r' :: '\n' :: rest => some rest
  | _ => none

def skipComment (cs : List Char) : List Char :=
  match cs with
  | '#' :: rest => rest.dropWhile isPlain
  | _ => cs

/-- The end of a line: blanks, a comment, and a newline or nothing more. -/
def lineEnd? (cs : List Char) : Option (List Char) :=
  match skipComment (skipSpaces cs) with
  | [] => some []
  | rest => newline? rest

/-- Skips blanks, newlines and comments; a comment needs a newline after it. -/
def skipLines : Nat → List Char → List Char
  | 0, cs => cs
  | fuel + 1, cs =>
    let cs := skipSpaces cs
    match newline? (skipComment cs) with
    | some rest => skipLines fuel rest
    | none => cs

def hexNumber? (digits : List Char) : Option Nat :=
  digits.foldl (fun acc c => do some ((← acc) * 16 + (← Bytes.hexValue? c))) (some 0)

/-- The character with a number given by so many hexadecimal digits. -/
def codePoint? (count : Nat) : Reader Char := fun cs => do
  guard (count ≤ cs.length)
  let n ← hexNumber? (cs.take count)
  if n.isValidChar then some (Char.ofNat n, cs.drop count) else none

/-- The character that a backslash and what follows it stand for. -/
def escape? : Reader Char
  | 'b' :: rest => some ('\x08', rest)
  | 't' :: rest => some ('\t', rest)
  | 'n' :: rest => some ('\n', rest)
  | 'f' :: rest => some ('\x0c', rest)
  | 'r' :: rest => some ('\r', rest)
  | '"' :: rest => some ('"', rest)
  | '\\' :: rest => some ('\\', rest)
  | 'u' :: rest => codePoint? 4 rest
  | 'U' :: rest => codePoint? 8 rest
  | _ => none

/-- The rest of a string on one line, up to its quote; `escapes` when a backslash is special. -/
def lineText (quote : Char) (escapes : Bool) : Nat → Reader (List Char)
  | 0, _ => none
  | _, [] => none
  | fuel + 1, c :: rest =>
    if c = quote then some ([], rest)
    else if escapes ∧ c = '\\' then do
      let (x, rest) ← escape? rest
      let (text, rest) ← lineText quote escapes fuel rest
      some (x :: text, rest)
    else if isPlain c then do
      let (text, rest) ← lineText quote escapes fuel rest
      some (c :: text, rest)
    else none

/-- A newline after a backslash with all the blanks and newlines that follow. -/
def lineJoin? (cs : List Char) : Option (List Char) := do
  let rest ← newline? (skipSpaces cs)
  let rec skip : Nat → List Char → List Char
    | 0, cs => cs
    | fuel + 1, cs => match newline? (skipSpaces cs) with
      | some rest => skip fuel rest
      | none => skipSpaces cs
  some (skip rest.length rest)

/-- The rest of a string over several lines, up to three quotes; up to two more quotes before them
belong to the text. -/
def blockText (quote : Char) (escapes : Bool) : Nat → Reader (List Char)
  | 0, _ => none
  | _, [] => none
  | fuel + 1, c :: rest =>
    let run := ((c :: rest).takeWhile (· = quote)).length
    if 3 ≤ run then some (List.replicate (min run 5 - 3) quote, (c :: rest).drop (min run 5))
    else if escapes ∧ c = '\\' then
      match lineJoin? rest with
      | some rest => blockText quote escapes fuel rest
      | none => do
        let (x, rest) ← escape? rest
        let (text, rest) ← blockText quote escapes fuel rest
        some (x :: text, rest)
    else match newline? (c :: rest) with
      | some rest => do
        let (text, rest) ← blockText quote escapes fuel rest
        some ('\n' :: text, rest)
      | none => do
        guard (isPlain c)
        let (text, rest) ← blockText quote escapes fuel rest
        some (c :: text, rest)

def isBareKey (c : Char) : Bool := c.isAlphanum || c = '_' || c = '-'

def simpleKey : Reader String
  | '"' :: rest => do
    let (text, rest) ← lineText '"' true (rest.length + 1) rest
    some (String.ofList text, rest)
  | '\'' :: rest => do
    let (text, rest) ← lineText '\'' false (rest.length + 1) rest
    some (String.ofList text, rest)
  | cs =>
    let name := cs.takeWhile isBareKey
    if name.isEmpty then none else some (String.ofList name, cs.dropWhile isBareKey)

/-- Levels of nesting that are too deep. -/
def depthLimit : Nat := 80

/-- A key of one or more parts with dots between them; blanks around the parts do not matter. -/
def key : Nat → Reader (List String)
  | 0, _ => none
  | fuel + 1, cs => do
    let (part, rest) ← simpleKey (skipSpaces cs)
    match skipSpaces rest with
    | '.' :: rest =>
      let (parts, rest) ← key fuel rest
      some (part :: parts, rest)
    | rest => some ([part], rest)

/-- The parts before the last one, and the last one. -/
def keyPath : Reader (List String × String) := fun cs => do
  let (parts, rest) ← key depthLimit cs
  guard (parts.length < depthLimit)
  let last ← parts.getLast?
  some ((parts.dropLast, last), rest)

/-- Digits with single underscores between them. -/
def digitRun (isDigit : Char → Bool) : Nat → Reader (List Char)
  | 0, _ => none
  | fuel + 1, c :: rest =>
    if isDigit c then
      match rest with
      | '_' :: rest => (digitRun isDigit fuel rest).map fun (ds, rest) => (c :: ds, rest)
      | d :: _ =>
        if isDigit d then (digitRun isDigit fuel rest).map fun (ds, rest) => (c :: ds, rest)
        else some ([c], rest)
      | [] => some ([c], [])
    else none
  | _, [] => none

def digits (isDigit : Char → Bool) : Reader (List Char) := fun cs =>
  digitRun isDigit (cs.length + 1) cs

def radixNumber (radix : Nat) (ds : List Char) : Nat :=
  ds.foldl (fun n c => n * radix + (Bytes.hexValue? c).getD 0) 0

/-- Whether the minus sign stands in front, and what follows a sign. -/
def sign (cs : List Char) : Bool × List Char :=
  match cs with
  | '-' :: rest => (true, rest)
  | '+' :: rest => (false, rest)
  | _ => (false, cs)

/-- Decimal digits without a leading zero. -/
def decimalDigits : Reader (List Char)
  | '0' :: rest => some (['0'], rest)
  | cs => digits Char.isDigit cs

/-- An integer of 64 bits. -/
def integer : Reader Value
  | '0' :: 'x' :: rest => unsigned 16 (fun c => (Bytes.hexValue? c).isSome) rest
  | '0' :: 'o' :: rest => unsigned 8 (fun c => '0' ≤ c && c ≤ '7') rest
  | '0' :: 'b' :: rest => unsigned 2 (fun c => c = '0' || c = '1') rest
  | cs => do
    let (negative, rest) := sign cs
    let (ds, rest) ← decimalDigits rest
    let n := radixNumber 10 ds
    if negative then if n ≤ UInt64.size / 2 then some (.int (-n), rest) else none
    else if n < UInt64.size / 2 then some (.int n, rest) else none
where
  unsigned (radix : Nat) (isDigit : Char → Bool) : Reader Value := fun cs => do
    let (ds, rest) ← digits isDigit cs
    let n := radixNumber radix ds
    if n < UInt64.size / 2 then some (.int n, rest) else none

def dropWord? (word : String) (cs : List Char) : Option (List Char) :=
  if word.toList.isPrefixOf cs then some (cs.drop word.length) else none

def exponent? : Reader Int
  | c :: rest =>
    if c = 'e' ∨ c = 'E' then do
      let (negative, rest) := sign rest
      let (ds, rest) ← digits Char.isDigit rest
      let n : Int := radixNumber 10 ds
      some (if negative then -n else n, rest)
    else none
  | [] => none

/-- Whether so many units of a power of ten round to a value that a double can hold. -/
def isFinite (mantissa : Nat) (power : Int) : Bool :=
  mantissa == 0 ||
    (let size : Int := (Nat.toDigits 10 mantissa).length + power
     if size ≤ 308 then true
     else if 309 < size then false
     else
      let limit : Nat := Nat.pow 2 1024 - Nat.pow 2 970
      match power with
      | .ofNat p => decide (mantissa * Nat.pow 10 p < limit)
      | .negSucc p => decide (mantissa < limit * Nat.pow 10 (p + 1)))

/-- A number with a fraction or an exponent, or one of the special values. -/
def float : Reader Value := fun cs => do
  let (negative, rest) := sign cs
  match dropWord? "inf" rest <|> dropWord? "nan" rest with
  | some rest => some (.float, rest)
  | none =>
    let (whole, rest) ← decimalDigits rest
    let (fraction, power, rest) ← match rest with
      | '.' :: rest => do
        let (fraction, rest) ← digits Char.isDigit rest
        match exponent? rest with
        | some (power, rest) => some (fraction, power, rest)
        | none => some (fraction, 0, rest)
      | _ => do
        let (power, rest) ← exponent? rest
        some ([], power, rest)
    guard (negative || isFinite (radixNumber 10 (whole ++ fraction)) (power - fraction.length))
    some (.float, rest)

/-- A number of exactly so many digits. -/
def fixedNumber (count : Nat) : Reader Nat := fun cs =>
  let ds := cs.take count
  if ds.length = count && ds.all Char.isDigit then some (radixNumber 10 ds, cs.drop count) else none

def expect? (c : Char) : List Char → Option (List Char)
  | d :: rest => if d = c then some rest else none
  | [] => none

def monthLength (year month : Nat) : Nat :=
  if month = 2 then if year % 4 = 0 ∧ (year % 100 ≠ 0 ∨ year % 400 = 0) then 29 else 28
  else if month = 4 ∨ month = 6 ∨ month = 9 ∨ month = 11 then 30
  else 31

def date? (cs : List Char) : Option (List Char) := do
  let (year, rest) ← fixedNumber 4 cs
  let (month, rest) ← fixedNumber 2 (← expect? '-' rest)
  let (day, rest) ← fixedNumber 2 (← expect? '-' rest)
  guard (1 ≤ month ∧ month ≤ 12 ∧ 1 ≤ day ∧ day ≤ monthLength year month)
  some rest

def time? (cs : List Char) : Option (List Char) := do
  let (hour, rest) ← fixedNumber 2 cs
  let (minute, rest) ← fixedNumber 2 (← expect? ':' rest)
  let (second, rest) ← fixedNumber 2 (← expect? ':' rest)
  guard (hour ≤ 23 ∧ minute ≤ 59 ∧ second ≤ 60)
  match rest with
  | '.' :: fraction =>
    if fraction.head?.any Char.isDigit then some (fraction.dropWhile Char.isDigit) else none
  | _ => some rest

def offset? : List Char → Option (List Char)
  | c :: rest =>
    if c = 'Z' ∨ c = 'z' then some rest
    else if c = '+' ∨ c = '-' then do
      let (hour, rest) ← fixedNumber 2 rest
      let (minute, rest) ← fixedNumber 2 (← expect? ':' rest)
      guard (hour ≤ 23 ∧ minute ≤ 59)
      some rest
    else none
  | [] => none

def isTimeMark (c : Char) : Bool := c = 'T' || c = 't' || c = ' '

/-- The end of a date, a time, or both with or without an offset. -/
def dateTimeEnd? (cs : List Char) : Option (List Char) :=
  match date? cs with
  | some rest => match rest with
    | c :: clock =>
      if isTimeMark c then
        match time? clock with
        | some rest => some ((offset? rest).getD rest)
        | none => some rest
      else some rest
    | [] => some []
  | none => time? cs

/-- The key under which a date or time is found when a table is asked for. -/
def dateTimeKey : String := "$__toml_private_datetime"

def dateTime : Reader Value := fun cs => do
  let rest ← dateTimeEnd? cs
  let text := String.ofList (cs.take (cs.length - rest.length))
  some (.table .inline [(dateTimeKey, .string text)], rest)

def text : Reader Value
  | '"' :: '"' :: '"' :: rest =>
    let rest := (newline? rest).getD rest
    (blockText '"' true (rest.length + 1) rest).map fun (t, rest) => (.string (String.ofList t), rest)
  | '\'' :: '\'' :: '\'' :: rest =>
    let rest := (newline? rest).getD rest
    (blockText '\'' false (rest.length + 1) rest).map fun (t, rest) =>
      (.string (String.ofList t), rest)
  | '"' :: rest =>
    (lineText '"' true (rest.length + 1) rest).map fun (t, rest) => (.string (String.ofList t), rest)
  | '\'' :: rest =>
    (lineText '\'' false (rest.length + 1) rest).map fun (t, rest) =>
      (.string (String.ofList t), rest)
  | _ => none

def boolean : Reader Value := fun cs =>
  match dropWord? "true" cs with
  | some rest => some (.bool true, rest)
  | none => (dropWord? "false" cs).map fun rest => (.bool false, rest)

def scalar : Reader Value := fun cs =>
  text cs <|> boolean cs <|> dateTime cs <|> float cs <|> integer cs

/-- The items of a list up to its bracket; a comma may follow the last. -/
def listItems (item : Reader Value) : Nat → Reader (List Value)
  | 0, _ => none
  | fuel + 1, cs =>
    match skipLines cs.length cs with
    | ']' :: rest => some ([], rest)
    | cs => do
      let (v, rest) ← item cs
      match skipLines rest.length rest with
      | ',' :: rest =>
        let (vs, rest) ← listItems item fuel rest
        some (v :: vs, rest)
      | ']' :: rest => some ([v], rest)
      | _ => none

/-- A key, an equals sign and a value. -/
def pair (item : Reader Value) : Reader ((List String × String) × Value) := fun cs => do
  let (path, rest) ← keyPath cs
  let rest ← expect? '=' rest
  let (v, rest) ← item (skipSpaces rest)
  some ((path, v), rest)

/-- The pairs of an inline table up to its brace. -/
def inlinePairs (item : Reader Value) :
    Nat → TableKind × Entries → Reader (TableKind × Entries)
  | 0, _, _ => none
  | fuel + 1, (kind, es), cs => do
    let (((path, key), v), rest) ← pair item cs
    let table ← Entries.assign path key v kind es
    match skipSpaces rest with
    | ',' :: rest => inlinePairs item fuel table rest
    | c :: rest => if c = '\x7d' then some (table, rest) else none
    | [] => none

def inlineTable (item : Reader Value) : Reader Value := fun cs =>
  match skipSpaces cs with
  | c :: rest =>
    if c = '\x7d' then some (.table .inline [], rest)
    else (inlinePairs item (cs.length + 1) (.inline, []) cs).map fun ((_, es), rest) =>
      (.table .inline es, rest)
  | [] => none

/-- A value in which lists and inline tables are nested at most so deep. -/
def value : Nat → Reader Value
  | 0 => scalar
  | depth + 1 => fun cs =>
    match cs with
    | c :: rest =>
      if c = '[' then
        (listItems (value depth) (rest.length + 1) rest).map fun (vs, rest) => (.list vs, rest)
      else if c = '\x7b' then inlineTable (value depth) rest
      else scalar cs
    | [] => none

/-- The document so far, and the path of the table that lines are added to. -/
structure Progress where
  kind : TableKind
  entries : Entries
  path : List String

def Progress.change (p : Progress) (path : List String) (c : Entries.Change) : Option Progress := do
  let (kind, entries) ← c p.kind p.entries
  some ⟨kind, entries, path⟩

/-- The header of a table, or of an item in a list of tables. -/
def header (p : Progress) : List Char → Option (Progress × List Char)
  | '[' :: '[' :: rest => do
    let ((path, key), rest) ← keyPath rest
    let rest ← expect? ']' (← expect? ']' rest)
    some (← p.change (path ++ [key]) (Entries.openItem path key), ← lineEnd? rest)
  | '[' :: rest => do
    let ((path, key), rest) ← keyPath rest
    let rest ← expect? ']' rest
    some (← p.change (path ++ [key]) (Entries.openTable path key), ← lineEnd? rest)
  | _ => none

/-- Reads line after line. -/
def lines : Nat → Progress → List Char → Option Entries
  | 0, _, _ => none
  | fuel + 1, p, cs =>
    match skipSpaces cs with
    | [] => some p.entries
    | '#' :: rest => do lines fuel p (← lineEnd? ('#' :: rest))
    | '[' :: rest => do
      let (p, rest) ← header p ('[' :: rest)
      lines fuel p rest
    | cs => match newline? cs with
      | some rest => lines fuel p rest
      | none => do
        let (((path, key), v), rest) ← pair (value (depthLimit - 1)) cs
        let p ← p.change p.path (Entries.within false (Entries.assign path key v) p.path)
        lines fuel p (← lineEnd? rest)

/-- Reads a document; a byte order mark in front is skipped. -/
def parse? (text : String) : Option Entries :=
  let cs := match text.toList with
    | c :: rest => if c.toNat = 0xFEFF then rest else c :: rest
    | [] => []
  lines (cs.length + 2) ⟨.header, [], []⟩ cs

end Gateway.Config.Toml
