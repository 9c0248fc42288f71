import Gateway.Bytes

/-! Points in time to the second, as HTTP writes them. -/
namespace Gateway.Http

/-- A date of the Gregorian calendar and a time of day in UTC. -/
structure Date where
  year : Nat
  /-- 1 to 12. -/
  month : Nat
  day : Nat
  hour : Nat
  minute : Nat
  second : Nat
  /-- 0 is Sunday. -/
  weekday : Nat
  deriving DecidableEq

namespace Date

def isLeap (year : Nat) : Bool := year % 4 == 0 && (year % 100 != 0 || year % 400 == 0)

def yearLength (year : Nat) : Nat := if isLeap year then 366 else 365

def monthLengths (year : Nat) : List Nat :=
  [31, if isLeap year then 29 else 28, 31, 30, 31, 30, 31, 31, 30, 31, 30, 31]

/-- Days from 1970-01-01 to the first day of a year from 1970 on. -/
def daysBefore (year : Nat) : Nat :=
  (year - 1970) * 365 + ((year - 1) / 4 - 492) - ((year - 1) / 100 - 19) + ((year - 1) / 400 - 4)

/-- The month and day, both from 1 on, at a number of days into a year. -/
def monthDay : List Nat → Nat → Nat × Nat
  | [], days => (1, days + 1)
  | len :: rest, days =>
    if days < len then (1, days + 1)
    else
      let (month, day) := monthDay rest (days - len)
      (month + 1, day)

/-- The year that a day falls in and the days into it, counted from a year before it; `fuel` bounds
the years to pass. -/
def yearDay : Nat → Nat → Nat → Nat × Nat
  | 0, year, days => (year, days)
  | fuel + 1, year, days =>
    if days < yearLength year then (year, days) else yearDay fuel (year + 1) (days - yearLength year)

/-- The date of a number of seconds after the start of 1970. -/
def ofSeconds (seconds : Nat) : Date :=
  let days := seconds / 86400
  let (year, inYear) := yearDay (days / 365 + 1) 1970 days
  let (month, day) := monthDay (monthLengths year) inYear
  let time := seconds % 86400
  ⟨year, month, day, time / 3600, time / 60 % 60, time % 60, (days + 4) % 7⟩

/-- The seconds since the start of 1970, whatever the weekday. -/
def seconds (d : Date) : Nat :=
  let days := daysBefore d.year + ((monthLengths d.year).take (d.month - 1)).foldl (· + ·) 0 + (d.day - 1)
  days * 86400 + d.hour * 3600 + d.minute * 60 + d.second

/-- A date that exists, from 1970 to 9999, on its weekday. -/
def isValid (d : Date) : Bool :=
  decide (d.second < 60 ∧ d.minute < 60 ∧ d.hour < 24 ∧ 0 < d.day ∧ d.day < 32 ∧ 0 < d.month
    ∧ d.month ≤ 12 ∧ 1970 ≤ d.year ∧ d.year ≤ 9999) && ofSeconds d.seconds == d

def monthNames : List Bytes :=
  ["Jan", "Feb", "Mar", "Apr", "May", "Jun", "Jul", "Aug", "Sep", "Oct", "Nov", "Dec"].map
    Bytes.ofLatin1

def weekdayNames : List Bytes :=
  ["Sun", "Mon", "Tue", "Wed", "Thu", "Fri", "Sat"].map Bytes.ofLatin1

def longWeekdayNames : List Bytes :=
  ["Sunday", "Monday", "Tuesday", "Wednesday", "Thursday", "Friday", "Saturday"].map Bytes.ofLatin1

def month? (bs : Bytes) : Option Nat := (monthNames.findIdx? (· == bs)).map (· + 1)

def weekday? (bs : Bytes) : Option Nat := weekdayNames.findIdx? (· == bs)

def padded (width n : Nat) : Bytes :=
  List.replicate (width - (Bytes.ofNat n).length) 48 ++ Bytes.ofNat n

/-- For example `Sun, 06 Nov 1994 08:49:37 GMT`. -/
def text (d : Date) : Bytes :=
  weekdayNames.getD d.weekday [] ++ .ofLatin1 ", " ++ padded 2 d.day ++ [32]
    ++ monthNames.getD (d.month - 1) [] ++ [32] ++ padded 4 d.year ++ [32]
    ++ padded 2 d.hour ++ [58] ++ padded 2 d.minute ++ [58] ++ padded 2 d.second ++ .ofLatin1 " GMT"

/-- A piece of a string by its place and length. -/
def slice (bs : Bytes) (start len : Nat) : Bytes := (bs.drop start).take len

def number? (bs : Bytes) (start len : Nat) : Option Nat := Bytes.decimal? (slice bs start len)

/-- The colons of a time of day that starts at a place. -/
def hasColons (bs : Bytes) (start : Nat) : Bool :=
  slice bs (start + 2) 1 == [58] && slice bs (start + 5) 1 == [58]

/-- For example `Sun, 06 Nov 1994 08:49:37 GMT`. -/
def fixed? (bs : Bytes) : Option Date := do
  guard (bs.length == 29 && slice bs 25 4 == .ofLatin1 " GMT" && slice bs 16 1 == [32]
    && hasColons bs 17 && slice bs 3 2 == .ofLatin1 ", " && slice bs 7 1 == [32]
    && slice bs 11 1 == [32])
  some ⟨← number? bs 12 4, ← month? (slice bs 8 3), ← number? bs 5 2, ← number? bs 17 2,
    ← number? bs 20 2, ← number? bs 23 2, ← weekday? (slice bs 0 3)⟩

/-- For example `Sunday, 06-Nov-94 08:49:37 GMT`; years up to 69 are of this century. What stands
between date and time is not looked at. -/
def long? (bs : Bytes) : Option Date := do
  let weekday ← longWeekdayNames.findIdx? fun name => (name ++ .ofLatin1 ", ").isPrefixOf bs
  let rest := bs.drop ((longWeekdayNames.getD weekday []).length + 2)
  guard (rest.length == 22 && hasColons rest 10 && slice rest 18 4 == .ofLatin1 " GMT"
    && slice rest 2 1 == [45] && slice rest 6 1 == [45])
  let short ← number? rest 7 2
  some ⟨if short < 70 then short + 2000 else short + 1900, ← month? (slice rest 3 3),
    ← number? rest 0 2, ← number? rest 10 2, ← number? rest 13 2, ← number? rest 16 2, weekday⟩

/-- For example `Sun Nov  6 08:49:37 1994`. -/
def plain? (bs : Bytes) : Option Date := do
  guard (bs.length == 24 && slice bs 10 1 == [32] && hasColons bs 11 && slice bs 19 1 == [32]
    && slice bs 3 1 == [32] && slice bs 7 1 == [32])
  let day ← if slice bs 8 1 == [32] then number? bs 9 1 else number? bs 8 2
  some ⟨← number? bs 20 4, ← month? (slice bs 4 3), day, ← number? bs 11 2, ← number? bs 14 2,
    ← number? bs 17 2, ← weekday? (slice bs 0 3)⟩

/-- Reads the three forms of a date; blanks around it do not matter. -/
def parse? (bs : Bytes) : Option Date :=
  let bs := Bytes.trim bs
  (fixed? bs <|> long? bs <|> plain? bs).filter (·.isValid)

end Date

end Gateway.Http
