import CrewRoster.Document.Display
import CrewRoster.Time.Instant

/-!
The written forms of dates, times of day, points in time and lengths of time.

A date is `2024-06-03` or `20240603`, or a week and a weekday in it, as `2024-W23-1`, `2024W231`, or
with the weekday left off for a Monday. A time of day has hours, then minutes, then seconds, with colons
between them or without, then a fraction, and may end with `Z` or a distance from UTC. A point in time
is a date, one character of any kind, and a time of day.
-/

namespace CrewRoster

namespace Notation

/-- A number of exactly `n` digits at the start of a text. -/
def digits (n : Nat) (cs : List Char) : Option (Nat × List Char) := do
  let row := cs.take n
  guard (row.length = n)
  return (Text.ofDigits (← row.mapM Text.asciiDigit?), cs.drop n)

def char (c : Char) : List Char → Option (List Char)
  | d :: cs => if c == d then some cs else none
  | [] => none

/-! ## Dates -/

/-- The part of a date behind the `W` of a week. -/
def weekDate (year : Nat) (dashed : Bool) (cs : List Char) : Option Date := do
  let (week, cs) ← digits 2 cs
  if cs.isEmpty then Date.ofWeek? year week 1
  else
    let cs ← if dashed then char '-' cs else some cs
    let (weekday, _) ← digits 1 cs
    Date.ofWeek? year week weekday

/-- The date at the start of a text. -/
def date? (cs : List Char) : Option Date := do
  let (year, cs) ← digits 4 cs
  let dashed := cs.head? == some '-'
  let cs := if dashed then cs.drop 1 else cs
  if cs.head? == some 'W' then weekDate year dashed (cs.drop 1)
  else
    let (month, cs) ← digits 2 cs
    let cs ← if dashed then char '-' cs else some cs
    let (day, _) ← digits 2 cs
    Date.ofCivil? year month day

/-! ## Times of day -/

/-- Hours, minutes, seconds and microseconds, and the text behind them. -/
structure Fields where
  hour : Nat
  minute : Nat
  second : Nat
  micro : Nat
  rest : List Char

/-- What is left over behind a time of day. A NUL ends the text. -/
def leftover : List Char → List Char
  | '\x00' :: _ => []
  | cs => cs

/-- The digits of a fraction: six of them count. -/
def fraction (cs : List Char) : Option (Nat × List Char) := do
  let places := min 6 cs.length
  let (n, cs) ← digits places cs
  return (n * Nat.pow 10 (6 - places), leftover (cs.dropWhile Char.isDigit))

/-- What follows a field of two digits. -/
inductive Follow
  | stop (rest : List Char)
  | fraction (cs : List Char)
  | field (colons : Bool) (cs : List Char)

/--
What the text behind a field goes on with. Whether there are colons between the fields is settled behind
the hour, where `colons` is not known yet. A single byte that ends the text belongs to no field.
-/
def follow? (colons : Option Bool) : List Char → Option Follow
  | [] => some (.stop [])
  | c :: cs =>
    let colons := colons.getD (c == ':')
    if cs.isEmpty && c.utf8Size == 1 then some (.stop (leftover [c]))
    else if colons && c == ':' then some (.field colons cs)
    else if c == '.' || c == ',' then some (.fraction cs)
    else if colons then none
    else some (.field colons (c :: cs))

/-- The fields of a time, their fraction and the text behind them; `left` fields may follow the next. -/
def fields (colons : Option Bool) (cs : List Char) (left : Nat) :
    Option (List Nat × Nat × List Char) := do
  let (n, cs) ← digits 2 cs
  let ending (cs : List Char) := (fraction cs).map fun (micro, cs) => ([n], micro, cs)
  match ← follow? colons cs, left with
  | .stop rest, _ => return ([n], 0, rest)
  | .fraction cs, _ => ending cs
  | .field _ cs, 0 => ending cs
  | .field colons cs, left + 1 =>
    let (ns, rest) ← fields (some colons) cs left
    return (n :: ns, rest)

def readFields (cs : List Char) : Option Fields := do
  let (ns, micro, rest) ← fields none cs 2
  return ⟨ns.getD 0 0, ns.getD 1 0, ns.getD 2 0, micro, rest⟩

def isZoneMark (c : Char) : Bool := c == '+' || c == '-' || c == 'Z'

/--
A distance from UTC; none of its fields has a bound of its own. One of less than a second is no distance.
-/
def zone? (mark : Char) (cs : List Char) : Option Zone := do
  if mark == 'Z' then
    guard (leftover cs).isEmpty
    return Zone.utc
  else
    let f ← readFields cs
    guard f.rest.isEmpty
    let seconds := (f.hour * 60 + f.minute) * 60 + f.second
    -- the fraction alone makes no zone
    if seconds = 0 then return Zone.utc
    let size : Span := seconds * Span.second + f.micro
    (Zone.ofOffset (if mark == '-' then -size else size)).toOption

/-- The whole of a text as a time of day. Before a zone, the character left over is passed by. -/
def clock? (cs : List Char) : Option Clock := do
  let (body, tail) := cs.span (!isZoneMark ·)
  let f ← readFields body
  match tail with
  | [] =>
    guard f.rest.isEmpty
    Clock.ofFields? f.hour f.minute f.second f.micro none
  | mark :: cs => Clock.ofFields? f.hour f.minute f.second f.micro (some (← zone? mark cs))

/-! ## Points in time -/

/-- How many characters of a text are its date, the forms of dates being what they are. -/
def dateLength (cs : List Char) : Nat :=
  let isDigitAt (i : Nat) : Bool := (cs[i]?).any Char.isDigit
  -- `2024W23`
  if cs.length = 7 then 7
  else if cs[4]? == some '-' then
    if cs[5]? == some 'W' then
      -- `2024-W23-1`, unless the dash separates the hour of `2024-W23-10`
      if cs[8]? == some '-' && !isDigitAt 10 then 10 else 8
    -- `2024-06-03`
    else 10
  else if cs[4]? == some 'W' then
    -- `2024W23` or `2024W231`: a digit may be the separator, and the digits behind it come in pairs
    let run := ((cs.drop 7).takeWhile Char.isDigit).length
    if run < 2 then 7 + run
    else if (7 + run) % 2 = 0 then 7
    else 8
  else 8

def instant? (cs : List Char) : Option Instant := do
  guard (7 ≤ cs.length)
  let n := dateLength cs
  let date ← date? (cs.take n)
  match cs.drop n with
  | [] => return Instant.ofDate date default
  | _ :: cs => return Instant.ofDate date (← clock? cs)

end Notation

namespace Date

/-- Reads a date. Its text has 7, 8 or 10 bytes, and may be longer than the date at its start. -/
def read (d : Document) : Result Date := do
  let text ← d.toText
  let size := text.utf8ByteSize
  let date? := if size = 7 || size = 8 || size = 10 then Notation.date? text.toList else none
  date?.elim (.error .unreadable) .ok

end Date

namespace Span

/-- Hours and minutes with a colon between them, or a number of minutes. -/
def read (d : Document) : Result Span := do
  match d with
  | .flag _ | .whole _ | .real _ => check (ofMinutes (← d.toWhole))
  | _ =>
    match d.display.splitOn ":" with
    | hours :: mins :: _ =>
      let hours ← (Document.text hours).toWhole
      let mins ← (Document.text mins).toWhole
      check (hours * hour + ofMinutes mins)
    | _ => .error .unreadable

end Span

namespace Zone

/-- The distance from UTC: hours and minutes, then seconds and microseconds where there are some. -/
def text (z : Zone) : String :=
  let size := z.offset.natAbs
  let micros := size % 1000000
  let seconds := size / 1000000
  let tail := if micros = 0 then "" else "." ++ Date.padded 6 micros
  let tail :=
    if seconds % 60 = 0 && micros = 0 then "" else ":" ++ Date.padded 2 (seconds % 60) ++ tail
  (if z.offset < 0 then "-" else "+") ++ Date.padded 2 (seconds / 3600) ++ ":" ++
    Date.padded 2 (seconds / 60 % 60) ++ tail

end Zone

namespace Clock

/-- Reads a time of day, which may begin with a `T`. -/
def read (d : Document) : Result Clock := do
  let cs := (← d.toText).toList
  let cs := if cs.head? == some 'T' then cs.drop 1 else cs
  (Notation.clock? cs).elim (.error .unreadable) .ok

/-- Hours, minutes and seconds, as in `06:00:00`. -/
def secondsText (c : Clock) : String :=
  let seconds := (c.micros / Span.second).toNat
  Date.padded 2 (seconds / 3600) ++ ":" ++ Date.padded 2 (seconds / 60 % 60) ++ ":" ++
    Date.padded 2 (seconds % 60)

/-- The microseconds beyond the second. -/
def subsecond (c : Clock) : Nat := (c.micros % Span.second).toNat

def text (c : Clock) : String :=
  c.secondsText ++ (if c.subsecond = 0 then "" else "." ++ Date.padded 6 c.subsecond) ++
    c.zone.elim "" Zone.text

end Clock

namespace Instant

def read (d : Document) : Result Instant := do
  (Notation.instant? (Text.visible (← d.toText))).elim (.error .unreadable) .ok

/-- Date and time of day with `separator` between them. -/
def textWith (separator : String) (t : Instant) : String :=
  t.date.text ++ separator ++ { t.clock with zone := t.zone }.text

def text (t : Instant) : String := t.textWith "T"

end Instant
end CrewRoster
