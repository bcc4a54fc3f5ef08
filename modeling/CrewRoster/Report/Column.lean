import CrewRoster.Document.Display
import CrewRoster.Time.Notation

/-!
The columns of a table. Values that stand in one column are brought into one form: numbers among which
there are fractions or blanks are all doubles, and points in time that share a zone are written alike.
-/

namespace CrewRoster

/-- A value of a table. -/
inductive TableValue
  | missing
  | label (l : Label)
  | real (x : Binary64)
  | text (s : String)
  | date (d : Date)
  | time (t : Instant)
  | flag (b : Bool)
  deriving Inhabited

namespace TableValue

def ofWhole (n : Int) : TableValue := label (.whole n)

def label? : TableValue → Option Label
  | missing => some .null
  | label l => some l
  | _ => none

def time? : TableValue → Option Instant
  | time t => some t
  | _ => none

end TableValue

namespace Column

/-! ## Labels -/

/-- A label as it is; what is not a number is missing. -/
def asGiven (l : Label) : TableValue := if l = .null || l.isNotANumber then .missing else .label l

/-- What the labels of a column have been so far. -/
structure Seen where
  isNullSeen : Bool
  isBlankSeen : Bool
  isRealSeen : Bool
  isFlagSeen : Bool
  isNegativeSeen : Bool
  isLargeSeen : Bool

def Seen.nothing : Seen := ⟨false, false, false, false, false, false⟩

/-- The range of whole numbers with a sign, and the upper end of those without one. -/
def leastSigned : Int := -Nat.pow 2 63
def mostSigned : Int := Nat.pow 2 63 - 1
def mostUnsigned : Int := Nat.pow 2 64 - 1

/--
Takes in a whole number. There is no answer where it does not fit those before it: beyond 64 bits, or
beyond the signed ones among numbers below zero. Behind a `null` every number fits.
-/
def Seen.whole? (seen : Seen) (n : Int) : Option Seen :=
  if seen.isNullSeen then some seen
  else
    let isNegativeSeen := seen.isNegativeSeen || (leastSigned ≤ n && n < 0)
    let isLargeSeen := seen.isLargeSeen || (mostSigned < n && n ≤ mostUnsigned)
    if n < leastSigned || mostUnsigned < n || (isNegativeSeen && isLargeSeen) then none
    else some { seen with isNegativeSeen, isLargeSeen }

/-- Looks through a column; no answer is a column that stays as it is given. -/
def scan (seen : Seen) : List Label → Result (Option Seen)
  | [] => .ok (some seen)
  | .null :: ls => scan { seen with isNullSeen := true } ls
  | .flag _ :: ls => scan { seen with isFlagSeen := true } ls
  | .real x :: ls =>
    scan (if x.isNaN then { seen with isBlankSeen := true } else { seen with isRealSeen := true }) ls
  | .whole n :: ls => do
    -- every number is looked at as a double first
    let _ ← Document.realOfWhole n
    match seen.whole? n with
    | none => return none
    | some seen => scan seen ls
  | .text _ :: _ | .array _ :: _ | .object _ :: _ => .ok none

/-- Whether a column is one of doubles: numbers with a fraction or a blank among them, and nothing else. -/
def Seen.isOfReals (seen : Seen) : Bool :=
  !seen.isFlagSeen && (seen.isNullSeen || seen.isBlankSeen || seen.isRealSeen)

def asReal (l : Label) : Result TableValue :=
  if l = .null || l.isNotANumber then .ok .missing else do return .real (← l.toReal)

def settleLabels (ls : List Label) : Result (List TableValue) := do
  match ← scan .nothing ls with
  | some seen => if seen.isOfReals then ls.mapM asReal else return ls.map asGiven
  | none => return ls.map asGiven

/-! ## Points in time -/

/-- Whether all points in time have the same zone, or all have none. -/
def shareZone : List Instant → Bool
  | [] => true
  | t :: ts => ts.all (·.zone = t.zone)

/-- The start of 1970. -/
def epoch : Int := 719162 * Span.day

/-- Whether the nanoseconds between a point in time and the epoch fit into 64 bits. -/
def isNear (t : Instant) : Bool := 1000 * (t.position - epoch).natAbs < Nat.pow 2 63

/-- Points in time have one form if they share a zone and none is too far away. -/
def areAlike (ts : List Instant) : Bool := shareZone ts && ts.all isNear

/-- How a clock shows a point in time if it is set by whole seconds: less the fraction of its offset. -/
def onWholeSeconds (t : Instant) : Instant :=
  match t.zone with
  | none => t
  | some z => (Instant.ofWall? (t.wall - z.offset.tmod Span.second) t.zone).getD t

/-- Clocks of a zone that a whole column shares are set by whole seconds. -/
def settleTimes (vs : List TableValue) : List TableValue :=
  if areAlike (vs.filterMap TableValue.time?) then
    vs.map fun
      | .time t => .time (onWholeSeconds t)
      | v => v
  else vs

/-- Brings the values of a column into one form. -/
def settle (vs : List TableValue) : Result (List TableValue) :=
  match vs.mapM (m := Option) TableValue.label? with
  | some ls => settleLabels ls
  | none => .ok (settleTimes vs)

/-! ## Text -/

/-- How precisely points in time are written. -/
inductive Precision
  | days
  | seconds
  | millis
  | micros
  deriving DecidableEq, Repr

/-- The coarsest precision that loses nothing; days alone only where no point in time has a zone. -/
def Precision.of (ts : List Instant) : Precision :=
  if ts.all fun t => t.zone.isNone && t.clock.micros = 0 then days
  else if ts.all fun t => t.clock.subsecond = 0 then seconds
  else if ts.all fun t => t.clock.subsecond % 1000 = 0 then millis
  else micros

def Precision.write (p : Precision) (t : Instant) : String :=
  let seconds := t.date.text ++ " " ++ t.clock.secondsText
  let zone := t.zone.elim "" Zone.text
  match p with
  | days => t.date.text
  | .seconds => seconds ++ zone
  | millis => seconds ++ "." ++ Date.padded 3 (t.clock.subsecond / 1000) ++ zone
  | micros => seconds ++ "." ++ Date.padded 6 t.clock.subsecond ++ zone

/-- Points in time that are alike are equally precise; others have each the form of their own. -/
def writeTime (ts : List Instant) : Instant → String :=
  if areAlike ts then (Precision.of ts).write else Instant.textWith " "

def write (timeText : Instant → String) : TableValue → String
  | .missing => ""
  | .label l => l.display
  | .real x => x.text
  | .text s => s
  | .date d => d.text
  | .time t => timeText t
  | .flag b => Document.flagText b

/-- The texts of the values of a column. -/
def texts (vs : List TableValue) : List String :=
  vs.map (write (writeTime (vs.filterMap TableValue.time?)))

end Column
end CrewRoster
