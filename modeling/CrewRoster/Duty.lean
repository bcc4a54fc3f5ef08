import CrewRoster.Bisection
import CrewRoster.Flight

/-!
Duties: what one employee does on one day. A duty holds the seats whose flights depart that day, in
order, and fields that follow from them: when the duty starts and ends, when its last flight arrives,
and its code. A ground activity that was fixed beforehand gives the fields their values while there is
no seat.
-/

namespace CrewRoster

/-- An activity on the ground, planned before the roster is. -/
structure Ground where
  code : Option Label
  start : Instant
  finish : Instant
  deriving DecidableEq

structure Duty where
  employee : String
  date : Date
  seats : List Seat
  start : Option Instant
  finish : Option Instant
  lastArrival : Option Instant
  code : Option Label
  ground : Option Ground
  deriving DecidableEq

namespace Duty

/-- The code of a duty with flights. -/
def flightCode : Label := .text "FLT"

/-- The usual code of a duty on the ground. -/
def groundCode : Label := .text "GND"

def idFor (employee : String) (date : Date) : String := employee ++ "@" ++ date.text

def id (d : Duty) : String := idFor d.employee d.date

/-- A day with nothing to do. -/
def placeholder (employee : String) (date : Date) : Duty :=
  ⟨employee, date, [], none, none, none, none, none⟩

/-- A day with an activity on the ground, the day on which it starts. -/
def ofGround (employee : String) (g : Ground) : Duty :=
  ⟨employee, g.start.date, [], some g.start, some g.finish, none, g.code, some g⟩

def groundCode? (d : Duty) : Option Label := d.ground.bind (·.code)

def isFlightDuty (d : Duty) : Bool := !d.seats.isEmpty
def isGroundDuty (d : Duty) : Bool := d.groundCode?.isSome
def hasCode (d : Duty) : Bool := d.code.isSome
def legs (d : Duty) : Nat := d.seats.length
def first? (d : Duty) : Option Seat := d.seats.head?
def last? (d : Duty) : Option Seat := d.seats.getLast?

/-! ## Seats in order -/

/-- How many seats come before `k`, as far as the seats are in order. -/
def countBefore (seats : List Seat) (k : Seat.Key) : Nat :=
  Lists.bisect (·.key.lt k) seats 0 seats.length

/-- How many seats do not come after `k`, as far as the seats are in order. -/
def countUpTo (seats : List Seat) (k : Seat.Key) : Nat :=
  Lists.bisect (·.key.le k) seats 0 seats.length

/-- The place of a seat in an ordered list. -/
def indexOf? (seats : List Seat) (s : Seat) : Option Nat :=
  let i := countBefore seats s.key
  if (seats[i]?).any (·.id == s.id) then some i else none

def insertSeat (seats : List Seat) (s : Seat) : List Seat :=
  if (indexOf? seats s).isSome then seats else seats.insertIdx (countBefore seats s.key) s

def eraseSeat (seats : List Seat) (s : Seat) : List Seat :=
  (indexOf? seats s).elim seats seats.eraseIdx

/-- Seats are counted by a key only if it compares with the keys that are looked at. -/
def checkOrder (d : Duty) (s : Seat) (r : Seat.Key → Seat.Key → Bool := Seat.Key.lt) : Result Unit :=
  if (Lists.probed (r ·.key s.key) d.seats 0 d.seats.length).all (·.comparable s) then .ok ()
  else .error .wrongType

/-- The place of a seat in the duty. -/
def position? (d : Duty) (s : Seat) : Result (Option Nat) := do
  d.checkOrder s
  return indexOf? d.seats s

def contains (d : Duty) (s : Seat) : Result Bool := do return (← d.position? s).isSome

/-- Adds a seat at its place, and says whether it was new. -/
def add (d : Duty) (s : Seat) : Result (Duty × Bool) := do
  let place ← d.position? s
  return ({ d with seats := insertSeat d.seats s }, place.isNone)

/-- Takes a seat out, and says whether it was there. -/
def remove (d : Duty) (s : Seat) : Result (Duty × Bool) := do
  let place ← d.position? s
  return ({ d with seats := eraseSeat d.seats s }, place.isSome)

/-- A line about the duty, as messages show it. -/
def display (d : Duty) : String :=
  let code := d.code.elim "None" Document.display
  let seats := Text.bracketed (d.seats.map fun s => Text.quoted s.id)
  s!"Duty(code={code}, date={d.date.text}, employee={d.employee}, assignments={seats})"

end Duty
end CrewRoster
