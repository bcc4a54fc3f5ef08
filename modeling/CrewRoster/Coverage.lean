import CrewRoster.Eligibility

/-!
Shortages that can be seen before any search: a seat for which nobody is eligible, and a flight with
fewer eligible employees than seats.
-/

namespace CrewRoster

/-- A seat for which nobody is eligible. -/
structure SeatShortage where
  seat : Seat
  eligible : Nat

/-- A flight for which too few employees are eligible. -/
structure FlightShortage where
  flight : String
  seats : List String
  available : List String

namespace SeatShortage

def before (a b : SeatShortage) : Bool :=
  a.seat.flight.id < b.seat.flight.id ||
    (a.seat.flight.id = b.seat.flight.id && a.seat.id ≤ b.seat.id)

/-- Shortages by flight, then by seat. -/
def find (employees : List Employee) (seats : List Seat) (el : Eligibility) : List SeatShortage :=
  let counted := seats.map fun s => SeatShortage.mk s (employees.countP fun e => el.allows e.id s.id)
  (counted.filter (·.eligible = 0)).mergeSort before

end SeatShortage

namespace FlightShortage

def sortTexts (texts : List String) : List String := texts.mergeSort fun a b => a ≤ b

/-- Seats by flight. -/
def byFlight (seats : List Seat) : Registry String (List Seat) :=
  seats.foldl (fun r s => r.insert s.flight.id ((r.get? s.flight.id).getD [] ++ [s])) .empty

/-- How far the employees fall short of the seats, as a number below zero. -/
def balance (f : FlightShortage) : Int := f.available.length - f.seats.length

def before (a b : FlightShortage) : Bool :=
  a.balance < b.balance || (a.balance = b.balance && a.flight ≤ b.flight)

/-- Shortages, the largest first. -/
def find (employees : List Employee) (seats : List Seat) (el : Eligibility) : List FlightShortage :=
  let flights := (byFlight seats).entries.map fun (flight, seats) =>
    -- nobody holds two seats of a flight, so each seat needs an employee of its own
    let available := employees.filter fun e => seats.any fun s => el.allows e.id s.id
    FlightShortage.mk flight (sortTexts (seats.map (·.id)))
      (sortTexts (available.map (·.id)).eraseDups)
  (flights.filter (·.balance < 0)).mergeSort before

end FlightShortage
end CrewRoster
