import CrewRoster.Document
import CrewRoster.Time.Notation

/-!
Flights, and the seats on them that need a crew member.
-/

namespace CrewRoster

/-- One leg, at points in time given in UTC. -/
structure Flight where
  number : String
  origin : Label
  destination : Label
  departure : Instant
  arrival : Instant
  aircraft : Label
  registration : Label
  deriving DecidableEq

namespace Flight

/-- Before the first departure of a duty the crew signs in, after the last arrival it signs off. -/
def signIn : Span := 30 * Span.minute
def signOff : Span := 30 * Span.minute

def departureDate (f : Flight) : Date := f.departure.date
def arrivalDate (f : Flight) : Date := f.arrival.date

/-- A flight number is used once a day. -/
def id (f : Flight) : String := f.number ++ "@" ++ f.departureDate.text

/-- The whole minutes in the air. -/
def minutes (f : Flight) : Result Int := do return (← f.arrival.minus f.departure).minutesBelow

end Flight

/-- A place on a flight that asks for a skill. -/
structure Seat where
  id : String
  flight : Flight
  skill : Label
  /-- 0 for the primary skill of the flight, then upward. -/
  index : Int
  deriving DecidableEq

namespace Seat

def idFor (f : Flight) (index : Nat) : String := f.id ++ "#" ++ toString index

/-- What seats are ordered by: departure, then flight number, then place on the flight. -/
structure Key where
  departure : Int
  number : String
  index : Int
  deriving DecidableEq, Repr

def key (s : Seat) : Key := ⟨s.flight.departure.position, s.flight.number, s.index⟩

namespace Key

def lt (a b : Key) : Bool :=
  a.departure < b.departure ||
    (a.departure = b.departure && (a.number < b.number || (a.number = b.number && a.index < b.index)))

def le (a b : Key) : Bool := !b.lt a

end Key

/-- Seats are in order with each other only if their departures are. -/
def comparable (a b : Seat) : Bool := a.flight.departure.comparable b.flight.departure

def departureDate (s : Seat) : Date := s.flight.departureDate

end Seat
end CrewRoster
