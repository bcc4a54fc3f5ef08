/-!
Why an operation has no answer. The causes below a certain level carry no text: a value of the wrong
kind, a key that is not there, a point in time that does not exist. The causes that a scheduler would
recognise carry what they are about, and have a sentence each.
-/

namespace CrewRoster

/-- What makes an instance or a request unacceptable. Dates and labels are given as displayed. -/
inductive Rejection
  | lastBeforeFirst (last first : String)
  | noDutyLimits
  | segmentsBeyondTable (segments : Int) (slots : Nat)
  | unknownAirport (place code known : String)
  | negativeTaxi (origin destination : String)
  | neverOperates (origin destination : String)
  | repeatedFlight
  | arrivesFirst (flight : String)
  | seatWithoutSkill (seat : String)
  | repeatedEmployee
  | employeeWithoutSkill (employee : String)
  | groundWithoutCode (duty : String)
  | groundEndsFirst (code duty : String)
  | foreignDuty (duty owner employee : String)
  | dayTaken (employee date : String)
  | unknownSeat (seat : String)
  | unknownOwner (seat employee : String)
  deriving DecidableEq, Repr

/-- How the two halves of an ownership change can be misused. -/
inductive Breach
  | stillPending (seat pending : String)
  | notPending (seat : String)
  | notInCalendar (seat employee : String)
  | unknownEmployee (employee : String)
  deriving DecidableEq, Repr

inductive Fault
  | missingKey
  | wrongType
  | noMember
  | unreadable
  | outOfRange
  | malformedDocument
  | tooDeep
  | missingFile (path : String)
  | rejected (why : Rejection)
  | breach (why : Breach)
  deriving DecidableEq, Repr

namespace Rejection

def message : Rejection → String
  | lastBeforeFirst last first => s!"schedule_last_date {last} is before schedule_first_date {first}"
  | noDutyLimits => "MaxFDP table is empty"
  | segmentsBeyondTable segments slots =>
    s!"MaxFDP segment count {segments} exceeds table size {slots}"
  | unknownAirport place code known =>
    s!"{place}: airport {code} does not exist in the airports ({known})"
  | negativeTaxi origin destination => s!"Taxi time {origin}->{destination} must be >= 0"
  | neverOperates origin destination =>
    s!"Repositioning flight {origin}->{destination} never operates"
  | repeatedFlight => "Duplicate flight number on the same departure date in flights.json"
  | arrivesFirst flight => s!"Flight {flight} must depart before it arrives"
  | seatWithoutSkill seat => s!"Assignment {seat} has no required skill"
  | repeatedEmployee => "Duplicate employee_id found in employees.json"
  | employeeWithoutSkill employee => s!"skills empty for employee {employee}"
  | groundWithoutCode duty => s!"Ground duty {duty} has no code"
  | groundEndsFirst code duty => s!"Ground duty {code} of {duty} ends before it starts"
  | foreignDuty duty owner employee => s!"Duty {duty} belongs to {owner}, not {employee}"
  | dayTaken employee date => s!"Employee {employee} already has a duty on {date}"
  | unknownSeat seat => s!"Solution references unknown assignment: {seat}"
  | unknownOwner seat employee => s!"Solution assigns {seat} to unknown employee: {employee}"

end Rejection

namespace Breach

def message : Breach → String
  | stillPending seat pending =>
    s!"before_owner_change({seat}) called while {pending} is still pending"
  | notPending seat =>
    s!"after_owner_change({seat}) called without a matching before_owner_change"
  | notInCalendar seat employee => s!"{seat} is not in the calendar of {employee}"
  | unknownEmployee employee => s!"Unknown employee: {employee}"

end Breach

namespace Fault

/-- The sentence of a fault, for those that have one. -/
def message? : Fault → Option String
  | missingFile path => some s!"Missing file: {path}"
  | rejected why => some why.message
  | breach why => some why.message
  | _ => none

end Fault

/-- A value, or the fault in its place. -/
abbrev Result (α : Type) := Except Fault α

end CrewRoster
