import CrewRoster.Instance.Network
import CrewRoster.Roster

/-!
Reading flights with their seats, and employees with their ground duties, and checking them.
-/

namespace CrewRoster

/-- The seats of a flight, one for each skill that it asks for. -/
def Seat.ofSkills (f : Flight) (skills : List Label) : List Seat :=
  skills.zipIdx.map fun (skill, i) => ⟨Seat.idFor f i, f, skill, i⟩

namespace Flight

def ofDocument (d : Document) : Result Flight := do
  let number := (← d.field "flight_number").display
  let origin ← d.field "departure_airport"
  let destination ← d.field "arrival_airport"
  let departure ← Instant.read (← d.field "departure_utc")
  let arrival ← Instant.read (← d.field "arrival_utc")
  let aircraft ← d.fieldOr "aircraft_type" (.text "")
  let registration ← d.fieldOr "aircraft_registration" (.text "")
  return { number, origin, destination, departure, arrival, aircraft, registration }

/-- A flight with its seats. -/
def withSeats (d : Document) : Result (Flight × List Seat) := do
  let f ← ofDocument d
  return (f, Seat.ofSkills f (← (← d.fieldOr "required_skills" (.array [])).items))

/-- Both airports are listed, and the flight departs before it arrives. -/
def check (r : Reference) (f : Flight) : Result Unit := do
  r.checkAirport ("Flight " ++ f.id) f.origin
  r.checkAirport ("Flight " ++ f.id) f.destination
  if ← f.arrival.le? f.departure then .error (.rejected (.arrivesFirst f.id))

end Flight

/-- Flights are told apart by number and day, and every seat asks for a skill. -/
def checkFlights (r : Reference) (flights : List Flight) (seats : List Seat) : Result Unit := do
  let ids := flights.map (·.id)
  if ids.eraseDups.length ≠ ids.length then .error (.rejected .repeatedFlight)
  flights.forM (Flight.check r)
  seats.forM fun s => do
    if !s.skill.isPresent then .error (.rejected (.seatWithoutSkill s.id))

namespace Employee

/-- Labels of which each can be looked up, without repetition. -/
def labelSet (d : Document) : Result (List Label) := do
  let labels ← d.items
  labels.forM fun l => do let _ ← l.lookupKey
  return distinct labels

def groundOf (employee : String) (d : Document) : Result Duty := do
  let code ← d.field "code"
  let start ← Instant.read (← d.field "start")
  let finish ← Instant.read (← d.field "end")
  return .ofGround employee ⟨if code = .null then none else some code, start, finish⟩

/-- An employee with an empty calendar, and the ground duties that go into it. -/
def ofDocument (d : Document) : Result (Employee × List Duty) := do
  let id := (← d.field "employee_id").display
  let name ← d.fieldOr "name" (.text id)
  let home ← d.field "home_airport"
  let skills ← labelSet (← d.fieldOr "skills" (.array []))
  let aircraft ← labelSet (← d.fieldOr "aircraft_type_qualifications" (.array []))
  let extras ← labelSet (← d.fieldOr "special_qualifications" (.array []))
  let daysOff ← (← (← d.fieldOr "unavailable_days" (.array [])).items).mapM Date.read
  let grounds ← (← (← d.fieldOr "ground_duties" (.array [])).items).mapM (groundOf id)
  let calendar := Calendar.ofDuties []
  return ({ id, name, home, skills, aircraft, extras, daysOff := daysOff.eraseDups, calendar }, grounds)

/-- The home airport is listed, and there is a skill. -/
def check (r : Reference) (e : Employee) : Result Unit := do
  r.checkAirport (s!"Employee {e.id} home airport") e.home
  if e.skills.isEmpty then .error (.rejected (.employeeWithoutSkill e.id))

end Employee

def checkEmployees (r : Reference) (employees : List Employee) : Result Unit := do
  let ids := employees.map (·.id)
  if ids.eraseDups.length ≠ ids.length then .error (.rejected .repeatedEmployee)
  employees.forM (Employee.check r)

/-- A ground duty has a code and does not end before it starts. -/
def Duty.checkGround (d : Duty) : Result Unit := do
  match d.ground with
  | none => return ()
  | some g =>
    match g.code with
    | some code =>
      if !code.isPresent then .error (.rejected (.groundWithoutCode d.id))
      if ← g.finish.lt? g.start then .error (.rejected (.groundEndsFirst code.display d.id))
    | none => .error (.rejected (.groundWithoutCode d.id))

end CrewRoster
