import CrewRoster.Calendar

/-!
Crew members: what they may do, when they are off, and their calendars.
-/

namespace CrewRoster

structure Employee where
  id : String
  name : Label
  home : Label
  skills : List Label
  aircraft : List Label
  extras : List Label
  daysOff : List Date
  calendar : Calendar

namespace Employee

/-- Whether a label is in a collection; only a scalar label can be asked for. -/
def holds (labels : List Label) (l : Label) : Result Bool := do
  let k ← l.lookupKey
  return labels.any fun m => m.key = k

/-- Labels without repetition. -/
def distinct (labels : List Label) : List Label :=
  labels.foldl (fun kept l => if kept.any l.sameKey then kept else kept ++ [l]) []

def hasSkill (e : Employee) (skill : Label) : Result Bool := holds e.skills skill
def isQualifiedFor (e : Employee) (aircraft : Label) : Result Bool := holds e.aircraft aircraft
def hasExtra (e : Employee) (extra : Label) : Result Bool := holds e.extras extra
def isAvailable (e : Employee) (day : Date) : Bool := !e.daysOff.contains day

/-! ## Calendar -/

def dutyOn (e : Employee) (day : Date) : Option Duty := e.calendar.dutyOn day

def putOn (e : Employee) (day : Date) (d : Duty) : Employee :=
  { e with calendar := e.calendar.putOn day d }

def put (e : Employee) (d : Duty) : Employee := e.putOn d.date d

/-- Enters empty duties from `first` to `last` wherever there is none. -/
def cover (e : Employee) (first last : Date) : Employee :=
  { e with calendar := e.calendar.cover e.id first last }

/-- Nothing can be planned up to the last day of the calendar, which no day follows. -/
def checkHorizon (first last : Date) : Result Unit :=
  if first ≤ last then last.next.map fun _ => () else .ok ()

/-- The duty on a date, entered as an empty one if there is none. -/
def ensure (e : Employee) (day : Date) : Employee × Duty :=
  match e.dutyOn day with
  | some d => (e, d)
  | none =>
    let d := Duty.placeholder e.id day
    (e.put d, d)

/-- Enters a duty of the employee's own on a date where nothing is planned. -/
def place (e : Employee) (d : Duty) : Result Employee :=
  if d.employee ≠ e.id then .error (.rejected (.foreignDuty d.id d.employee e.id))
  else
    match e.dutyOn d.date with
    | none => .ok (e.put d)
    | some existing =>
      if existing.isFlightDuty || existing.hasCode then
        .error (.rejected (.dayTaken e.id d.date.text))
      else .ok (e.put d)

def dayBefore (e : Employee) (day : Date) : Result (Option Duty) := do
  return e.dutyOn (← day.previous)

def dayAfter (e : Employee) (day : Date) : Result (Option Duty) := do
  return e.dutyOn (← day.next)

def seats (e : Employee) : List Seat := e.calendar.seats

end Employee
end CrewRoster
