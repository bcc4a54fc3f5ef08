import CrewRoster.Instance.Scenario
import CrewRoster.Report.Table
import CrewRoster.Rules.Connections

/-!
The figures of a roster: one row for each flight duty, one for each employee, and a calendar of employees
and days; and the tables that they make.
-/

namespace CrewRoster

/-- What an employee does on a day, at a glance. -/
inductive Cell
  | nothing
  | flight
  | ground
  | dayOff
  | violation
  deriving DecidableEq, Repr

namespace Cell

def number : Cell → Nat
  | nothing => 0
  | flight => 1
  | ground => 2
  | dayOff => 3
  | violation => 4

end Cell

/-- The figures of a flight duty. -/
structure DutyRow where
  employee : String
  date : Date
  code : Option Label
  legs : Nat
  start : Instant
  finish : Option Instant
  blockMinutes : Int
  periodMinutes : Int
  limitMinutes : Int
  pointsOverLimit : Int
  restLack : Int
  homePoints : Int
  groundOverlap : Int
  isDayBeforeOffOrGround : Bool
  isDayAfterOffOrGround : Bool
  isLateArrival : Bool
  isNightDuty : Bool
  noLocalNight : Bool

/-- The figures of an employee. -/
structure Workload where
  employee : String
  name : Label
  home : Label
  seats : Nat
  flightMinutes : Int
  connections : Connections
  encroachment : Int
  startsAtHome : Bool
  endsAtHome : Bool

structure Report where
  employees : List String
  days : List Date
  calendar : List (List Cell)
  duties : List DutyRow
  dutyTable : Table
  workloads : List Workload
  workloadTable : Table

/-- What the figures depend on beside the roster. -/
structure ReportSettings where
  zone : Zone
  maxTaxi : Int
  groundCode : Label

namespace ReportSettings

def usual : ReportSettings := ⟨.crew, Connections.usualMaxTaxi, Duty.groundCode⟩

def ofScenario (s : Scenario) : Result ReportSettings := do
  return ⟨← s.zone, s.maxTaxi, .text s.groundCode⟩

end ReportSettings

namespace DutyRow

/-- The row of a duty; it needs a start. -/
def ofDuty (settings : ReportSettings) (r : Roster) (e : Employee) (d : Duty) : Result DutyRow := do
  let period ← d.flightDutyPeriod
  let start ← d.start.elim (.error .noMember) .ok
  let limit ← d.periodLimit r.reference.limits settings.zone start
  return {
    employee := e.id
    date := d.date
    code := d.code
    legs := d.legs
    start
    finish := d.finish
    blockMinutes := ← d.blockMinutes
    periodMinutes := period.elim 0 Span.minutes
    limitMinutes := Span.minutes limit
    pointsOverLimit := ← d.pointsOverLimit r.reference.limits settings.zone
    restLack := ← d.restLack (← e.dayAfter d.date) e
    homePoints := ← d.homePoints e r.reference
    groundOverlap := ← d.groundOverlapMinutes
    isDayBeforeOffOrGround := ← d.isDayBeforeOffOrGround e settings.groundCode
    isDayAfterOffOrGround := ← d.isDayAfterOffOrGround e settings.groundCode
    isLateArrival := d.isLateArrival
    isNightDuty := d.isNightDuty
    noLocalNight := ← d.noLocalNight (← e.dayBefore d.date) }

def isViolation (row : DutyRow) : Bool := 0 < row.pointsOverLimit || 0 < row.restLack

def columns : List String := [
  "employee_id", "date", "code", "segments", "start", "end", "block_minutes", "fdp_minutes",
  "fdp_limit_minutes", "over_max_fdp", "rest_lack", "home_base_inconvenience", "ground_overlap",
  "day_before_ground_or_holiday", "day_after_ground_or_holiday", "late_arrival", "night_duty",
  "no_local_night"]

def values (d : DutyRow) : List TableValue := [
  .text d.employee, .date d.date, .label (d.code.getD .null), .ofWhole d.legs, .time d.start,
  d.finish.elim .missing .time, .ofWhole d.blockMinutes, .ofWhole d.periodMinutes,
  .ofWhole d.limitMinutes, .ofWhole d.pointsOverLimit, .ofWhole d.restLack, .ofWhole d.homePoints,
  .ofWhole d.groundOverlap, .flag d.isDayBeforeOffOrGround, .flag d.isDayAfterOffOrGround,
  .flag d.isLateArrival, .flag d.isNightDuty, .flag d.noLocalNight]

def table (ds : List DutyRow) : Result Table := Table.ofRows columns (ds.map values)

end DutyRow

namespace Workload

def ofEmployee (settings : ReportSettings) (r : Roster) (e : Employee) : Result Workload := do
  return {
    employee := e.id
    name := e.name
    home := e.home
    seats := e.calendar.seatCount
    flightMinutes := ← e.flightMinutes
    connections := ← e.connections r.reference settings.maxTaxi
    encroachment := ← e.totalEncroachment settings.zone
    startsAtHome := e.startsAtHome
    endsAtHome := e.endsAtHome }

def columns : List String := [
  "employee_id", "name", "home_airport", "assignments", "flight_minutes", "invalid_connections",
  "taxi_minutes", "day_off_encroachment", "starts_at_home", "ends_at_home"]

def values (w : Workload) : List TableValue := [
  .text w.employee, .label w.name, .label w.home, .ofWhole w.seats, .ofWhole w.flightMinutes,
  .ofWhole w.connections.invalid, .ofWhole w.connections.taxiMinutes, .ofWhole w.encroachment,
  .flag w.startsAtHome, .flag w.endsAtHome]

/-- Without employees there are no columns either. -/
def table (ws : List Workload) : Result Table :=
  Table.ofRows (if ws.isEmpty then [] else columns) (ws.map values)

end Workload

namespace Report

def cell (rows : List DutyRow) (e : Employee) (day : Date) : Cell :=
  let ofAvailability := if e.isAvailable day then Cell.nothing else .dayOff
  match e.dutyOn day with
  | none => ofAvailability
  | some d =>
    if d.isFlightDuty then
      if rows.any fun row => row.employee = e.id && row.date = day && row.isViolation then .violation
      else .flight
    else if d.hasCode then .ground
    else ofAvailability

/-- Employees by id. -/
def employeesOf (r : Roster) : List Employee := r.employees.values.mergeSort fun a b => a.id ≤ b.id

def build (settings : ReportSettings) (r : Roster) : Result Report := do
  let employees := employeesOf r
  let days := r.horizon
  let rows ← employees.mapM fun e =>
    (e.calendar.duties.filter (·.isFlightDuty)).mapM (DutyRow.ofDuty settings r e)
  let duties := rows.flatten
  -- a table that cannot be made ends the report before the next rows are looked at
  let dutyTable ← DutyRow.table duties
  let workloads ← employees.mapM (Workload.ofEmployee settings r)
  return {
    employees := employees.map (·.id)
    days
    calendar := employees.map fun e => days.map (cell duties e)
    duties
    dutyTable
    workloads
    workloadTable := ← Workload.table workloads }

def calendarTable (r : Report) : Table where
  names := "employee_id" :: r.days.map (·.text)
  columns := r.employees.map .text ::
    transpose r.days.length (r.calendar.map (·.map fun c => .ofWhole c.number))

/-- The tables by the names of their files. -/
def files (r : Report) : List (String × String) := [
  ("calendar_matrix.csv", r.calendarTable.csv),
  ("duty_metrics.csv", r.dutyTable.csv),
  ("workloads.csv", r.workloadTable.csv)]

end Report
end CrewRoster
