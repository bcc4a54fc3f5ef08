import CrewRoster.Employee
import CrewRoster.Reference

/-!
Rosters: the flights of a period, the seats on them with their owners, and the crew.
-/

namespace CrewRoster

/-- A seat and who holds it, if somebody does. -/
structure Assignment where
  seat : Seat
  owner : Option String
  deriving DecidableEq

namespace Assignment

/-- A line about the assignment, as messages show it. -/
def display (a : Assignment) : String :=
  let owner := a.owner.getD "None"
  s!"FlightAssignment({a.seat.id}, owner={owner})"

end Assignment

structure Roster where
  first : Date
  last : Date
  reference : Reference
  flights : Registry String Flight
  assignments : Registry String Assignment
  employees : Registry String Employee

namespace Roster

def horizon (r : Roster) : List Date := Date.range r.first r.last

/-- A roster without owners, in which every employee has a duty on every day of the period. -/
def build (first last : Date) (reference : Reference) (flights : List Flight) (seats : List Seat)
    (employees : List Employee) : Result Roster := do
  if !employees.isEmpty then Employee.checkHorizon first last
  let employees : Registry String Employee := .ofList (employees.map fun e => (e.id, e))
  return {
    first, last, reference
    flights := .ofList (flights.map fun f => (f.id, f))
    assignments := .ofList (seats.map fun s => (s.id, ⟨s, none⟩))
    employees := employees.mapValues (·.cover first last) }

def assignment (r : Roster) (seat : String) : Result Assignment :=
  (r.assignments.get? seat).elim (.error .missingKey) .ok

def employee (r : Roster) (id : String) : Result Employee :=
  (r.employees.get? id).elim (.error .missingKey) .ok

def setOwner (r : Roster) (seat : String) (owner : Option String) : Roster :=
  { r with assignments := r.assignments.modify seat fun a => { a with owner } }

/-- Enters a duty under a date in the calendar of an employee. -/
def putDuty (r : Roster) (id : String) (day : Date) (d : Duty) : Roster :=
  { r with employees := r.employees.modify id (·.putOn day d) }

/-- Puts an employee in the place of the one with the same id. -/
def replace (r : Roster) (e : Employee) : Roster :=
  { r with employees := r.employees.modify e.id fun _ => e }

/-- Seats can be sorted if their departures all lie on one line. -/
def checkOrder : List Seat → Result Unit
  | [] => .ok ()
  | s :: seats => if seats.all s.comparable then .ok () else .error .wrongType

/-- Assignments in the order of their seats. -/
def sortAssignments (as : List Assignment) : Result (List Assignment) := do
  checkOrder (as.map (·.seat))
  return as.mergeSort fun a b => a.seat.key.le b.seat.key

def sorted (r : Roster) : Result (List Assignment) := sortAssignments r.assignments.values

def unassigned (r : Roster) : Result (List Assignment) := do
  return (← r.sorted).filter (·.owner.isNone)

end Roster
end CrewRoster
