import CrewRoster.Ledger.Edit
import CrewRoster.Roster

/-!
The ledger: a roster in the hands of whoever changes its owners, with the notices of all writes.

A change of owner has two halves. `release` takes the seat out of the duty of its owner and leaves it
pending; then the owner is written; then `settle` enters the seat into the duty of its new owner. The
halves alternate, on one seat at a time, and a call out of turn is refused without a change.
-/

namespace CrewRoster

structure Ledger where
  roster : Roster
  /-- The seat between the two halves of a change. -/
  pending : Option String
  /-- Oldest first. -/
  notices : List Notice

namespace Ledger

def ofRoster (r : Roster) : Ledger := ⟨r, none, []⟩

/-- Operations answer with the ledger they leave behind, also when they fail. -/
abbrev Outcome (α : Type) := Ledger × Result α

/-- Goes on after a success. -/
def andThen {α β : Type} (o : Outcome α) (f : α → Ledger → Outcome β) : Outcome β :=
  match o with
  | (l, .ok a) => f a l
  | (l, .error fault) => (l, .error fault)

/-- Takes over an edited duty, where it stands in the calendar of `id`, with its notices, and fails as the
edit did. -/
def record (l : Ledger) (id : String) (day : Date) (e : Edit) : Outcome Unit :=
  ({ l with roster := l.roster.putDuty id day e.duty, notices := l.notices ++ e.notices },
    e.fault.elim (.ok ()) .error)

def employee (l : Ledger) (id : String) : Result Employee :=
  (l.roster.employees.get? id).elim (.error (.breach (.unknownEmployee id))) .ok

def refuse {α : Type} (l : Ledger) (why : Breach) : Outcome α := (l, .error (.breach why))

def setOwner (l : Ledger) (seat : String) (owner : Option String) : Ledger :=
  { l with roster := l.roster.setOwner seat owner }

/-- The duty that lists an owned seat. -/
def dutyListing (l : Ledger) (s : Seat) (owner : String) : Result Duty := do
  let absent : Result Duty := .error (.breach (.notInCalendar s.id owner))
  match (← l.employee owner).dutyOn s.departureDate with
  | none => absent
  | some d => if ← d.contains s then return d else absent

/-- The first half of a change: the seat leaves the duty of its owner, if it has one. -/
def release (l : Ledger) (a : Assignment) : Outcome Unit :=
  match l.pending, a.owner with
  | some pending, _ => l.refuse (.stillPending a.seat.id pending)
  | none, none => ({ l with pending := some a.seat.id }, .ok ())
  | none, some owner =>
    match l.dutyListing a.seat owner with
    | .error fault => (l, .error fault)
    | .ok d => { l with pending := some a.seat.id }.record owner a.seat.departureDate (d.retract a.seat)

/-- The second half of a change: the seat enters the duty of its new owner, if it has one. -/
def settle (l : Ledger) (a : Assignment) : Outcome Unit :=
  if l.pending ≠ some a.seat.id then l.refuse (.notPending a.seat.id)
  else
    match a.owner with
    | none => ({ l with pending := none }, .ok ())
    | some owner =>
      match l.employee owner with
      -- an owner who does not exist leaves the seat pending
      | .error fault => (l, .error fault)
      | .ok e =>
        { l with pending := none }.record owner a.seat.departureDate
          ((e.ensure a.seat.departureDate).2.enter a.seat)

/-- A whole change of owner. An owner who does not exist is refused before anything happens. -/
def assign (l : Ledger) (a : Assignment) (owner : Option String) : Outcome Unit :=
  match owner.mapM l.employee with
  | .error fault => (l, .error fault)
  | .ok _ =>
    andThen (l.release a) fun _ l =>
      (l.setOwner a.seat.id owner).settle { a with owner }

/-! ## Calendars -/

/-- Enters a duty of an employee, which no notice tells. -/
def place (l : Ledger) (e : Employee) (d : Duty) : Outcome Unit :=
  match e.place d with
  | .ok e => ({ l with roster := l.roster.replace e }, .ok ())
  | .error fault => (l, .error fault)

/-- Enters an empty duty of an employee on a day that has none, and answers with the duty of the day. -/
def ensure (l : Ledger) (e : Employee) (day : Date) : Outcome Duty :=
  let (e, d) := e.ensure day
  ({ l with roster := l.roster.replace e }, .ok d)

/-- Enters the empty duties of a period. All of them are there before a period without end fails. -/
def cover (l : Ledger) (e : Employee) (first last : Date) : Outcome Unit :=
  ({ l with roster := l.roster.replace (e.cover first last) }, Employee.checkHorizon first last)

/-! ## Many changes at once -/

/-- Owners for seats, in order. -/
abbrev Plan := List (String × Option String)

/-- A plan is about seats and employees of the roster. -/
def checkPlan (r : Roster) : Plan → Result Unit
  | [] => .ok ()
  | (seat, owner) :: plan =>
    if !r.assignments.contains seat then .error (.rejected (.unknownSeat seat))
    else
      match owner with
      | some id =>
        if r.employees.contains id then checkPlan r plan
        else .error (.rejected (.unknownOwner seat id))
      | none => checkPlan r plan

/-- Carries a plan out, passing over the seats that have their owner already, and counts the changes. -/
def follow (l : Ledger) (count : Nat) : Plan → Outcome Nat
  | [] => (l, .ok count)
  | (seat, owner) :: plan =>
    match l.roster.assignment seat with
    | .error fault => (l, .error fault)
    | .ok a =>
      if a.owner = owner then l.follow count plan
      else
        match l.assign a owner with
        | (l, .ok ()) => l.follow (count + 1) plan
        | (l, .error fault) => (l, .error fault)

def apply (l : Ledger) (plan : Plan) : Outcome Nat :=
  match checkPlan l.roster plan with
  | .error fault => (l, .error fault)
  | .ok () => l.follow 0 plan

end Ledger
end CrewRoster
