import CrewRoster.Duty

/-!
Changing the seats of one duty. The fields that follow from the seats are written anew one after the
other, and each write is announced before it happens and reported after it. A point in time that does
not exist breaks an edit off; what has been written by then stays written.
-/

namespace CrewRoster

/-- The fields of a duty that change, in the order in which they are written. -/
inductive Field
  | assignments
  | start
  | finish
  | lastArrival
  | code
  deriving DecidableEq, Repr

namespace Field

def text : Field → String
  | assignments => "assignments"
  | start => "start"
  | finish => "end"
  | lastArrival => "last_flight_arrival"
  | code => "code"

end Field

inductive Phase
  | before
  | after
  deriving DecidableEq, Repr

/-- A field of a duty is about to be written, or has been; `duty` is how the duty stands then. -/
structure Notice where
  phase : Phase
  duty : Duty
  field : Field
  deriving DecidableEq

namespace Notice

def text (n : Notice) : String :=
  let phase := match n.phase with | .before => "before" | .after => "after"
  phase ++ " " ++ n.duty.id ++ " " ++ n.field.text

end Notice

/-- How far an edit has come: the duty, the notices given, and the fault that broke it off. -/
structure Edit where
  duty : Duty
  notices : List Notice
  fault : Option Fault

namespace Edit

def begin (d : Duty) : Edit := ⟨d, [], none⟩

/-- Announces a change, makes it, and reports it; a change that fails is only announced. -/
def change (e : Edit) (field : Field) (f : Duty → Result Duty) : Edit :=
  match e.fault with
  | some _ => e
  | none =>
    let announced := e.notices ++ [⟨.before, e.duty, field⟩]
    match f e.duty with
    | .ok d => { e with duty := d, notices := announced ++ [⟨.after, d, field⟩] }
    | .error fault => { e with notices := announced, fault := some fault }

/-- Writes a field; a value that does not exist is not even announced. -/
def write {α : Type} (e : Edit) (field : Field) (value : Result α) (f : α → Duty → Duty) : Edit :=
  match e.fault, value with
  | some _, _ => e
  | none, .ok a => e.change field fun d => .ok (f a d)
  | none, .error fault => { e with fault := some fault }

def writeStart (e : Edit) (t : Result (Option Instant)) : Edit :=
  e.write .start t fun t d => { d with start := t }

def writeFinish (e : Edit) (t : Result (Option Instant)) : Edit :=
  e.write .finish t fun t d => { d with finish := t }

def writeLastArrival (e : Edit) (t : Option Instant) : Edit :=
  e.write .lastArrival (.ok t) fun t d => { d with lastArrival := t }

def writeCode (e : Edit) (code : Option Label) : Edit :=
  e.write .code (.ok code) fun code d => { d with code }

/-- The times of a duty run from the first departure, less sign-in, to the last arrival and sign-off. -/
def writeTimes (e : Edit) : Edit :=
  match e.duty.first?, e.duty.last? with
  | some first, some last =>
    ((e.writeStart ((first.flight.departure.plus (-Flight.signIn)).map some)).writeFinish
      ((last.flight.arrival.plus Flight.signOff).map some)).writeLastArrival last.flight.arrival
  | _, _ => e

/-- What a duty without seats goes back to. -/
def writeGround (e : Edit) : Edit :=
  let ground := e.duty.ground
  (((e.writeStart (.ok (ground.map (·.start)))).writeFinish
    (.ok (ground.map (·.finish)))).writeLastArrival none).writeCode (ground.bind (·.code))

end Edit

namespace Duty

/-- Takes a seat out of a duty and brings its fields up to date. -/
def retract (d : Duty) (s : Seat) : Edit :=
  let e := (Edit.begin d).change .assignments fun d => (d.remove s).map (·.1)
  if e.duty.isFlightDuty then e.writeTimes else e.writeGround

/-- Puts a seat into a duty and brings its fields up to date. -/
def enter (d : Duty) (s : Seat) : Edit :=
  ((Edit.begin d).change .assignments fun d => (d.add s).map (·.1)).writeTimes.writeCode flightCode

end Duty
end CrewRoster
