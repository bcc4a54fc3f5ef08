import CrewRoster.Rules.Rest

/-!
How far from home a duty starts and ends, and what lies on the days beside it.
-/

namespace CrewRoster.Duty

/-- Points for an airport: ten where home is out of reach by ground, else one for every 50 minutes. -/
def distancePoints (r : Reference) (airport home : Label) : Int :=
  (r.taxi airport home).elim 10 fun minutes => Int.fdiv minutes 50

def startPoints (d : Duty) (e : Employee) (r : Reference) : Result Int :=
  match d.first? with
  | none => .ok 0
  | some s => do
    r.checkWay s.flight.origin e.home
    return distancePoints r s.flight.origin e.home

def endPoints (d : Duty) (e : Employee) (r : Reference) : Result Int :=
  match d.last? with
  | none => .ok 0
  | some s => do
    r.checkWay s.flight.destination e.home
    return distancePoints r s.flight.destination e.home

/-- Points for both ends of a duty. -/
def homePoints (d : Duty) (e : Employee) (r : Reference) : Result Int := do
  return (← d.startPoints e r) + (← d.endPoints e r)

/-- A day is off or has a duty with the ground code; a duty without a code has the code `null`. -/
def isOffOrGround (e : Employee) (groundCode : Label) (day : Date) : Bool :=
  !e.isAvailable day || (e.dutyOn day).any fun d => (d.code.getD .null).same groundCode

def isDayAfterOffOrGround (d : Duty) (e : Employee) (groundCode : Label) : Result Bool := do
  return isOffOrGround e groundCode (← d.date.next)

def isDayBeforeOffOrGround (d : Duty) (e : Employee) (groundCode : Label) : Result Bool := do
  return isOffOrGround e groundCode (← d.date.previous)

end CrewRoster.Duty
