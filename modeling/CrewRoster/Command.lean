import CrewRoster.Command.Arguments
import CrewRoster.Completion
import CrewRoster.Instance.Load
import CrewRoster.Report.Charts
import CrewRoster.Document.Writer

/-!
The commands: a look at an instance, and the completion of one with its report.
-/

namespace CrewRoster

/-- Where a completed instance goes, and how it is completed. -/
structure CompleteSettings where
  out : Path
  limits : SearchLimits
  weight : Int
  isTablesOnly : Bool

inductive Command
  | inspect (folder : Path)
  | complete (folder : Path) (settings : CompleteSettings)

/-- What a command leaves behind: its text, the files it writes, and the fault that ended it early. -/
structure Transcript where
  text : String
  files : List (String × String)
  fault : Option Fault

namespace Transcript

def empty : Transcript := ⟨"", [], none⟩

def print (t : Transcript) (line : String) : Transcript := { t with text := t.text ++ line ++ "\n" }

def write (t : Transcript) (path : Path) (text : String) : Transcript :=
  { t with files := t.files ++ [(path.text, text)] }

/-- Goes on with a value, or ends here. -/
def orStop {α : Type} (t : Transcript) (x : Result α) (f : Transcript → α → Transcript) : Transcript :=
  match x with
  | .ok a => f t a
  | .error fault => { t with fault := some fault }

end Transcript

namespace Command

/-! ## Options -/

def levels : List String := ["DEBUG", "INFO", "WARNING", "ERROR"]

def inspectOptions : List OptionSpec := [⟨"--instance-dir", .text⟩, ⟨"--log-level", .oneOf levels⟩]

def completeOptions : List OptionSpec := [
  ⟨"--instance-dir", .text⟩, ⟨"--out-dir", .text⟩, ⟨"--time-limit", .real⟩, ⟨"--num-workers", .whole⟩,
  ⟨"--home-base-weight", .whole⟩, ⟨"--log-level", .oneOf levels⟩, ⟨"--no-plots", .switch⟩]

def pathOf (g : Given) (option absent : String) : Path := .ofText ((g.value? option).getD absent)

def folderOf (g : Given) : Path := pathOf g "--instance-dir" "data/sample"

def readInspect (args : List String) : Except Stop Command := do
  return inspect (folderOf (← readArguments inspectOptions args))

def readComplete (args : List String) : Except Stop Command := do
  let g ← readArguments completeOptions args
  let usual := SearchLimits.usual
  let seconds := ((g.value? "--time-limit").bind readBinary64?).getD usual.seconds
  let workers := ((g.value? "--num-workers").bind readWhole?).getD usual.workers
  return complete (folderOf g) {
    out := pathOf g "--out-dir" "outputs"
    limits := ⟨seconds, workers⟩
    weight := ((g.value? "--home-base-weight").bind readWhole?).getD 1
    isTablesOnly := g.isSet "--no-plots" }

/-- The folder of the instance. -/
def folder : Command → Path
  | inspect folder => folder
  | complete folder _ => folder

/-! ## Inspection -/

/-- How often each label comes, in the order in which they first come. -/
def countLabels (labels : List Label) : Result (Registry Label (Label × Nat)) :=
  labels.foldlM (fun counts l => do
    let k ← l.lookupKey
    let (first, n) := (counts.get? k).getD (l, 0)
    return counts.insert k (first, n + 1)) .empty

def countsText (counts : Registry Label (Label × Nat)) : String :=
  let parts := counts.values.map fun (l, n) => l.notated ++ ": " ++ toString n
  "\x7b" ++ ", ".intercalate parts ++ "\x7d"

def employeeLine (e : Employee) (gaps : List Gap) : String :=
  let seats := e.calendar.seatCount
  let grounds := e.calendar.duties.countP (·.isGroundDuty)
  let daysOff := e.daysOff.length
  s!"  {e.id}: {seats} seats, {grounds} ground duties, {daysOff} days off, " ++
    s!"{gaps.length} repositioning gaps"

/-- A line about each of some employees. -/
def employeeLines (r : Roster) (t : Transcript) : List Employee → Transcript
  | [] => t
  | e :: es => t.orStop (e.gaps r.reference) fun t gaps =>
    employeeLines r (t.print (employeeLine e gaps)) es

/-- Flights are counted by day only where there are none: ids, not flights, are what is counted. -/
def flightsByDay (r : Roster) : Result String :=
  if r.flights.entries.isEmpty then .ok "\x7b\x7d" else .error .noMember

/-- A summary of an instance, and a line about each employee. -/
def inspection (f : Folder) : Transcript :=
  Transcript.empty.orStop (loadInstance f true) fun t (scenario, r) =>
    let seats := r.assignments.size
    let t := t.print s!"Schedule: {scenario.first.text} .. {scenario.last.text}"
    let t := t.print s!"Airports: {r.reference.airports.size}"
    let t := t.print s!"Flights: {r.flights.size}"
    t.orStop r.unassigned fun t unassigned =>
      let t := t.print s!"Seats: {seats} ({unassigned.length} unassigned)"
      t.orStop (countLabels (r.assignments.values.map (·.seat.skill))) fun t skills =>
        let t := t.print ("Seats by skill: " ++ countsText skills)
        t.orStop (flightsByDay r) fun t days =>
          let t := t.print ("Flights by day: " ++ days)
          let t := t.print s!"Employees: {r.employees.size}"
          t.orStop (countLabels (r.employees.values.map (·.home))) fun t homes =>
            let t := t.print ("Employees by home airport: " ++ countsText homes)
            employeeLines r t (Report.employeesOf r)

/-! ## Completion -/

/-- The owners of all seats, in order, as a document. -/
def solution (folder : Path) (status : Status) (owners : List Assignment) : Document :=
  .object [
    ("instance_dir", .text folder.text),
    ("status", .text status.text),
    ("assignments", .object (owners.map fun a => (a.seat.id, a.owner.elim .null .text)))]

def dutyLines (r : Roster) : List String :=
  (Report.employeesOf r).flatMap fun e =>
    (e.calendar.duties.filter (·.hasCode)).map fun d => "  " ++ d.display

/-- Writes the tables of a report, and shows its charts unless only tables are wanted. -/
def writeReport (t : Transcript) (folder : Path) (isTablesOnly : Bool) (report : Report) : Transcript :=
  let t := report.files.foldl (fun t (name, text) =>
    let path := folder.child name
    (t.write path text).print ("Saved: " ++ path.text)) t
  if isTablesOnly then t
  else t.orStop report.charts fun t _ => t.print ("Saved plots to: " ++ folder.text)

/-- Writes the owners and the report of a roster that is complete. -/
def writeComplete (t : Transcript) (scenario : Scenario) (r : Roster) (c : Completion)
    (folder : Path) (settings : CompleteSettings) : Transcript :=
  let t := t.print s!"Assigned {c.filled.length} of {c.openSeats} open seats"
  let t := (dutyLines r).foldl Transcript.print (t.print "\nDuties:")
  t.orStop r.sorted fun t owners =>
    let path := (settings.out.child "solutions").child (folder.name ++ "_solution.json")
    let t := t.write path (solution folder c.status owners).indented
    let t := t.print ("\nSaved: " ++ path.text)
    let report := do Report.build (← ReportSettings.ofScenario scenario) r
    t.orStop report fun t report =>
      writeReport t ((settings.out.child "reports").child folder.name) settings.isTablesOnly report

/-- Completes an instance and says how that went. -/
def completion (f : Folder) (settings : CompleteSettings) : Transcript :=
  Transcript.empty.orStop (loadInstance f true) fun t (scenario, r) =>
    let (l, outcome) := (Ledger.ofRoster r).complete settings.limits settings.weight
    t.orStop outcome fun t c =>
      let t := t.print ("Status: " ++ c.status.text)
      let shortages := Text.bracketed ((c.shortages.take 10).map Text.quoted)
      let t := if c.shortages.isEmpty then t else t.print ("Coverage issues: " ++ shortages)
      match c.status with
      | .coverageInfeasible | .infeasible | .refused | .undecided =>
        t.print "No feasible roster found. Check eligibility/coverage/conflicts."
      | .nothingToDo | .feasible | .optimal => writeComplete t scenario l.roster c f.path settings

def run (c : Command) (file? : String → Option String) : Transcript :=
  match c with
  | inspect folder => inspection ⟨folder, file?⟩
  | complete folder settings => completion ⟨folder, file?⟩ settings

end Command
end CrewRoster
