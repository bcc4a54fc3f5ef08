import CrewRoster.Instance.Load
import CrewRoster.Proofs.Result

namespace CrewRoster

-- The day that so many are before, or the last.
def Date.after (days : ℕ) : Date := ⟨min (days + 1) 3652059, by omega, by omega⟩

-- What a clock without a zone shows so long after midnight.
def Clock.after (hours minutes seconds : ℕ) : Clock where
  micros := ((hours * 3600 + minutes * 60 + seconds) % 86400 : ℕ) * Span.second
  zone := none
  nonneg := by
    dsimp only [Span.second, Span]
    omega
  lt_day := by
    dsimp only [Span.day, Span.hour, Span.minute, Span.second, Span]
    omega

-- The characters are given, since to take the text of a file apart is slow.
theorem Folder.document_of_file {folder : Folder} {name : String} {cs : List Char} {d : Document}
    (h : folder.file? name = some (.ofList cs))
    (hread : (cs.foldlM Document.Reader.step .start >>= Document.Reader.finish) = .ok d) :
    folder.document name = .ok d := by
  rw [document, h]
  dsimp only
  rw [Document.parse, String.toList_ofList]
  exact hread

-- The folder with another `flights.json`.
def Folder.withFlights (folder : Folder) (text : String) : Folder where
  path := folder.path
  file? name := if name = "flights.json" then some text else folder.file? name

-- What the files of an instance say if they are of the usual shape: codes, ids, names and skills are
-- texts, and dates, times and durations can be read.
namespace Contents

structure Airport where
  code : String
  name : String
  latitude : Binary64
  longitude : Binary64

structure Transfer where
  origin : String
  destination : String
  minutes : Int

structure Positioning where
  origin : String
  destination : String
  departure : Clock
  arrival : Clock
  days : String

structure Limit where
  start : Clock
  finish : Clock
  byLegs : List (Int × Span)

structure Leg where
  number : String
  origin : String
  destination : String
  departure : Instant
  arrival : Instant
  aircraft : String
  registration : String
  skills : List String

structure Activity where
  code : String
  start : Instant
  finish : Instant

structure Member where
  id : String
  name : String
  home : String
  skills : List String
  aircraft : List String
  extras : List String
  daysOff : List Date
  grounds : List Activity

end Contents

structure Contents where
  first : Date
  last : Date
  offsetHours : Binary64
  maxTaxi : Int
  groundCode : String
  airports : List Contents.Airport
  transfers : List Contents.Transfer
  positioning : List Contents.Positioning
  limits : List Contents.Limit
  legs : List Contents.Leg
  crew : List Contents.Member

namespace Contents

section Spelling

-- A list of documents in a field that may be absent, each of which spells an element of `xs`.
def ListOf {α : Type} (d : Document) (name : String) (spells : Document → α → Prop) (xs : List α) : Prop :=
  ∃ ds, d.fieldOr name (.array []) = .ok (.array ds) ∧ List.Forall₂ spells ds xs

def Texts (d : Document) (name : String) (xs : List String) : Prop :=
  d.fieldOr name (.array []) = .ok (.array (xs.map .text))

structure Airport.SpelledBy (a : Airport) (d : Document) : Prop where
  code : d.field "code" = .ok (.text a.code)
  name : d.fieldOr "name" (.text "") = .ok (.text a.name)
  latitude : ∃ x, d.fieldOr "latitude" (.real .zero) = .ok x ∧ x.toReal = .ok a.latitude
  longitude : ∃ x, d.fieldOr "longitude" (.real .zero) = .ok x ∧ x.toReal = .ok a.longitude

structure Transfer.SpelledBy (t : Transfer) (d : Document) : Prop where
  origin : d.field "from" = .ok (.text t.origin)
  destination : d.field "to" = .ok (.text t.destination)
  minutes : d.field "minutes" = .ok (.whole t.minutes)

structure Positioning.SpelledBy (p : Positioning) (d : Document) : Prop where
  origin : d.field "departure_airport" = .ok (.text p.origin)
  destination : d.field "arrival_airport" = .ok (.text p.destination)
  departure : ∃ x, d.field "departure_utc_time" = .ok x ∧ Clock.read x = .ok p.departure
  arrival : ∃ x, d.field "arrival_utc_time" = .ok x ∧ Clock.read x = .ok p.arrival
  days : d.fieldOr "days_of_week" (.text "1234567") = .ok (.text p.days)

structure Limit.SpelledBy (l : Limit) (d : Document) : Prop where
  start : ∃ x, d.field "start" = .ok x ∧ Clock.read x = .ok l.start
  finish : ∃ x, d.field "end" = .ok x ∧ Clock.read x = .ok l.finish
  byLegs : ∃ entries, d.field "max_fdp_by_segments" = .ok (.object entries) ∧
    List.Forall₂ (fun e p => (Document.text e.1).toWhole = .ok p.1 ∧ Span.read e.2 = .ok p.2) entries
      l.byLegs

structure Leg.SpelledBy (f : Leg) (d : Document) : Prop where
  number : d.field "flight_number" = .ok (.text f.number)
  origin : d.field "departure_airport" = .ok (.text f.origin)
  destination : d.field "arrival_airport" = .ok (.text f.destination)
  departure : ∃ x, d.field "departure_utc" = .ok x ∧ Instant.read x = .ok f.departure
  arrival : ∃ x, d.field "arrival_utc" = .ok x ∧ Instant.read x = .ok f.arrival
  aircraft : d.fieldOr "aircraft_type" (.text "") = .ok (.text f.aircraft)
  registration : d.fieldOr "aircraft_registration" (.text "") = .ok (.text f.registration)
  skills : Texts d "required_skills" f.skills

structure Activity.SpelledBy (g : Activity) (d : Document) : Prop where
  code : d.field "code" = .ok (.text g.code)
  start : ∃ x, d.field "start" = .ok x ∧ Instant.read x = .ok g.start
  finish : ∃ x, d.field "end" = .ok x ∧ Instant.read x = .ok g.finish

structure Member.SpelledBy (m : Member) (d : Document) : Prop where
  id : d.field "employee_id" = .ok (.text m.id)
  name : d.fieldOr "name" (.text m.id) = .ok (.text m.name)
  home : d.field "home_airport" = .ok (.text m.home)
  skills : Texts d "skills" m.skills
  aircraft : Texts d "aircraft_type_qualifications" m.aircraft
  extras : Texts d "special_qualifications" m.extras
  daysOff : ListOf d "unavailable_days" (fun x day => Date.read x = .ok day) m.daysOff
  grounds : ListOf d "ground_duties" (fun x g => g.SpelledBy x) m.grounds

structure SpellsScenario (c : Contents) (d : Document) : Prop where
  first : ∃ x, d.field "schedule_first_date" = .ok x ∧ Date.read x = .ok c.first
  last : ∃ x, d.field "schedule_last_date" = .ok x ∧ Date.read x = .ok c.last
  offsetHours : ∃ x, d.fieldOr "reference_utc_offset_hours" (.whole 2) = .ok x ∧
    x.toReal = .ok c.offsetHours
  maxTaxi : d.fieldOr "max_connection_taxi_minutes" (.whole 240) = .ok (.whole c.maxTaxi)
  groundCode : d.fieldOr "ground_duty_code" (.text "GND") = .ok (.text c.groundCode)

structure SpellsNetwork (c : Contents) (d : Document) : Prop where
  airports : ListOf d "airports" (fun x a => a.SpelledBy x) c.airports
  transfers : ListOf d "taxi_minutes" (fun x t => t.SpelledBy x) c.transfers
  positioning : ListOf d "repositioning_flights" (fun x p => p.SpelledBy x) c.positioning

-- The five files that have to be there are, and say what `c` has.
structure SpelledBy (c : Contents) (folder : Folder) : Prop where
  scenario : ∃ d, folder.document "scenario.json" = .ok d ∧ c.SpellsScenario d
  network : ∃ d, folder.document "airports.json" = .ok d ∧ c.SpellsNetwork d
  limits : ∃ d, folder.document "max_fdp.json" = .ok d ∧
    ListOf d "rules" (fun x l => l.SpelledBy x) c.limits
  legs : ∃ d, folder.document "flights.json" = .ok d ∧
    ListOf d "flights" (fun x f => f.SpelledBy x) c.legs
  crew : ∃ d, folder.document "employees.json" = .ok d ∧
    ListOf d "employees" (fun x m => m.SpelledBy x) c.crew

end Spelling

section Reading

def Leg.flight (f : Leg) : Flight where
  number := f.number
  origin := .text f.origin
  destination := .text f.destination
  departure := f.departure
  arrival := f.arrival
  aircraft := .text f.aircraft
  registration := .text f.registration

def Leg.seats (f : Leg) : List Seat := Seat.ofSkills f.flight (f.skills.map .text)

-- The first seat of a leg that asks for the skill `P` there.
def Leg.seat (f : Leg) : Seat := ⟨Seat.idFor f.flight 0, f.flight, .text "P", 0⟩

def Activity.duty (employee : String) (g : Activity) : Duty :=
  .ofGround employee ⟨some (.text g.code), g.start, g.finish⟩

def labels (xs : List String) : List Label := Employee.distinct (xs.map .text)

def Member.employee (m : Member) : Employee where
  id := m.id
  name := .text m.name
  home := .text m.home
  skills := labels m.skills
  aircraft := labels m.aircraft
  extras := labels m.extras
  daysOff := m.daysOff.eraseDups
  calendar := .empty

def Member.duties (m : Member) : List Duty := m.grounds.map (·.duty m.id)

def Transfer.entry (t : Transfer) : CrewRoster.Transfer := ⟨.text t.origin, .text t.destination, t.minutes⟩

def Positioning.flight (p : Positioning) : PositioningFlight where
  origin := .text p.origin
  destination := .text p.destination
  departure := p.departure
  arrival := p.arrival
  weekdays := PositioningFlight.weekdaysOf p.days.toList

def Airport.entry (table : TaxiTable) (a : Airport) : CrewRoster.Airport where
  code := .text a.code
  name := .text a.name
  latitude := a.latitude
  longitude := a.longitude
  taxi := table.leaving (.text a.code)

def Limit.rule (l : Limit) : Result DutyLimit :=
  DutyLimit.ofLegs l.start l.finish (Registry.ofList l.byLegs).entries

variable (c : Contents)

def scenario : Scenario := ⟨c.first, c.last, c.offsetHours, c.maxTaxi, c.groundCode⟩

def table : TaxiTable :=
  (c.transfers.map (·.entry)).foldl (fun table t => TaxiTable.insert t table) []

def reference (limits : DutyLimits) : Reference :=
  .build (c.airports.map (·.entry c.table)) limits (c.positioning.map (·.flight))

def flights : List Flight := c.legs.map (·.flight)

def seats : List Seat := c.legs.flatMap (·.seats)

-- The checks that are left once the files are read, and the roster that passes them.
def load : Result (Scenario × Roster) := do
  if c.last < c.first then .error (.rejected (.lastBeforeFirst c.last.text c.first.text))
  let limits ← c.limits.mapM (·.rule)
  (c.reference limits).check c.table
  checkFlights (c.reference limits) c.flights c.seats
  checkEmployees (c.reference limits) (c.crew.map (·.employee))
  (c.crew.flatMap (·.duties)).forM Duty.checkGround
  let employees ← c.crew.mapM fun m => m.employee.placeAll m.duties
  return (c.scenario, ← Roster.build c.first c.last (c.reference limits) c.flights c.seats employees)

end Reading

end Contents

namespace Contents

variable {c : Contents} {d : Document} {folder : Folder}

theorem items_of_listOf {α : Type} {name : String} {spells : Document → α → Prop} {xs : List α}
    (h : ListOf d name spells xs) :
    ∃ x ds, d.fieldOr name (.array []) = .ok x ∧ x.items = .ok ds ∧ List.Forall₂ spells ds xs := by
  obtain ⟨ds, hd, hds⟩ := h
  exact ⟨_, ds, hd, rfl, hds⟩

theorem labelSet_texts (xs : List String) :
    Employee.labelSet (.array (xs.map .text)) = .ok (labels xs) := by
  have hkeys : (xs.map Document.text).forM (fun l => do let _ ← l.lookupKey) = (.ok () : Result Unit) := by
    rw [Result.forM_eq_ok]
    intro l hl
    obtain ⟨s, -, rfl⟩ := List.mem_map.1 hl
    rfl
  simp only [Employee.labelSet, Document.items, Result.ok_bind, hkeys]
  rfl

-- How a leg of no particular aircraft stands in `flights.json`, with texts for its departure and arrival.
def Leg.document (f : Leg) (times : String × String) : Document := .object [
  ("flight_number", .text f.number),
  ("departure_airport", .text f.origin),
  ("arrival_airport", .text f.destination),
  ("departure_utc", .text times.1),
  ("arrival_utc", .text times.2),
  ("required_skills", .array (f.skills.map .text))]

structure Leg.TimedBy (f : Leg) (times : String × String) : Prop where
  aircraft : f.aircraft = ""
  registration : f.registration = ""
  departure : Instant.read (.text times.1) = .ok f.departure
  arrival : Instant.read (.text times.2) = .ok f.arrival

instance (f : Leg) (times : String × String) : Decidable (f.TimedBy times) :=
  decidable_of_iff (f.aircraft = "" ∧ f.registration = "" ∧
      Instant.read (.text times.1) = .ok f.departure ∧ Instant.read (.text times.2) = .ok f.arrival)
    ⟨fun ⟨hc, hr, hd, ha⟩ => ⟨hc, hr, hd, ha⟩, fun ⟨hc, hr, hd, ha⟩ => ⟨hc, hr, hd, ha⟩⟩

theorem Leg.TimedBy.spelledBy_document {f : Leg} {times : String × String} (h : f.TimedBy times) :
    f.SpelledBy (f.document times) where
  number := rfl
  origin := rfl
  destination := rfl
  departure := ⟨_, rfl, h.departure⟩
  arrival := ⟨_, rfl, h.arrival⟩
  aircraft := h.aircraft ▸ rfl
  registration := h.registration ▸ rfl
  skills := rfl

theorem spelledBy_documents {legs : List Leg} {t : List (String × String)}
    (h : List.Forall₂ Leg.TimedBy legs t) :
    List.Forall₂ (fun d f => f.SpelledBy d) (List.zipWith Leg.document legs t) legs := by
  induction h with
  | nil => exact .nil
  | cons h _ ih => exact .cons h.spelledBy_document ih

theorem Leg.SpelledBy.withSeats {f : Leg} (h : f.SpelledBy d) :
    Flight.withSeats d = .ok (f.flight, f.seats) := by
  obtain ⟨x, hx, hdeparture⟩ := h.departure
  obtain ⟨y, hy, harrival⟩ := h.arrival
  have hskills := h.skills
  simp only [Texts] at hskills
  simp only [Flight.withSeats, Flight.ofDocument, h.number, h.origin, h.destination, hx, hdeparture, hy,
    harrival, h.aircraft, h.registration, hskills, Document.items, Result.ok_bind]
  rfl

theorem Activity.SpelledBy.groundOf {g : Activity} (h : g.SpelledBy d) (employee : String) :
    Employee.groundOf employee d = .ok (g.duty employee) := by
  obtain ⟨x, hx, hstart⟩ := h.start
  obtain ⟨y, hy, hfinish⟩ := h.finish
  simp only [Employee.groundOf, h.code, hx, hstart, hy, hfinish, Result.ok_bind]
  rfl

theorem Member.SpelledBy.ofDocument {m : Member} (h : m.SpelledBy d) :
    Employee.ofDocument d = .ok (m.employee, m.duties) := by
  obtain ⟨x, days, hx, hdays, hread⟩ := items_of_listOf h.daysOff
  obtain ⟨y, grounds, hy, hgrounds, hspelled⟩ := items_of_listOf h.grounds
  have hdaysOff : days.mapM Date.read = .ok m.daysOff := Result.mapM_eq_ok.2 hread
  have hduties : grounds.mapM (Employee.groundOf m.id) = .ok m.duties :=
    Result.mapM_of_forall₂ hspelled fun _ _ hg => hg.groundOf m.id
  have hskills := h.skills
  have haircraft := h.aircraft
  have hextras := h.extras
  simp only [Texts] at hskills haircraft hextras
  simp only [Employee.ofDocument, h.id, Document.display, h.name, h.home, hskills, haircraft, hextras,
    labelSet_texts, hx, hdays, hdaysOff, hy, hgrounds, hduties, Result.ok_bind]
  rfl

theorem SpellsScenario.ofDocument (h : c.SpellsScenario d) : Scenario.ofDocument d =
    if c.last < c.first then .error (.rejected (.lastBeforeFirst c.last.text c.first.text))
    else .ok c.scenario := by
  obtain ⟨x, hx, hfirst⟩ := h.first
  obtain ⟨y, hy, hlast⟩ := h.last
  obtain ⟨z, hz, hoffset⟩ := h.offsetHours
  simp only [Scenario.ofDocument, hx, hfirst, hy, hlast, hz, hoffset, h.maxTaxi, h.groundCode,
    Document.toWhole, Document.display, Result.ok_bind]
  split <;> rfl

theorem Transfer.SpelledBy.add {t : Transfer} (h : t.SpelledBy d) (table : TaxiTable) :
    table.add d = .ok (table.insert t.entry) := by
  simp only [TaxiTable.add, h.minutes, Document.toWhole, h.origin, h.destination, Result.ok_bind]
  rfl

theorem Airport.SpelledBy.ofDocument {a : Airport} (h : a.SpelledBy d) (table : TaxiTable) :
    CrewRoster.Airport.ofDocument table d = .ok (a.entry table) := by
  obtain ⟨x, hx, hlatitude⟩ := h.latitude
  obtain ⟨y, hy, hlongitude⟩ := h.longitude
  simp only [CrewRoster.Airport.ofDocument, h.code, h.name, hx, hlatitude, hy, hlongitude, Result.ok_bind]
  rfl

theorem Positioning.SpelledBy.ofDocument {p : Positioning} (h : p.SpelledBy d) :
    PositioningFlight.ofDocument d = .ok p.flight := by
  obtain ⟨x, hx, hdeparture⟩ := h.departure
  obtain ⟨y, hy, harrival⟩ := h.arrival
  simp only [PositioningFlight.ofDocument, h.origin, h.destination, hx, hdeparture, hy, harrival, h.days,
    Document.display, Result.ok_bind]
  rfl

theorem Limit.SpelledBy.ofDocument {l : Limit} (h : l.SpelledBy d) :
    DutyLimit.ofDocument d = l.rule := by
  obtain ⟨x, hx, hstart⟩ := h.start
  obtain ⟨y, hy, hfinish⟩ := h.finish
  obtain ⟨entries, hentries, hspelled⟩ := h.byLegs
  have hread : (entries.mapM fun e => do
      return (← (Document.text e.1).toWhole, ← Span.read e.2) : Result (List (Int × Span))) =
      .ok (l.byLegs.map id) :=
    Result.mapM_of_forall₂ hspelled fun e p ⟨hlegs, hlimit⟩ => by
      simp only [hlegs, hlimit, Result.ok_bind]
      rfl
  simp only [DutyLimit.ofDocument, hx, hstart, hy, hfinish, hentries, Document.entries, Result.ok_bind,
    hread, List.map_id, Limit.rule]

theorem checkKeys_texts : Reference.checkKeys (c.airports.map (·.entry c.table))
    (c.positioning.map (·.flight)) = .ok () := by
  have hroutes : (c.positioning.map (·.flight)).forM (fun f => do
      let _ ← f.origin.lookupKey
      let _ ← f.destination.lookupKey) = (.ok () : Result Unit) := by
    rw [Result.forM_eq_ok]
    intro f hf
    obtain ⟨p, -, rfl⟩ := List.mem_map.1 hf
    rfl
  have hcodes : (c.airports.map (·.entry c.table)).forM (fun a => do let _ ← a.code.lookupKey) =
      (.ok () : Result Unit) := by
    rw [Result.forM_eq_ok]
    intro a ha
    obtain ⟨b, -, rfl⟩ := List.mem_map.1 ha
    rfl
  rw [Reference.checkKeys, hroutes, Result.ok_bind, hcodes]

namespace SpelledBy

variable (h : c.SpelledBy folder)
include h

theorem loadReference : Reference.load folder = (do
    let limits ← c.limits.mapM (·.rule)
    (c.reference limits).check c.table
    return c.reference limits) := by
  obtain ⟨d, hd, hnetwork⟩ := h.network
  obtain ⟨e, he, hlimits⟩ := h.limits
  obtain ⟨x, airports, hx, hairports, ha⟩ := items_of_listOf hnetwork.airports
  obtain ⟨y, transfers, hy, htransfers, ht⟩ := items_of_listOf hnetwork.transfers
  obtain ⟨z, positioning, hz, hpositioning, hp⟩ := items_of_listOf hnetwork.positioning
  obtain ⟨w, rules, hw, hrules, hr⟩ := items_of_listOf hlimits
  have htable : TaxiTable.ofDocument d = .ok c.table := by
    simp only [TaxiTable.ofDocument, hy, htransfers, Result.ok_bind, table, List.foldl_map]
    exact Result.foldlM_of_forall₂ ht (fun table _ _ hs => hs.add table) []
  have hread : airports.mapM (CrewRoster.Airport.ofDocument c.table) =
      .ok (c.airports.map (·.entry c.table)) :=
    Result.mapM_of_forall₂ ha fun _ _ hs => hs.ofDocument c.table
  have hflights : positioning.mapM PositioningFlight.ofDocument = .ok (c.positioning.map (·.flight)) :=
    Result.mapM_of_forall₂ hp fun _ _ hs => hs.ofDocument
  have hall : DutyLimits.ofDocument e = c.limits.mapM (·.rule) := by
    simp only [DutyLimits.ofDocument, hw, hrules, Result.ok_bind]
    exact Result.mapM_congr_of_forall₂ hr fun _ _ hs => hs.ofDocument
  simp only [Reference.load, hd, htable, hx, hairports, hread, hz, hpositioning, hflights, he, hall,
    checkKeys_texts, Result.ok_bind, reference]

-- A folder whose files are of the usual shape is loaded as far as its contents pass the checks.
theorem loadInstance_eq : loadInstance folder false = c.load := by
  obtain ⟨d, hd, hscenario⟩ := h.scenario
  obtain ⟨e, he, hlegs⟩ := h.legs
  obtain ⟨f, hf, hcrew⟩ := h.crew
  obtain ⟨x, legs, hx, hlist, hspelled⟩ := items_of_listOf hlegs
  obtain ⟨y, crew, hy, hlist', hspelled'⟩ := items_of_listOf hcrew
  have hflights : legs.mapM Flight.withSeats = .ok (c.legs.map fun f => (f.flight, f.seats)) :=
    Result.mapM_of_forall₂ hspelled fun _ _ hs => hs.withSeats
  have hemployees : crew.mapM Employee.ofDocument = .ok (c.crew.map fun m => (m.employee, m.duties)) :=
    Result.mapM_of_forall₂ hspelled' fun _ _ hs => hs.ofDocument
  simp only [loadInstance, hd, hscenario.ofDocument, Roster.load, h.loadReference, he, hx, hlist, hflights,
    hf, hy, hlist', hemployees, Result.ok_bind, load]
  split
  · rfl
  · simp only [Result.ok_bind, bind_assoc, pure_bind, List.map_map, List.flatMap_map, List.mapM_map,
      Function.comp_def, flights, seats]
    rfl

-- What the contents tell of the roster, which is easier to find out than from the files.
theorem exists_of_load {P : Roster → Prop} [DecidablePred P]
    (hP : c.load.toOption.any (fun p => decide (P p.2)) = true) :
    ∃ scenario r, loadInstance folder false = .ok (scenario, r) ∧ P r := by
  obtain ⟨⟨scenario, r⟩, hload, hP⟩ := (Option.any_eq_true _ _).1 hP
  exact ⟨scenario, r, h.loadInstance_eq.trans (Result.toOption_eq_some.1 hload), of_decide_eq_true hP⟩

-- The same with another `flights.json` and another `employees.json`.
theorem withFiles {folder' : Folder} {legs : List Leg} {crew : List Member}
    (hothers : ∀ name, name ≠ "flights.json" → name ≠ "employees.json" →
      folder'.document name = folder.document name)
    (hlegs : ∃ d, folder'.document "flights.json" = .ok d ∧
      ListOf d "flights" (fun x f => f.SpelledBy x) legs)
    (hcrew : ∃ d, folder'.document "employees.json" = .ok d ∧
      ListOf d "employees" (fun x m => m.SpelledBy x) crew) :
    { c with legs, crew }.SpelledBy folder' where
  scenario := by
    obtain ⟨d, hd, hs⟩ := h.scenario
    exact ⟨d, (hothers _ (by decide) (by decide)).trans hd,
      ⟨hs.first, hs.last, hs.offsetHours, hs.maxTaxi, hs.groundCode⟩⟩
  network := by
    obtain ⟨d, hd, hn⟩ := h.network
    exact ⟨d, (hothers _ (by decide) (by decide)).trans hd, ⟨hn.airports, hn.transfers, hn.positioning⟩⟩
  limits := by
    obtain ⟨d, hd, hl⟩ := h.limits
    exact ⟨d, (hothers _ (by decide) (by decide)).trans hd, hl⟩
  legs := hlegs
  crew := hcrew

theorem withFlights {text : String} {cs : List Char} {legs : List Leg} {t : List (String × String)}
    (htext : text = .ofList cs)
    (hread : (cs.foldlM Document.Reader.step .start >>= Document.Reader.finish) =
      .ok (.object [("flights", .array (List.zipWith Leg.document legs t))]))
    (htimes : List.Forall₂ Leg.TimedBy legs t) :
    { c with legs }.SpelledBy (folder.withFlights text) := by
  have hothers : ∀ name ≠ "flights.json", (folder.withFlights text).document name = folder.document name :=
    fun name hname => by simp only [Folder.document, Folder.withFlights, if_neg hname]
  obtain ⟨d, hd, hcrew⟩ := h.crew
  refine h.withFiles (fun name hname _ => hothers name hname)
    ⟨_, Folder.document_of_file ?_ hread, _, rfl, spelledBy_documents htimes⟩
    ⟨d, (hothers _ (by decide)).trans hd, hcrew⟩
  simp only [Folder.withFlights, if_true, htext]

end SpelledBy

end Contents
end CrewRoster
