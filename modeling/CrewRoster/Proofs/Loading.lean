import CrewRoster.Proofs.Consistency
import CrewRoster.Proofs.Contents
import CrewRoster.Proofs.Eligibility
import CrewRoster.Proofs.Lists
import CrewRoster.Proofs.Planning

namespace CrewRoster

variable {f : Flight} {s t : Seat} {d : Document} {folder : Folder} {scenario : Scenario} {r : Roster}

namespace Seat

theorem mem_ofSkills {skills : List Label} (h : s ∈ ofSkills f skills) :
    ∃ i skill, skills[i]? = some skill ∧ s = ⟨idFor f i, f, skill, i⟩ := by
  obtain ⟨⟨skill, i⟩, hm, rfl⟩ := List.mem_map.1 h
  exact ⟨i, skill, List.mem_zipIdx_iff_getElem?.1 hm, rfl⟩

theorem eq_of_index {skills : List Label} (hs : s ∈ ofSkills f skills) (ht : t ∈ ofSkills f skills)
    (h : s.index = t.index) : s = t := by
  obtain ⟨i, a, hi, rfl⟩ := mem_ofSkills hs
  obtain ⟨j, b, hj, rfl⟩ := mem_ofSkills ht
  obtain rfl : i = j := Int.ofNat.inj h
  obtain rfl := Option.some.inj (hi.symm.trans hj)
  rfl

end Seat

-- The records of a file, in order; a file without the field has none.
def Folder.Records (folder : Folder) (file name : String) (ds : List Document) : Prop :=
  ∃ d x, folder.document file = .ok d ∧ d.fieldOr name (.array []) = .ok x ∧ x.items = .ok ds

-- The record of a flight, and the skills that it asks for.
def Flight.ReadFrom (d : Document) (f : Flight) (skills : List Label) : Prop :=
  Flight.ofDocument d = .ok f ∧
    ∃ x, d.fieldOr "required_skills" (.array []) = .ok x ∧ x.items = .ok skills

theorem Flight.withSeats_eq_ok {p : Flight × List Seat} (h : Flight.withSeats d = .ok p) :
    ∃ skills, Flight.ReadFrom d p.1 skills ∧ p.2 = Seat.ofSkills p.1 skills := by
  simp only [withSeats, Result.bind_eq_ok, Result.pure_eq_ok] at h
  obtain ⟨f, hf, x, hx, skills, hskills, rfl⟩ := h
  exact ⟨skills, ⟨hf, x, hx, hskills⟩, rfl⟩

theorem Flight.seats_of_mapM {ds : List Document} {flights : List (Flight × List Seat)}
    (h : ds.mapM Flight.withSeats = .ok flights) :
    ∀ p ∈ flights, ∃ skills, p.2 = Seat.ofSkills p.1 skills := by
  intro p hp
  obtain ⟨d, -, hd⟩ := (Result.mem_of_mapM h).1 hp
  obtain ⟨skills, -, hskills⟩ := Flight.withSeats_eq_ok hd
  exact ⟨skills, hskills⟩

theorem Flight.check_eq_ok {reference : Reference} (h : f.check reference = .ok ()) :
    f.arrival.le? f.departure = .ok false := by
  simp only [check, Result.bind_eq_ok] at h
  obtain ⟨-, -, -, -, late, hlate, h⟩ := h
  cases late with
  | false => exact hlate
  | true => cases h

theorem checkFlights_eq_ok {reference : Reference} {flights : List Flight} {seats : List Seat}
    (h : checkFlights reference flights seats = .ok ()) :
    (flights.map (·.id)).Nodup ∧ ∀ f ∈ flights, f.check reference = .ok () := by
  unfold checkFlights at h
  dsimp only at h
  split at h
  case isTrue => cases h
  case isFalse hids =>
    obtain ⟨⟨⟩, hchecks, -⟩ := Result.bind_eq_ok.1 h
    exact ⟨Lists.nodup_of_length_eraseDups (not_not.1 hids), Result.forM_eq_ok.1 hchecks⟩

namespace Employee

theorem groundOf_eq_ok {id : String} {duty : Duty} (h : groundOf id d = .ok duty) :
    ∃ g, duty = .ofGround id g := by
  simp only [groundOf, Result.bind_eq_ok, Result.pure_eq_ok] at h
  obtain ⟨_, -, _, -, _, -, _, -, _, -, rfl⟩ := h
  exact ⟨_, rfl⟩

theorem ofDocument_eq_ok {p : Employee × List Duty} (h : Employee.ofDocument d = .ok p) :
    p.1.calendar = .empty ∧ ∀ duty ∈ p.2, ∃ g, duty = .ofGround p.1.id g := by
  simp only [ofDocument, Result.bind_eq_ok, Result.pure_eq_ok] at h
  obtain ⟨_, -, _, -, _, -, _, -, _, -, _, -, _, -, _, -, _, -, _, -, _, -, _, -, _, -, h⟩ := h
  obtain ⟨_, -, grounds, hg, rfl⟩ := h
  refine ⟨rfl, fun duty hm => ?_⟩
  obtain ⟨_, -, h⟩ := (Result.mem_of_mapM hg).1 hm
  exact groundOf_eq_ok h

theorem idle_of_empty {e : Employee} (h : e.calendar = .empty) : e.Idle := by
  intro day d hd
  rw [dutyOn, h] at hd
  cases hd

end Employee

namespace Roster

-- What is known of a roster that comes from its files:
-- 1. seats and employees are registered under their ids
-- 2. no seat has an owner, and no duty a seat
-- 3. flights are told apart by their ids, and the seats of a flight by their places on it
-- 4. flights depart before they arrive
structure Fresh (r : Roster) : Prop where
  seatId : ∀ {k a}, r.assignments.get? k = some a → a.seat.id = k
  crewId : ∀ {k e}, r.employees.get? k = some e → e.id = k
  unowned : ∀ {k a}, r.assignments.get? k = some a → a.owner = none
  idle : ∀ {k e}, r.employees.get? k = some e → e.Idle
  flight : ∀ {j k a b}, r.assignments.get? j = some a → r.assignments.get? k = some b →
    a.seat.flight.id = b.seat.flight.id → a.seat.flight = b.seat.flight
  place : ∀ {j k a b}, r.assignments.get? j = some a → r.assignments.get? k = some b →
    a.seat.flight = b.seat.flight → a.seat.index = b.seat.index → a.seat = b.seat
  airborne : ∀ {k a}, r.assignments.get? k = some a →
    a.seat.flight.arrival.le? a.seat.flight.departure = .ok false

section Build

variable {first last : Date} {reference : Reference} {flights : List (Flight × List Seat)}
  {seats : List Seat} {employees : List Employee} {k : String}

theorem build_eq_ok {fs : List Flight} (h : build first last reference fs seats employees = .ok r) :
    r.flights = .ofList (fs.map fun f => (f.id, f)) ∧
    r.assignments = .ofList (seats.map fun s => (s.id, ⟨s, none⟩)) ∧
    r.employees =
      (Registry.ofList (employees.map fun e => (e.id, e))).mapValues (·.cover first last) ∧
    r.reference = reference := by
  unfold build at h
  dsimp only at h
  split at h
  case isTrue =>
    obtain ⟨-, -, h⟩ := Result.bind_eq_ok.1 h
    obtain rfl := Result.pure_eq_ok.1 h
    exact ⟨rfl, rfl, rfl, rfl⟩
  case isFalse =>
    obtain rfl := Result.pure_eq_ok.1 h
    exact ⟨rfl, rfl, rfl, rfl⟩

-- A seat of the roster is one of those that were read with their flight.
theorem seat_of_build (hs : ∀ p ∈ flights, ∃ skills, p.2 = Seat.ofSkills p.1 skills)
    (h : build first last reference (flights.map (·.1)) (flights.flatMap (·.2)) employees = .ok r)
    {a : Assignment} (ha : r.assignments.get? k = some a) :
    a.seat.id = k ∧ a.owner = none ∧ ∃ p ∈ flights, p.1 = a.seat.flight ∧ a.seat ∈ p.2 := by
  rw [(build_eq_ok h).2.1] at ha
  obtain ⟨s, hm, he⟩ := List.mem_map.1 (Registry.mem_of_get?_ofList ha)
  cases he
  obtain ⟨p, hp, hm⟩ := List.mem_flatMap.1 hm
  obtain ⟨skills, hskills⟩ := hs p hp
  obtain ⟨i, skill, -, rfl⟩ := Seat.mem_ofSkills (hskills ▸ hm)
  exact ⟨rfl, rfl, p, hp, rfl, hm⟩

-- An employee of the roster is one of those that were read, with the days of the horizon entered.
theorem employee_of_build {fs : List Flight} {e : Employee}
    (h : build first last reference fs seats employees = .ok r) (he : r.employees.get? k = some e) :
    ∃ e₀ ∈ employees, e₀.id = k ∧ e₀.cover first last = e := by
  rw [(build_eq_ok h).2.2.1, Registry.get?_mapValues, Option.map_eq_some_iff] at he
  obtain ⟨e₀, he, rfl⟩ := he
  obtain ⟨e₁, hm, heq⟩ := List.mem_map.1 (Registry.mem_of_get?_ofList he)
  cases heq
  exact ⟨e₀, hm, rfl, rfl⟩

theorem fresh_of_build (hs : ∀ p ∈ flights, ∃ skills, p.2 = Seat.ofSkills p.1 skills)
    (hids : ((flights.map (·.1)).map (·.id)).Nodup)
    (ht : ∀ f ∈ flights.map (·.1), f.arrival.le? f.departure = .ok false)
    (he : ∀ e ∈ employees, e.Idle)
    (h : build first last reference (flights.map (·.1)) (flights.flatMap (·.2)) employees = .ok r) :
    r.Fresh := by
  have hflight : ∀ p ∈ flights, ∀ q ∈ flights, p.1.id = q.1.id → p = q := by
    intro p hp q hq hid
    rw [List.map_map] at hids
    exact List.inj_on_of_nodup_map hids hp hq hid
  constructor
  case seatId => exact fun hk => (seat_of_build hs h hk).1
  case unowned => exact fun hk => (seat_of_build hs h hk).2.1
  case crewId =>
    intro k e hk
    obtain ⟨e₀, -, rfl, rfl⟩ := employee_of_build h hk
    rfl
  case idle =>
    intro k e hk
    obtain ⟨e₀, hm, -, rfl⟩ := employee_of_build h hk
    exact (he e₀ hm).planned .cover
  case flight =>
    intro j k a b hj hk hid
    obtain ⟨-, -, p, hp, hpa, -⟩ := seat_of_build hs h hj
    obtain ⟨-, -, q, hq, hqb, -⟩ := seat_of_build hs h hk
    obtain rfl := hflight p hp q hq (by rw [hpa, hqb, hid])
    rw [← hpa, hqb]
  case place =>
    intro j k a b hj hk hf hi
    obtain ⟨-, -, p, hp, hpa, hap⟩ := seat_of_build hs h hj
    obtain ⟨-, -, q, hq, hqb, hbq⟩ := seat_of_build hs h hk
    obtain rfl := hflight p hp q hq (by rw [hpa, hqb, hf])
    obtain ⟨skills, hskills⟩ := hs p hp
    rw [hskills] at hap hbq
    exact Seat.eq_of_index hap hbq hi
  case airborne =>
    intro k a hk
    obtain ⟨-, -, p, hp, hpa, -⟩ := seat_of_build hs h hk
    exact hpa ▸ ht p.1 (List.mem_map_of_mem hp)

end Build

-- What is read, checked and entered when a roster is loaded.
theorem load_eq_ok (h : load folder scenario = .ok r) :
    ∃ reference legs flights records crew employees,
      folder.Records "flights.json" "flights" legs ∧ legs.mapM Flight.withSeats = .ok flights ∧
      folder.Records "employees.json" "employees" records ∧
      records.mapM Employee.ofDocument = .ok crew ∧
      checkFlights reference (flights.map (·.1)) (flights.flatMap (·.2)) = .ok () ∧
      checkEmployees reference (crew.map (·.1)) = .ok () ∧
      crew.mapM (fun p => p.1.placeAll p.2) = .ok employees ∧
      build scenario.first scenario.last reference (flights.map (·.1)) (flights.flatMap (·.2))
        employees = .ok r := by
  simp only [load, Result.bind_eq_ok] at h
  obtain ⟨reference, -, d, hd, x, hx, legs, hlegs, flights, hflights, h⟩ := h
  obtain ⟨d', hd', y, hy, records, hrecords, crew, hcrew, ⟨⟩, hchecked, ⟨⟩, hchecked', h⟩ := h
  obtain ⟨-, -, employees, hplaced, hbuild⟩ := h
  exact ⟨reference, legs, flights, records, crew, employees, ⟨d, x, hd, hx, hlegs⟩, hflights,
    ⟨d', y, hd', hy, hrecords⟩, hcrew, hchecked, hchecked', hplaced, hbuild⟩

theorem fresh_of_load (h : load folder scenario = .ok r) : r.Fresh := by
  obtain ⟨_, _, flights, _, crew, employees, -, hflights, -, hcrew, hchecked, -, hplaced, hbuild⟩ :=
    load_eq_ok h
  obtain ⟨hids, hchecks⟩ := checkFlights_eq_ok hchecked
  refine fresh_of_build (Flight.seats_of_mapM hflights) hids
    (fun f hf => Flight.check_eq_ok (hchecks f hf)) ?_ hbuild
  intro e he
  obtain ⟨p, hp, he⟩ := (Result.mem_of_mapM hplaced).1 he
  obtain ⟨d, -, hd⟩ := (Result.mem_of_mapM hcrew).1 hp
  obtain ⟨hempty, hgrounds⟩ := Employee.ofDocument_eq_ok hd
  refine ((Employee.idle_of_empty hempty).placeAll (fun duty hduty => ?_) he).1
  obtain ⟨g, rfl⟩ := hgrounds duty hduty
  exact ⟨rfl, .ofGround _ _⟩

-- Seats are told apart by flight number, day of departure and place on the flight.
theorem Fresh.seat_eq (h : r.Fresh) {j k : String} {a b : Assignment}
    (ha : r.assignments.get? j = some a) (hb : r.assignments.get? k = some b)
    (hnumber : a.seat.flight.number = b.seat.flight.number)
    (hdate : a.seat.departureDate = b.seat.departureDate) (hindex : a.seat.index = b.seat.index) :
    a.seat = b.seat := by
  have hid : a.seat.flight.id = b.seat.flight.id := by
    simp only [Seat.departureDate] at hdate
    rw [Flight.id, Flight.id, hnumber, hdate]
  exact h.place ha hb (h.flight ha hb hid) hindex

-- The seats of a roster without zones have different keys: a departure has only one date, and a flight
-- number is used once on it.
theorem Fresh.key (h : r.Fresh) (hn : r.Naive) {j k : String} {a b : Assignment}
    (ha : r.assignments.get? j = some a) (hb : r.assignments.get? k = some b)
    (hk : a.seat.key = b.seat.key) : a.seat = b.seat := by
  simp only [Seat.key, Seat.Key.mk.injEq] at hk
  obtain ⟨ht, hnumber, hi⟩ := hk
  have hza := (hn j a ha).departure_zone
  have hzb := (hn k b hb).departure_zone
  rw [Instant.position_of_plain hza, Instant.position_of_plain hzb] at ht
  have hdeparture := Instant.ext ht (hza.trans hzb.symm)
  exact h.seat_eq ha hb hnumber (by rw [Seat.departureDate, Flight.departureDate, hdeparture]; rfl) hi

theorem Fresh.idle_dutyAt (h : r.Fresh) {id : String} {day : Date} {d : Duty}
    (hd : r.dutyAt id day = some d) : d.Vacant id day := by
  obtain ⟨e, he, hd⟩ := dutyAt_eq_some.1 hd
  exact h.crewId he ▸ h.idle he day d hd

theorem Fresh.listing (h : r.Fresh) (hn : r.Naive) : (Ledger.ofRoster r).Listing := by
  have hlists : ∀ {id day s}, ¬r.Lists id day s := by
    rintro id day s ⟨d, hd, hs⟩
    rw [(h.idle_dutyAt hd).seats] at hs
    cases hs
  constructor
  case toWellFormed =>
    exact ⟨h.seatId, h.crewId, fun hd => (h.idle_dutyAt hd).employee, fun hd => (h.idle_dutyAt hd).date,
      h.key hn⟩
  case known => exact fun hl => absurd hl hlists
  case listed =>
    intro k a ha id day
    change r.assignments.get? k = some a at ha
    change r.Lists id day a.seat ↔ _
    simp [hlists, h.unowned ha]
  case ordered =>
    intro id day d hd
    rw [(h.idle_dutyAt hd).seats]
    exact .nil

theorem Fresh.consistent (h : r.Fresh) (hp : r.Plain) : (Ledger.ofRoster r).Consistent :=
  .of_listing (h.listing hp.naive) fun hd => (h.idle_dutyAt hd).current

theorem Fresh.timetable (h : r.Fresh) (hn : r.Naive) : Seat.Timetable false r.seats where
  line s hs := by
    obtain ⟨k, a, ha, rfl⟩ := mem_seats.1 hs
    exact hn k a ha
  airborne s hs := by
    obtain ⟨k, a, ha, rfl⟩ := mem_seats.1 hs
    have hline := hn k a ha
    have hlate := h.airborne ha
    rw [Instant.le?_of_comparable (by simp [Instant.comparable, hline.departure, hline.arrival])] at hlate
    simpa using hlate
  flight s hs t ht hid := by
    obtain ⟨j, a, ha, rfl⟩ := mem_seats.1 hs
    obtain ⟨k, b, hb, rfl⟩ := mem_seats.1 ht
    exact h.flight ha hb hid

end Roster

theorem load_of_loadInstance (h : loadInstance folder false = .ok (scenario, r)) :
    Roster.load folder scenario = .ok r := by
  simp only [loadInstance, Result.bind_eq_ok] at h
  obtain ⟨_, -, _, -, _, hr, h⟩ := h
  cases h
  exact hr

theorem fresh_of_loadInstance (h : loadInstance folder false = .ok (scenario, r)) : r.Fresh :=
  Roster.fresh_of_load (load_of_loadInstance h)

-- An instance with its solution is what its plan makes of the roster without owners.
theorem exists_apply_of_loadInstance {solved : Bool}
    (h : loadInstance folder solved = .ok (scenario, r)) :
    ∃ r₀ plan l n, loadInstance folder false = .ok (scenario, r₀) ∧
      (Ledger.ofRoster r₀).apply plan = (l, .ok n) ∧ l.roster = r := by
  simp only [loadInstance, Result.bind_eq_ok] at h
  obtain ⟨d, hd, s, hs, r₀, hr, h⟩ := h
  have hload : loadInstance folder false = .ok (s, r₀) := by
    simp only [loadInstance, hd, hs, hr, Result.ok_bind]
    rfl
  cases solved with
  | false =>
    cases h
    exact ⟨r, [], .ofRoster r, 0, hload, rfl, rfl⟩
  | true =>
    obtain ⟨plan, -, h⟩ := Result.bind_eq_ok.1 h
    obtain ⟨n, hn, h⟩ := Result.bind_eq_ok.1 h
    cases h
    exact ⟨r₀, plan, _, n, hload, Prod.ext rfl hn, rfl⟩

theorem exists_fresh_of_loadInstance {solved : Bool}
    (h : loadInstance folder solved = .ok (scenario, r)) :
    ∃ r₀ plan l n, r₀.Fresh ∧ (Ledger.ofRoster r₀).apply plan = (l, .ok n) ∧ l.roster = r := by
  obtain ⟨r₀, plan, l, n, hload, hl, hr⟩ := exists_apply_of_loadInstance h
  exact ⟨r₀, plan, l, n, fresh_of_loadInstance hload, hl, hr⟩

-- A roster with its solution has all that the roster without owners has and that changes of owners keep.
theorem exists_kept_of_loadInstance {solved : Bool}
    (h : loadInstance folder solved = .ok (scenario, r)) :
    ∃ r₀ : Roster, r₀.Fresh ∧ r₀.blank = r.blank ∧
      ∀ {P : Ledger → Prop}, Ledger.Kept P → P (.ofRoster r₀) →
        ∃ l, P l ∧ l.roster = r ∧ l.pending = none := by
  obtain ⟨r₀, plan, l, n, hfresh, hl, rfl⟩ := exists_fresh_of_loadInstance h
  have hb : l.roster.blank = r₀.blank := Ledger.blank_of_apply hl
  refine ⟨r₀, hfresh, hb.symm, fun {P} hk hP => ⟨l, ?_, rfl, Ledger.pending_of_apply rfl hl⟩⟩
  have hkept : P ((Ledger.ofRoster r₀).apply plan).1 := hk.apply hP
  rwa [hl] at hkept

-- A roster that was loaded lists the seats of its owners, with or without its solution.
theorem listing_of_loadInstance {solved : Bool}
    (h : loadInstance folder solved = .ok (scenario, r)) (hn : r.Naive) :
    (Ledger.ofRoster r).Listing := by
  obtain ⟨r₀, hfresh, hb, hkept⟩ := exists_kept_of_loadInstance h
  have hn₀ : r₀.Naive := hn.of_blank_eq hb.symm
  obtain ⟨l, ⟨hl, -⟩, rfl, hp⟩ := hkept Ledger.Listing.kept ⟨hfresh.listing hn₀, hn₀⟩
  exact hl.of_eq rfl hp.symm

-- Its seats make a timetable.
theorem timetable_of_loadInstance {solved : Bool}
    (h : loadInstance folder solved = .ok (scenario, r)) (hn : r.Naive) :
    Seat.Timetable false r.seats := by
  obtain ⟨r₀, hfresh, hb, -⟩ := exists_kept_of_loadInstance h
  rw [← Roster.seats_of_blank_eq hb]
  exact hfresh.timetable (hn.of_blank_eq hb.symm)

-- It is consistent and has nothing pending if it is plain.
theorem consistent_of_loadInstance {solved : Bool}
    (h : loadInstance folder solved = .ok (scenario, r)) (hp : r.Plain) :
    (Ledger.ofRoster r).Consistent ∧ Seat.Timetable false r.seats := by
  obtain ⟨r₀, hfresh, hb, hkept⟩ := exists_kept_of_loadInstance h
  have hp₀ : r₀.Plain := hp.of_blank_eq hb.symm
  obtain ⟨l, ⟨hc, -⟩, rfl, hn⟩ := hkept Ledger.Consistent.kept ⟨hfresh.consistent hp₀, hp₀⟩
  exact ⟨hc.of_eq rfl hn.symm, timetable_of_loadInstance h hp.naive⟩

-- An instance with one seat and one employee.
def Folder.smallest : Folder where
  path := .ofText "smallest"
  file?
    | "scenario.json" => some
      "\x7b\"schedule_first_date\": \"2024-06-03\", \"schedule_last_date\": \"2024-06-03\"\x7d"
    | "airports.json" => some "\x7b\"airports\": [\x7b\"code\": \"A\"\x7d]\x7d"
    | "max_fdp.json" => some
      "\x7b\"rules\": [\x7b\"start\": \"00:00\", \"end\": \"23:59\", \"max_fdp_by_segments\": \x7b\x7d\x7d]\x7d"
    | "flights.json" => some
      "\x7b\"flights\": [\x7b\"flight_number\": \"1\", \"departure_airport\": \"A\",
        \"arrival_airport\": \"A\", \"departure_utc\": \"2024-06-03T08:00\",
        \"arrival_utc\": \"2024-06-03T09:00\", \"required_skills\": [\"P\"]\x7d]\x7d"
    | "employees.json" => some
      "\x7b\"employees\": [\x7b\"employee_id\": \"E\", \"home_airport\": \"A\", \"skills\": [\"P\"],
        \"aircraft_type_qualifications\": [\"\"]\x7d]\x7d"
    | _ => none

def Contents.smallest : Contents :=
  let day := Date.after 739039
  { first := day
    last := day
    offsetHours := .ofRat 2
    maxTaxi := 240
    groundCode := "GND"
    airports := [⟨"A", "", .zero, .zero⟩]
    transfers := []
    positioning := []
    limits := [⟨.after 0 0 0, .after 23 59 0, []⟩]
    legs := [⟨"1", "A", "A", .ofDate day (.after 8 0 0), .ofDate day (.after 9 0 0), "", "", ["P"]⟩]
    crew := [⟨"E", "E", "A", ["P"], [""], [], [], []⟩] }

set_option maxRecDepth 10000 in
theorem Contents.spelledBy_smallest : smallest.SpelledBy .smallest := by
  constructor
  case scenario =>
    refine ⟨.object [("schedule_first_date", .text "2024-06-03"),
      ("schedule_last_date", .text "2024-06-03")], Folder.document_of_file rfl (by decide +kernel), ?_⟩
    exact ⟨⟨_, rfl, by decide +kernel⟩, ⟨_, rfl, by decide +kernel⟩, ⟨_, rfl, by decide +kernel⟩, rfl, rfl⟩
  case network =>
    refine ⟨.object [("airports", .array [.object [("code", .text "A")]])],
      Folder.document_of_file rfl (by decide +kernel), ?_⟩
    exact ⟨⟨[_], rfl, .cons ⟨rfl, rfl, ⟨_, rfl, rfl⟩, ⟨_, rfl, rfl⟩⟩ .nil⟩, ⟨[], rfl, .nil⟩, [], rfl, .nil⟩
  case limits =>
    exact ⟨.object [("rules", .array [.object [("start", .text "00:00"), ("end", .text "23:59"),
      ("max_fdp_by_segments", .object [])]])], Folder.document_of_file rfl (by decide +kernel), [_], rfl,
      .cons ⟨⟨_, rfl, by decide +kernel⟩, ⟨_, rfl, by decide +kernel⟩, [], rfl, .nil⟩ .nil⟩
  case legs =>
    exact ⟨.object [("flights", .array (List.zipWith Leg.document _ _))],
      Folder.document_of_file rfl (by decide +kernel), _, rfl,
      spelledBy_documents (t := [("2024-06-03T08:00", "2024-06-03T09:00")]) (by decide +kernel)⟩
  case crew =>
    exact ⟨.object [("employees", .array [.object [("employee_id", .text "E"),
      ("home_airport", .text "A"), ("skills", .array [.text "P"]),
      ("aircraft_type_qualifications", .array [.text ""])]])],
      Folder.document_of_file rfl (by decide +kernel), [_], rfl,
      .cons ⟨rfl, rfl, rfl, rfl, rfl, rfl, ⟨[], rfl, .nil⟩, [], rfl, .nil⟩ .nil⟩

-- The one employee may take the one seat, and nobody has it.
theorem loads_smallest : ∃ scenario r s e, loadInstance .smallest false = .ok (scenario, r) ∧ r.Plain ∧
    r.assignments.entries = [("1@2024-06-03#0", ⟨s, none⟩)] ∧ r.employees.entries = [("E", e)] ∧
    e.Qualified s := by
  obtain ⟨scenario, r, hload, hp, hseats, hemployees, hall⟩ := Contents.spelledBy_smallest.exists_of_load
    (P := fun r => r.Plain ∧ r.assignments.keys = ["1@2024-06-03#0"] ∧ r.employees.keys = ["E"] ∧
      ∀ a ∈ r.assignments.values, a.owner = none ∧ ∀ e ∈ r.employees.values, e.Qualified a.seat)
    (by decide +kernel)
  obtain ⟨⟨k, s, owner⟩, hs, rfl⟩ := List.map_eq_singleton_iff.1 hseats
  obtain ⟨⟨id, e⟩, he, rfl⟩ := List.map_eq_singleton_iff.1 hemployees
  obtain ⟨rfl, hq⟩ := hall ⟨s, owner⟩ (by simp [Registry.values, hs])
  exact ⟨scenario, r, s, e, hload, hp, hs, he, hq e (by simp [Registry.values, he])⟩

-- The one employee gets the one seat.
theorem assigns_smallest : ∃ scenario r s e l, loadInstance .smallest false = .ok (scenario, r) ∧
    r.Plain ∧ r.assignments.entries = [("1@2024-06-03#0", ⟨s, none⟩)] ∧
    r.employees.entries = [("E", e)] ∧
    (Ledger.ofRoster r).assign ⟨s, none⟩ (some "E") = (l, .ok ()) ∧ l.pending = none ∧
    l.roster.assignments.entries = [("1@2024-06-03#0", ⟨s, some "E"⟩)] := by
  obtain ⟨scenario, r, s, e, hload, hp, hs, he, -⟩ := loads_smallest
  have ha : r.assignments.get? "1@2024-06-03#0" = some ⟨s, none⟩ := by simp [Registry.get?, hs]
  obtain ⟨l, hl, hn, -, ha'⟩ := ((fresh_of_loadInstance hload).consistent hp).assign_ok hp ha (some "E")
    rfl fun id hid => by
      obtain rfl := Option.some.inj hid
      exact ⟨e, by simp [Ledger.ofRoster, Registry.get?, he]⟩
  refine ⟨scenario, r, s, e, l, hload, hp, hs, he, hl, hn, ?_⟩
  simp [ha', Ledger.ofRoster, Roster.setOwner, Registry.modify, hs]

end CrewRoster
