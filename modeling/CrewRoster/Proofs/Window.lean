import CrewRoster.Proofs.Applying
import CrewRoster.Proofs.Figures

namespace CrewRoster

-- One flight departs no later than another and arrives after it.
def Flight.Encloses (f g : Flight) : Prop :=
  f.departure.wall ≤ g.departure.wall ∧ g.arrival.wall < f.arrival.wall

namespace Duty

variable {d : Duty} {first last : Seat} {t : Instant}

-- When the crew of each seat signs in, and when the flight of each seat arrives.
def signIns (d : Duty) : Set Int := {t | ∃ s ∈ d.seats, s.flight.departure.wall - Flight.signIn = t}
def arrivals (d : Duty) : Set Int := {t | ∃ s ∈ d.seats, s.flight.arrival.wall = t}

-- The times of a duty cover its flights:
-- 1. it starts with the earliest sign-in
-- 2. its last arrival is the latest
-- 3. it ends with the sign-off after the latest arrival
-- 4. its period is no shorter than from its start to any arrival
-- 5. the least rest after it is no shorter than from its start to any sign-off
structure Covers (d : Duty) : Prop where
  start : ∃ t ∈ d.start, t.zone = none ∧ IsLeast d.signIns t.wall
  lastArrival : ∃ t ∈ d.lastArrival, t.zone = none ∧ IsGreatest d.arrivals t.wall
  finish : ∃ t ∈ d.finish, t.zone = none ∧ IsGreatest d.arrivals (t.wall - Flight.signOff)
  period : ∃ t ∈ d.start, ∃ period, d.flightDutyPeriod = .ok (some period) ∧
    ∀ arrival ∈ d.arrivals, arrival - t.wall ≤ period
  rest : ∀ e : Employee, ∃ t ∈ d.start, ∃ rest, d.minimumRest e = .ok (some rest) ∧
    ∀ arrival ∈ d.arrivals, arrival + Flight.signOff - t.wall ≤ rest

-- The times of a duty run from the earliest sign-in to the end of the flight that departs last.
structure Runs (d : Duty) (t : Instant) (last : Seat) : Prop where
  start : d.start = some t ∧ t.zone = none ∧ IsLeast d.signIns t.wall
  lastArrival : d.lastArrival = some last.flight.arrival ∧ last.flight.arrival.zone = none
  finish : ∃ t ∈ d.finish, t.zone = none ∧ t.wall = last.flight.arrival.wall + Flight.signOff
  period : d.flightDutyPeriod = .ok (some (last.flight.arrival.wall - t.wall))
  rest : ∀ e : Employee, d.minimumRest e = .ok (some (max
    (last.flight.arrival.wall + Flight.signOff - t.wall)
    (if last.flight.destination.same e.home then minRestAtHome else minRestAway)))

section Times

variable (hc : d.Current) (ho : Seat.Ordered d.seats) (hp : ∀ s ∈ d.seats, s.flight.Plain)
include hc ho hp

-- The seats of a duty are in the order of their departures, so the first of them signs in first.
theorem exists_runs (hf : d.first? = some first) (hl : d.last? = some last) :
    ∃ t, d.Runs t last := by
  have hfirst := hp first (mem_of_first? hf)
  have hlast := hp last (mem_of_last? hl)
  obtain ⟨⟨t, ht, hstart⟩, ⟨u, hu, hfinish⟩, harrival, -⟩ := hc.flown first hf last hl
  obtain ⟨hzone, hwall⟩ := Instant.of_plus ht
  obtain ⟨hzone', hwall'⟩ := Instant.of_plus hu
  have hzone : t.zone = none := hzone.trans hfirst.departure
  have hzone' : u.zone = none := hzone'.trans hlast.arrival
  refine ⟨t, ⟨hstart, hzone, ⟨first, mem_of_first? hf, ?_⟩, ?_⟩, ⟨harrival, hlast.arrival⟩,
    ⟨u, hfinish, hzone', hwall'⟩, ?period, fun e => ?rest⟩
  · rw [hwall, Int.sub_eq_add_neg]
  · rintro _ ⟨s, hs, rfl⟩
    have hle := ho.first_departure_le hf hs
    simp only [Seat.key, Instant.position_of_plain hfirst.departure,
      Instant.position_of_plain (hp s hs).departure] at hle
    omega
  case period =>
    simp [flightDutyPeriod, hstart, harrival, Instant.minus, Instant.comparable, Instant.position, hzone,
      hlast.arrival, Except.map]
  case rest =>
    simp [minimumRest, hl, hstart, hfinish, Instant.minus, Instant.comparable, Instant.position, hzone,
      hzone', hwall', bind, Except.bind, pure, Except.pure]

omit hc in
theorem Runs.covers_iff (h : d.Runs t last) (hl : d.last? = some last) :
    d.Covers ↔ ∀ s ∈ d.seats, ¬s.flight.Encloses last.flight := by
  constructor
  · rintro hcovers s hs ⟨-, hlt⟩
    obtain ⟨u, hu, -, -, hlatest⟩ := hcovers.lastArrival
    obtain rfl := Option.some.inj (h.lastArrival.1.symm.trans hu)
    exact absurd (hlatest ⟨s, hs, rfl⟩) (not_le.2 hlt)
  · intro hnone
    have hgreatest : IsGreatest d.arrivals last.flight.arrival.wall := by
      refine ⟨⟨last, mem_of_last? hl, rfl⟩, ?_⟩
      rintro _ ⟨s, hs, rfl⟩
      have hle := ho.departure_le_last hl hs
      simp only [Seat.key, Instant.position_of_plain (hp s hs).departure,
        Instant.position_of_plain (hp last (mem_of_last? hl)).departure] at hle
      exact not_lt.1 fun hlt => hnone s hs ⟨hle, hlt⟩
    obtain ⟨u, hu, hzone, hwall⟩ := h.finish
    constructor
    case start => exact ⟨t, h.start⟩
    case lastArrival => exact ⟨_, h.lastArrival.1, h.lastArrival.2, hgreatest⟩
    case finish => exact ⟨u, hu, hzone, by rwa [hwall, Int.add_sub_cancel]⟩
    case period =>
      exact ⟨t, h.start.1, _, h.period, fun arrival ha => Int.sub_le_sub_right (hgreatest.2 ha) _⟩
    case rest =>
      refine fun e => ⟨t, h.start.1, _, h.rest e, fun arrival ha => le_max_of_le_left ?_⟩
      have := hgreatest.2 ha
      omega

end Times

end Duty

namespace Ledger.Steps

variable {l : Ledger} {r : Roster} {folder : Folder} {scenario : Scenario} {solved : Bool} {id : String}
  {day : Date} {d : Duty}

-- Whatever was done to a roster that was loaded, every duty with flights runs from the earliest sign-in to
-- the end of the flight that departs last. That covers all of its flights unless one of them encloses the
-- last.
theorem covers_of_load (hload : loadInstance folder solved = .ok (scenario, r)) (hp : r.Plain)
    (hs : Steps (.ofRoster r) l) (hd : l.roster.dutyAt id day = some d) (hf : d.isFlightDuty = true) :
    ∃ t last, d.last? = some last ∧ d.Runs t last ∧
      (d.Covers ↔ ∀ s ∈ d.seats, ¬s.flight.Encloses last.flight) := by
  obtain ⟨hc, hb⟩ := hs.consistent_and_blank (consistent_of_loadInstance hload hp).1 hp
  have hplain : ∀ s ∈ d.seats, s.flight.Plain := fun s hm =>
    hc.plain_of_lists (hp.of_blank_eq hb.symm) ⟨d, hd, hm⟩
  obtain ⟨first, last, hfirst, hlast⟩ := Duty.exists_ends (d := d) (by simpa [Duty.isFlightDuty] using hf)
  obtain ⟨t, hruns⟩ := Duty.exists_runs (hc.current hd) (hc.ordered hd) hplain hfirst hlast
  exact ⟨t, last, hlast, hruns, hruns.covers_iff (hc.ordered hd) hplain hlast⟩

end Ledger.Steps

-- One employee, and two flights of which the first is in the air before, during and after the second.
def Folder.nested : Folder :=
  .withFlights .smallest
    "\x7b\"flights\": [\x7b\"flight_number\": \"1\", \"departure_airport\": \"A\",
      \"arrival_airport\": \"A\", \"departure_utc\": \"2024-06-03T08:00\",
      \"arrival_utc\": \"2024-06-03T14:00\", \"required_skills\": [\"P\"]\x7d,
      \x7b\"flight_number\": \"2\", \"departure_airport\": \"A\",
      \"arrival_airport\": \"A\", \"departure_utc\": \"2024-06-03T09:00\",
      \"arrival_utc\": \"2024-06-03T10:00\", \"required_skills\": [\"P\"]\x7d]\x7d"

namespace Contents

-- A time on the one day of the smallest instance.
def onDay (hours minutes : ℕ) : Instant := .ofDate smallest.first (.after hours minutes 0)

theorem departureDate_of_onDay {s : Seat} {hours minutes : ℕ}
    (h : s.flight.departure = onDay hours minutes) (hd : (onDay hours minutes).date = smallest.first) :
    s.departureDate = smallest.first := by
  rw [Seat.departureDate, Flight.departureDate, h, hd]

def nested : Contents :=
  { smallest with legs := [⟨"1", "A", "A", onDay 8 0, onDay 14 0, "", "", ["P"]⟩,
      ⟨"2", "A", "A", onDay 9 0, onDay 10 0, "", "", ["P"]⟩] }

set_option maxRecDepth 10000 in
theorem spelledBy_nested : nested.SpelledBy .nested :=
  spelledBy_smallest.withFlights (t := [("2024-06-03T08:00", "2024-06-03T14:00"),
      ("2024-06-03T09:00", "2024-06-03T10:00")])
    rfl (by decide +kernel) (by decide +kernel)

end Contents

namespace Ledger

theorem loads_nested : ∃ scenario r a b e, loadInstance .nested false = .ok (scenario, r) ∧ r.Plain ∧
    r.assignments.entries = [("1@2024-06-03#0", a), ("2@2024-06-03#0", b)] ∧
    r.employees.entries = [("E", e)] ∧ a.seat.flight.departure = Contents.onDay 8 0 ∧
    a.seat.flight.arrival = Contents.onDay 14 0 ∧ b.seat.flight.departure = Contents.onDay 9 0 ∧
    b.seat.flight.arrival = Contents.onDay 10 0 := by
  obtain ⟨scenario, r, hload, hp, hkeys, hcrew, hdepartures, harrivals⟩ :=
    Contents.spelledBy_nested.exists_of_load
      (P := fun r => r.Plain ∧ r.assignments.keys = ["1@2024-06-03#0", "2@2024-06-03#0"] ∧
        r.employees.keys = ["E"] ∧
        r.assignments.values.map (·.seat.flight.departure) = [Contents.onDay 8 0, Contents.onDay 9 0] ∧
        r.assignments.values.map (·.seat.flight.arrival) = [Contents.onDay 14 0, Contents.onDay 10 0])
      (by decide +kernel)
  obtain ⟨⟨_, a⟩, rest, hs, rfl, hrest⟩ := List.map_eq_cons_iff.1 hkeys
  obtain ⟨⟨_, b⟩, rfl, rfl⟩ := List.map_eq_singleton_iff.1 hrest
  obtain ⟨⟨_, e⟩, he, rfl⟩ := List.map_eq_singleton_iff.1 hcrew
  simp only [Registry.values, hs, List.map_cons, List.map_nil, List.cons.injEq] at hdepartures harrivals
  exact ⟨scenario, r, a, b, e, hload, hp, hs, he, hdepartures.1, harrivals.1, hdepartures.2.1,
    harrivals.2.1⟩

-- The one employee gets both seats.
theorem applies_nested : ∃ scenario r s t l, loadInstance .nested false = .ok (scenario, r) ∧ r.Plain ∧
    r.seats = [s, t] ∧ s.flight.departure = Contents.onDay 8 0 ∧
    s.flight.arrival = Contents.onDay 14 0 ∧ t.flight.departure = Contents.onDay 9 0 ∧
    t.flight.arrival = Contents.onDay 10 0 ∧ Steps (.ofRoster r) l ∧ Remains r l ∧
    l.roster.Lists "E" Contents.smallest.first s ∧ l.roster.Lists "E" Contents.smallest.first t := by
  obtain ⟨scenario, r, a, b, e, hload, hp, hs, he, hdep, harr, hdep', harr'⟩ := loads_nested
  have ha : r.assignments.get? "1@2024-06-03#0" = some a := Registry.get?_eq_some.2 (by simp [hs])
  have hb : r.assignments.get? "2@2024-06-03#0" = some b := Registry.get?_eq_some.2 (by simp [hs])
  have he : r.employees.get? "E" = some e := Registry.get?_eq_some.2 (by simp [he])
  have hplan : Plan.Possible r [("1@2024-06-03#0", some "E"), ("2@2024-06-03#0", some "E")] := by
    simp only [Plan.Possible, List.forall_mem_cons]
    exact ⟨⟨⟨a, ha⟩, fun id hid => ⟨e, Option.some.inj hid ▸ he⟩⟩,
      ⟨⟨b, hb⟩, fun id hid => ⟨e, Option.some.inj hid ▸ he⟩⟩, by simp⟩
  obtain ⟨l, happly, hfollowed, hremains, -⟩ :=
    ((fresh_of_loadInstance hload).consistent hp).apply_ok hp rfl (by decide) hplan
  have hstep : Step (.ofRoster r) l := (Call.Succeeds.apply happly).step
  have hday : a.seat.departureDate = Contents.smallest.first :=
    Contents.departureDate_of_onDay hdep (by decide +kernel)
  have hday' : b.seat.departureDate = Contents.smallest.first :=
    Contents.departureDate_of_onDay hdep' (by decide +kernel)
  exact ⟨scenario, r, a.seat, b.seat, l, hload, hp, by simp [Roster.seats, Registry.values, hs], hdep, harr,
    hdep', harr', .step hstep .refl, hremains,
    hday ▸ hfollowed.lists List.mem_cons_self ha,
    hday' ▸ hfollowed.lists (by simp) hb⟩

-- The flight that departs last arrives first, and the times of the duty end with it.
theorem runs_nested : ∃ scenario r l d s, loadInstance .nested false = .ok (scenario, r) ∧ r.Plain ∧
    Steps (.ofRoster r) l ∧ l.roster.dutyAt "E" Contents.smallest.first = some d ∧
    d.isFlightDuty = true ∧ s ∈ d.seats ∧ s.flight.arrival = Contents.onDay 14 0 ∧
    d.lastArrival = some (Contents.onDay 10 0) := by
  obtain ⟨scenario, r, s, t, l, hload, hp, hseats, hdep, harr, hdep', harr', hsteps, hremains,
    ⟨d, hd, hs⟩, ⟨d', hd', ht⟩⟩ := applies_nested
  obtain rfl := Option.some.inj (hd.symm.trans hd')
  obtain ⟨first, last, hfirst, hlast⟩ := Duty.exists_ends (List.ne_nil_of_mem hs)
  obtain ⟨-, -, hlastArrival, -⟩ := (hremains.consistent.current hd).flown first hfirst last hlast
  have hle := (hremains.consistent.ordered hd).departure_le_last hlast ht
  have hcase : last = s ∨ last = t := by
    obtain ⟨c, hc, rfl⟩ := hremains.consistent.known ⟨d, hd, Duty.mem_of_last? hlast⟩
    have hm : c.seat ∈ r.seats :=
      Roster.seats_of_blank_eq hremains.blank ▸ Roster.mem_seats.2 ⟨_, c, hc, rfl⟩
    simpa [hseats] using hm
  rcases hcase with rfl | rfl
  · simp only [Seat.key, hdep, hdep'] at hle
    exact absurd hle (by decide +kernel)
  · exact ⟨scenario, r, l, d, s, hload, hp, hsteps, hd,
      by simpa [Duty.isFlightDuty] using List.ne_nil_of_mem hs, hs, harr, harr' ▸ hlastArrival⟩

namespace Steps

-- The duty is over at half past ten, with a flight in the air until two o'clock.
theorem not_covers_nested : ∃ scenario r l d s, loadInstance .nested false = .ok (scenario, r) ∧
    r.Plain ∧ Steps (.ofRoster r) l ∧ l.roster.dutyAt "E" Contents.smallest.first = some d ∧
    d.isFlightDuty = true ∧ s ∈ d.seats ∧ s.flight.arrival = Contents.onDay 14 0 ∧
    d.lastArrival = some (Contents.onDay 10 0) ∧ ¬d.Covers := by
  obtain ⟨scenario, r, l, d, s, hload, hp, hsteps, hd, hf, hs, harr, hlast⟩ := runs_nested
  refine ⟨scenario, r, l, d, s, hload, hp, hsteps, hd, hf, hs, harr, hlast, fun h => ?_⟩
  obtain ⟨t, ht, -, -, hlatest⟩ := h.lastArrival
  obtain rfl := Option.some.inj (hlast.symm.trans ht)
  have hle := hlatest ⟨s, hs, rfl⟩
  rw [harr] at hle
  exact absurd hle (by decide +kernel)

-- One of the flights encloses the last.
theorem covers_of_load_nested : ∃ scenario r l d t last, loadInstance .nested false = .ok (scenario, r) ∧
    r.Plain ∧ Steps (.ofRoster r) l ∧ l.roster.dutyAt "E" Contents.smallest.first = some d ∧
    d.isFlightDuty = true ∧ d.last? = some last ∧ d.Runs t last ∧
    last.flight.arrival = Contents.onDay 10 0 ∧
    (d.Covers ↔ ∀ s ∈ d.seats, ¬s.flight.Encloses last.flight) := by
  obtain ⟨scenario, r, l, d, s, hload, hp, hsteps, hd, hf, hs, harr, hlastArrival⟩ := runs_nested
  obtain ⟨t, last, hlast, hruns, hiff⟩ := covers_of_load hload hp hsteps hd hf
  exact ⟨scenario, r, l, d, t, last, hload, hp, hsteps, hd, hf, hlast, hruns,
    Option.some.inj (hruns.lastArrival.1.symm.trans hlastArrival), hiff⟩

end Steps

end Ledger

end CrewRoster
