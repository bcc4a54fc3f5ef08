import CrewRoster.Proofs.Acceptance
import CrewRoster.Proofs.Applying
import CrewRoster.Proofs.Question
import CrewRoster.Proofs.Steps

namespace CrewRoster

theorem Instant.wall_lt_of_date_lt {a b : Instant} (h : a.date < b.date) : a.wall < b.wall := by
  by_contra hle
  have := Int.ediv_le_ediv Instant.day_pos (not_lt.1 hle)
  simp only [Date.lt_def, Instant.date] at h
  omega

-- Of two seats on flights without zones, the one that departs on an earlier day comes first.
theorem Seat.key_lt_of_date_lt {s t : Seat} (hs : s.flight.OnLine false) (ht : t.flight.OnLine false)
    (h : s.departureDate < t.departureDate) : s.key.lt t.key := by
  have hlt : s.key.departure < t.key.departure := by
    simp only [Seat.key, Instant.position_of_plain hs.departure_zone,
      Instant.position_of_plain ht.departure_zone]
    exact Instant.wall_lt_of_date_lt h
  simp [Seat.Key.lt, hlt]

namespace Ledger

variable {l : Ledger} {r : Roster} {e : Employee} {id : String} {s : Seat} {sorted : List Assignment}
  {folder : Folder} {scenario : Scenario} {solved : Bool}

namespace Listing

variable (h : l.Listing)
include h

theorem mem_seats (hn : l.pending = none) (he : l.roster.employees.get? id = some e) :
    s ∈ e.seats ↔ l.roster.Owns id s := by
  have hlists : ∀ day, (∃ d, e.calendar.dutyOn day = some d ∧ s ∈ d.seats) ↔
      l.roster.Lists id day s := by
    intro day
    rw [Roster.Lists, Roster.dutyAt, he, Option.bind_some]
    rfl
  rw [Employee.seats, Calendar.mem_seats]
  simp only [hlists, h.lists_iff hn, exists_and_left, exists_eq, and_true]

-- Days and the seats of a day are in order, so all seats are.
theorem seats_ordered (hn : l.roster.Naive) (he : l.roster.employees.get? id = some e) :
    Seat.Ordered e.seats := by
  have hat : ∀ d ∈ e.calendar.duties, l.roster.dutyAt id d.date = some d := fun _ => h.dutyAt_of_mem he
  rw [Employee.seats, Calendar.seats, Seat.Ordered, List.pairwise_flatMap]
  constructor
  · exact fun d hd => h.ordered (hat d hd)
  · refine (h.calendar_dated he).pairwise_date.imp_of_mem fun {d₁ d₂} hd₁ hd₂ hlt s hs t ht => ?_
    have hs : l.roster.Lists id d₁.date s := ⟨d₁, hat d₁ hd₁, hs⟩
    have ht : l.roster.Lists id d₂.date t := ⟨d₂, hat d₂ hd₂, ht⟩
    refine Seat.key_lt_of_date_lt (h.onLine_of_lists hn hs) (h.onLine_of_lists hn ht) ?_
    obtain ⟨a, ha, rfl⟩ := h.known hs
    obtain ⟨b, hb, rfl⟩ := h.known ht
    rwa [← (h.eq_of_lists ha hs).2, ← (h.eq_of_lists hb ht).2]

variable (hsorted : sorted.Perm l.roster.assignments.values)
include hsorted

theorem seats_eq (hnaive : l.roster.Naive) (hn : l.pending = none)
    (ho : Seat.Ordered (sorted.map (·.seat))) (he : l.roster.employees.get? id = some e) :
    e.seats = (sorted.filter fun a => a.owner = some id).map (·.seat) := by
  refine (h.seats_ordered hnaive he).eq_of_mem_iff
    (List.Pairwise.sublist (List.filter_sublist.map _) ho) fun s => ?_
  simp only [h.mem_seats hn he, List.mem_map, List.mem_filter, hsorted.mem_iff, Registry.mem_values,
    decide_eq_true_eq]
  constructor
  · rintro ⟨k, ha⟩
    exact ⟨_, ⟨⟨k, ha⟩, rfl⟩, rfl⟩
  · rintro ⟨⟨s, owner⟩, ⟨⟨k, ha⟩, rfl⟩, rfl⟩
    exact ⟨k, ha⟩

omit hsorted

section Counts

variable (hnaive : l.roster.Naive) (hn : l.pending = none)
include hnaive hn

-- The seats in the calendar of an employee are as many as the employee owns.
theorem seatCount_eq (he : l.roster.employees.get? id = some e) :
    e.calendar.seatCount = l.roster.assignments.values.countP fun a => a.owner = some id := by
  obtain ⟨sorted, -, hperm, ho⟩ := h.exists_sorted hnaive
  calc e.calendar.seatCount = e.seats.length := e.calendar.seatCount_eq
    _ = sorted.countP fun a => a.owner = some id := by
      rw [h.seats_eq hperm hnaive hn ho he, List.length_map, List.countP_eq_length_filter]
    _ = _ := hperm.countP_eq _

-- Every seat with an owner is in one calendar.
theorem sum_seatCount : (l.roster.employees.values.map (·.calendar.seatCount)).sum =
    l.roster.assignments.values.countP (·.owner.isSome) := by
  have howner : ∀ a ∈ l.roster.assignments.values, ∀ id ∈ a.owner,
      id ∈ l.roster.employees.values.map (·.id) := fun a ha id ho => by
    obtain ⟨k, ha⟩ := Registry.mem_values.1 ha
    obtain ⟨e, he⟩ := h.exists_owner hn ha ho
    exact List.mem_map.2 ⟨e, Registry.mem_values.2 ⟨id, he⟩, h.crewId he⟩
  rw [← Lists.sum_countP (h.keyed List.nodup_nil (by simp)).employees Assignment.owner howner, List.map_map]
  exact congrArg List.sum (List.map_congr_left fun e he =>
    h.seatCount_eq hnaive hn (h.mem_employees.1 he))

end Counts

end Listing

namespace Steps

-- Whatever was done to a roster that was loaded, once nothing is pending:
-- 1. the seats of an employee, day by day, are those of all seats in order that the employee owns
-- 2. their number, the first and the last of them are what the calendar says
-- 3. the seats of all employees are as many as have an owner
theorem in_order_of_load (hload : loadInstance folder solved = .ok (scenario, r)) (hnaive : r.Naive)
    (hs : Steps (.ofRoster r) l) (hn : l.pending = none) :
    ∃ sorted, l.roster.sorted = .ok sorted ∧
      (∀ e ∈ l.roster.employees.values,
        e.seats = (sorted.filter fun a => a.owner = some e.id).map (·.seat) ∧
        e.calendar.seatCount = e.seats.length ∧ e.calendar.firstSeat = e.seats.head? ∧
        e.calendar.lastSeat = e.seats.getLast?) ∧
      (l.roster.employees.values.map (·.calendar.seatCount)).sum =
        l.roster.assignments.values.countP (·.owner.isSome) := by
  obtain ⟨h, hnaive⟩ := hs.listing ⟨listing_of_loadInstance hload hnaive, hnaive⟩
  obtain ⟨sorted, hsorted, hperm, ho⟩ := h.exists_sorted hnaive
  have hseats : ∀ e ∈ l.roster.employees.values,
      e.seats = (sorted.filter fun a => a.owner = some e.id).map (·.seat) := fun e he =>
    h.seats_eq hperm hnaive hn ho (h.mem_employees.1 he)
  refine ⟨sorted, hsorted, fun e he => ⟨hseats e he, e.calendar.seatCount_eq, e.calendar.firstSeat_eq,
    e.calendar.lastSeat_eq⟩, ?_⟩
  have hcount : ∀ e ∈ l.roster.employees.values,
      e.calendar.seatCount = l.roster.assignments.values.countP fun a => a.owner = some e.id := by
    intro e he
    rw [Calendar.seatCount_eq, ← Employee.seats, hseats e he, List.length_map,
      ← List.countP_eq_length_filter, hperm.countP_eq]
  have howner : ∀ a ∈ l.roster.assignments.values, ∀ id ∈ a.owner,
      id ∈ l.roster.employees.values.map (·.id) := by
    intro a ha id ho
    obtain ⟨k, ha⟩ := Registry.mem_values.1 ha
    obtain ⟨e, he⟩ := h.exists_owner hn ha ho
    exact List.mem_map.2 ⟨e, Registry.mem_values.2 ⟨id, he⟩, h.crewId he⟩
  have hsum := Lists.sum_countP (h.keyed List.nodup_nil (by simp)).employees Assignment.owner howner
  rw [List.map_map] at hsum
  rw [List.map_congr_left hcount]
  exact hsum

end Steps

end Ledger

-- Two flights from A to B on the two days of the period, and one from A to A two days later.
def Folder.journey : Folder :=
  .withFlights .varied
    "\x7b\"flights\": [\x7b\"flight_number\": \"1\", \"departure_airport\": \"A\",
      \"arrival_airport\": \"B\", \"departure_utc\": \"2024-06-03T08:00\",
      \"arrival_utc\": \"2024-06-03T18:00\", \"required_skills\": [\"P\"]\x7d,
      \x7b\"flight_number\": \"2\", \"departure_airport\": \"A\",
      \"arrival_airport\": \"B\", \"departure_utc\": \"2024-06-04T08:00\",
      \"arrival_utc\": \"2024-06-04T09:00\", \"required_skills\": [\"P\"]\x7d,
      \x7b\"flight_number\": \"3\", \"departure_airport\": \"A\",
      \"arrival_airport\": \"A\", \"departure_utc\": \"2024-06-06T08:00\",
      \"arrival_utc\": \"2024-06-06T09:00\", \"required_skills\": [\"P\"]\x7d]\x7d"

namespace Contents

-- The first three legs of the journey, from Monday on.
def monday : Leg :=
  ⟨"1", "A", "B", .ofDate (.after 739039) (.after 8 0 0), .ofDate (.after 739039) (.after 18 0 0), "", "",
    ["P"]⟩

def tuesday : Leg :=
  ⟨"2", "A", "B", .ofDate (.after 739040) (.after 8 0 0), .ofDate (.after 739040) (.after 9 0 0), "", "",
    ["P"]⟩

def thursday : Leg :=
  ⟨"3", "A", "A", .ofDate (.after 739042) (.after 8 0 0), .ofDate (.after 739042) (.after 9 0 0), "", "",
    ["P"]⟩

def journey : Contents := { varied with legs := [monday, tuesday, thursday] }

-- The one employee gets the first seat and the last.
def outing : Ledger.Plan := [("1@2024-06-03#0", some "E"), ("3@2024-06-06#0", some "E")]

set_option maxRecDepth 10000 in
theorem spelledBy_journey : journey.SpelledBy .journey :=
  spelledBy_varied.withFlights (t := [("2024-06-03T08:00", "2024-06-03T18:00"),
      ("2024-06-04T08:00", "2024-06-04T09:00"),
      ("2024-06-06T08:00", "2024-06-06T09:00")])
    rfl (by decide +kernel) (by decide +kernel)

end Contents

namespace Ledger

theorem loads_journey : ∃ scenario r e, loadInstance .journey false = .ok (scenario, r) ∧ r.Plain ∧
    r.assignments.entries = [("1@2024-06-03#0", ⟨Contents.monday.seat, none⟩),
      ("2@2024-06-04#0", ⟨Contents.tuesday.seat, none⟩),
      ("3@2024-06-06#0", ⟨Contents.thursday.seat, none⟩)] ∧
    r.employees.entries = [("E", e)] := by
  obtain ⟨scenario, r, hload, hp, hs, hcrew⟩ := Contents.spelledBy_journey.exists_of_load
    (P := fun r => r.Plain ∧
      r.assignments.entries = [("1@2024-06-03#0", ⟨Contents.monday.seat, none⟩),
        ("2@2024-06-04#0", ⟨Contents.tuesday.seat, none⟩),
        ("3@2024-06-06#0", ⟨Contents.thursday.seat, none⟩)] ∧
      r.employees.keys = ["E"])
    (by decide +kernel)
  obtain ⟨⟨_, e⟩, he, rfl⟩ := List.map_eq_singleton_iff.1 hcrew
  exact ⟨scenario, r, e, hload, hp, hs, he⟩

theorem travels_journey : ∃ scenario r l e, loadInstance .journey false = .ok (scenario, r) ∧ r.Plain ∧
    (Ledger.ofRoster r).apply Contents.outing = (l, .ok 2) ∧ Reassigned (.ofRoster r) l ∧ Remains r l ∧
    l.pending = none ∧ l.roster.employees.get? "E" = some e ∧
    l.roster.assignments.get? "2@2024-06-04#0" = some ⟨Contents.tuesday.seat, none⟩ ∧
    (∀ s, l.roster.Owns "E" s ↔ s = Contents.monday.seat ∨ s = Contents.thursday.seat) ∧
    e.seats = [Contents.monday.seat, Contents.thursday.seat] := by
  obtain ⟨scenario, r, e, hload, hp, hs, he⟩ := loads_journey
  have he : r.employees.get? "E" = some e := Registry.get?_eq_some.2 (by simp [he])
  have hmonday : r.assignments.get? "1@2024-06-03#0" = some ⟨Contents.monday.seat, none⟩ :=
    Registry.get?_eq_some.2 (by simp [hs])
  have htuesday : r.assignments.get? "2@2024-06-04#0" = some ⟨Contents.tuesday.seat, none⟩ :=
    Registry.get?_eq_some.2 (by simp [hs])
  have hthursday : r.assignments.get? "3@2024-06-06#0" = some ⟨Contents.thursday.seat, none⟩ :=
    Registry.get?_eq_some.2 (by simp [hs])
  have hplan : Plan.Possible r Contents.outing := by
    simp only [Contents.outing, Plan.Possible, List.forall_mem_cons]
    exact ⟨⟨⟨_, hmonday⟩, fun id hid => ⟨e, Option.some.inj hid ▸ he⟩⟩,
      ⟨⟨_, hthursday⟩, fun id hid => ⟨e, Option.some.inj hid ▸ he⟩⟩, by simp⟩
  obtain ⟨l, happly, hfollowed, hremains, howners, -⟩ :=
    ((fresh_of_loadInstance hload).consistent hp).apply_ok hp rfl (by decide) hplan
  have hcount : Contents.outing.countP (fun p => (Ledger.ofRoster r).roster.ownerOf p.1 ≠ p.2) = 2 := by
    simp [Contents.outing, Roster.ownerOf, Ledger.ofRoster, hmonday, hthursday]
  rw [hcount] at happly
  obtain ⟨e', he', -⟩ := Roster.exists_employee_of_blank_eq hremains.blank.symm he
  have hreassigned : Reassigned (.ofRoster r) l := by
    have hrefl : Reassigned (.ofRoster r) (.ofRoster r) := .refl
    have := hrefl.apply Contents.outing
    rwa [happly] at this
  have howns : ∀ s, l.roster.Owns "E" s ↔ s = Contents.monday.seat ∨ s = Contents.thursday.seat := by
    refine fun s => ⟨?_, ?_⟩
    · rintro ⟨k, hk⟩
      rw [howners, Option.map_eq_some_iff] at hk
      obtain ⟨a, ha, heq⟩ := hk
      have hmem := Registry.get?_eq_some.1 ha
      simp only [ofRoster, hs, List.mem_cons, Prod.mk.injEq, List.not_mem_nil, or_false] at hmem
      rcases hmem with ⟨rfl, rfl⟩ | ⟨rfl, rfl⟩ | ⟨rfl, rfl⟩
      · exact .inl (congrArg Assignment.seat heq).symm
      · cases congrArg Assignment.owner heq
      · exact .inr (congrArg Assignment.seat heq).symm
    · rintro (rfl | rfl)
      · exact ⟨_, (howners _).trans (congrArg (Option.map _) hmonday)⟩
      · exact ⟨_, (howners _).trans (congrArg (Option.map _) hthursday)⟩
  refine ⟨scenario, r, l, e', hload, hp, happly, hreassigned, hremains, hfollowed.pending, he',
    (howners _).trans (congrArg (Option.map _) htuesday), howns, ?_⟩
  have hordered : Seat.Ordered [Contents.monday.seat, Contents.thursday.seat] :=
    List.pairwise_pair.2 (by decide +kernel)
  refine (hremains.consistent.listing.seats_ordered hremains.plain.naive he').eq_of_mem_iff hordered
    fun s => ?_
  rw [hremains.consistent.listing.mem_seats hfollowed.pending he', howns]
  simp

-- The one employee has the first leg and the last, and both are in order in the calendar.
theorem Steps.in_order_of_load_journey : ∃ scenario r l e sorted,
    loadInstance .journey false = .ok (scenario, r) ∧ r.Naive ∧ Steps (.ofRoster r) l ∧ l.pending = none ∧
    l.roster.employees.get? "E" = some e ∧ l.roster.sorted = .ok sorted ∧
    e.seats = (sorted.filter fun a => a.owner = some e.id).map (·.seat) ∧
    e.seats = [Contents.monday.seat, Contents.thursday.seat] ∧ e.calendar.seatCount = 2 ∧
    e.calendar.firstSeat = some Contents.monday.seat ∧ e.calendar.lastSeat = some Contents.thursday.seat ∧
    (l.roster.employees.values.map (·.calendar.seatCount)).sum =
      l.roster.assignments.values.countP (·.owner.isSome) := by
  obtain ⟨scenario, r, l, e, hload, hp, -, hre, -, hn, he, -, -, hseats⟩ := travels_journey
  obtain ⟨sorted, hsorted, hall, hsum⟩ := in_order_of_load hload hp.naive hre.steps hn
  obtain ⟨hown, hcount, hfirst, hlast⟩ := hall e (Registry.mem_values.2 ⟨_, he⟩)
  rw [hseats] at hcount hfirst hlast
  exact ⟨scenario, r, l, e, sorted, hload, hp.naive, hre.steps, hn, he, hsorted, hown, hseats, hcount, hfirst,
    hlast, hsum⟩

end Ledger
end CrewRoster
