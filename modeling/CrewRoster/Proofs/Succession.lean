import CrewRoster.Proofs.Airborne
import CrewRoster.Proofs.Neighbours

namespace CrewRoster

variable {f g : Flight} {s t u : Seat} {seats : List Seat}

section Consecutive

variable {α : Type} {R : α → α → Prop} {xs : List α}

theorem isChain_of_consecutive (h : ∀ p ∈ consecutive xs, R p.1 p.2) : xs.IsChain R := by
  induction xs with
  | nil => exact .nil
  | cons x xs ih =>
    cases xs with
    | nil => exact .singleton x
    | cons y ys =>
      exact .cons_cons (h (x, y) List.mem_cons_self) (ih fun p hp => h p (List.mem_cons_of_mem _ hp))

theorem rel_of_mem_consecutive {p : α × α} (h : xs.Pairwise R) (hp : p ∈ consecutive xs) : R p.1 p.2 := by
  induction xs with
  | nil => cases hp
  | cons x xs ih =>
    obtain ⟨hx, hxs⟩ := List.pairwise_cons.1 h
    cases xs with
    | nil => cases hp
    | cons y ys =>
      rcases List.mem_cons.1 hp with rfl | hp
      · exact hx y List.mem_cons_self
      · exact ih hxs hp

end Consecutive

namespace Flight

-- The flight takes a minute or more.
def IsLong (f : Flight) : Prop := f.departure.position + Span.minute ≤ f.arrival.position

namespace IsLong

theorem sharedMinutes_nonneg (hf : f.IsLong) (hg : g.IsLong) : 0 ≤ f.sharedMinutes g := by
  unfold IsLong Span.minute Span.second at *
  unfold sharedMinutes
  split
  case isTrue h =>
    have hmono := Span.minutes_mono (s := 0) (t := min f.arrival.position g.arrival.position -
      max f.departure.position g.departure.position) (by omega)
    rwa [← zero_mul Span.minute, Span.minutes_mul (by norm_num)] at hmono
  case isFalse => exact le_rfl

theorem sharedMinutes_eq_zero_iff (hf : f.IsLong) (hg : g.IsLong) :
    f.sharedMinutes g = 0 ↔ f.sharedTime g < Span.minute := by
  have hpos : 0 < f.sharedMinutes g ↔ Span.minute ≤ f.sharedTime g :=
    sharedMinutes_pos_iff.trans minute_le_sharedTime_iff.symm
  have hnonneg := hf.sharedMinutes_nonneg hg
  rw [← not_le, ← hpos]
  omega

end IsLong

end Flight

namespace Seat

-- A leg of a minute or more that departs no earlier than another, and less than a minute before the
-- other has landed.
structure Succeeds (s t : Seat) : Prop where
  order : s.flight.departure.position ≤ t.flight.departure.position
  slack : s.flight.arrival.position < t.flight.departure.position + Span.minute
  long : t.flight.IsLong

namespace Succeeds

-- What two legs may share does not add up over a leg in between, which takes a minute or more.
theorem trans (h : s.Succeeds t) (h' : t.Succeeds u) : s.Succeeds u where
  order := h.order.trans h'.order
  slack := (h.slack.trans_le h.long).trans h'.slack
  long := h'.long

instance : IsTrans Seat Succeeds := ⟨fun _ _ _ => trans⟩

theorem of_sharedTime_lt (ht : t.flight.IsLong)
    (hle : s.flight.departure.position ≤ t.flight.departure.position)
    (h : s.flight.sharedTime t.flight < Span.minute) : s.Succeeds t where
  order := hle
  long := ht
  slack := by
    rw [Flight.sharedTime, max_eq_right hle] at h
    unfold Flight.IsLong at ht
    omega

theorem sharedTime_lt (h : s.Succeeds t) : s.flight.sharedTime t.flight < Span.minute := by
  have := h.slack
  rw [Flight.sharedTime, max_eq_right h.order]
  omega

theorem flight_ne (h : s.Succeeds t) : s.flight ≠ t.flight := by
  intro he
  have hslack := h.slack
  rw [he] at hslack
  exact absurd h.long (not_le.2 hslack)

end Succeeds

-- A leg that shares no minute with the one before it shares none with any before it.
theorem Ordered.pairwise_succeeds (ho : Ordered seats) (hlong : ∀ s ∈ seats, s.flight.IsLong)
    (h : ∀ p ∈ consecutive seats, p.1.flight.sharedMinutes p.2.flight = 0) :
    seats.Pairwise Succeeds := by
  refine List.isChain_iff_pairwise.1 (isChain_of_consecutive fun p hp => ?_)
  obtain ⟨hs, ht⟩ := List.of_mem_zip hp
  have hs := hlong _ hs
  have ht := hlong _ (List.mem_of_mem_tail ht)
  have hle := Key.departure_le_of_lt (rel_of_mem_consecutive ho hp)
  exact .of_sharedTime_lt ht hle ((hs.sharedMinutes_eq_zero_iff ht).1 (h p hp))

-- The flights of two seats share no minute, and the seats are not in conflict.
structure Disjoint (s t : Seat) : Prop where
  sharedMinutes : s.flight.sharedMinutes t.flight = 0
  clashes : s.clashes t = false

instance : Std.Symm Disjoint :=
  ⟨fun s t h => ⟨Flight.sharedMinutes_comm s.flight t.flight ▸ h.1, clashes_comm s t ▸ h.2⟩⟩

theorem Timetable.disjoint_of_succeeds {zoned : Bool} (h : Timetable zoned seats) (hs : s ∈ seats)
    (ht : t ∈ seats) (hst : s.Succeeds t) (hlong : s.flight.IsLong) : s.Disjoint t := by
  have hzero := (hlong.sharedMinutes_eq_zero_iff hst.long).2 hst.sharedTime_lt
  have hid : s.flight.id ≠ t.flight.id := fun he => hst.flight_ne (h.flight s hs t ht he)
  exact ⟨hzero, by simp [Seat.clashes, hid, hzero]⟩

end Seat

namespace Ledger.Steps

variable {l : Ledger} {r : Roster} {folder : Folder} {scenario : Scenario} {solved : Bool}
  {id : String} {e : Employee}

-- Whatever was done to a roster without zones that was loaded, an employee with nothing pending whose
-- flights take a minute or more, and of whose legs no two that follow each other share a minute, has no
-- two seats whose flights do, and no two in conflict.
theorem disjoint_of_load (hload : loadInstance folder solved = .ok (scenario, r)) (hn : r.Naive)
    (hs : Steps (.ofRoster r) l) (hp : l.pending = none) (he : l.roster.employees.get? id = some e)
    (hlong : ∀ s, l.roster.Owns id s → s.flight.IsLong)
    (hconsecutive : ∀ p ∈ consecutive e.seats, p.1.flight.overlapMinutes p.2.flight = .ok 0) :
    ∀ s t, l.roster.Owns id s → l.roster.Owns id t → s ≠ t →
      s.flight.overlapMinutes t.flight = .ok 0 ∧ s.conflicts t = .ok false := by
  obtain ⟨hl, hn'⟩ := hs.listing ⟨listing_of_loadInstance hload hn, hn⟩
  have hmem : ∀ s, s ∈ e.seats ↔ l.roster.Owns id s := fun s => hl.mem_seats hp he
  have ho := hl.seats_ordered hn' he
  have hlong : ∀ s ∈ e.seats, s.flight.IsLong := fun s hs => hlong s ((hmem s).1 hs)
  have htime : Seat.Timetable false e.seats := by
    have hseats : l.roster.seats = r.seats :=
      Roster.seats_of_blank_eq (hs.blank_of_listing ⟨listing_of_loadInstance hload hn, hn⟩)
    exact (timetable_of_loadInstance hload hn).sub fun s hs => hseats ▸ ((hmem s).1 hs).mem_seats
  have hzero : ∀ p ∈ consecutive e.seats, p.1.flight.sharedMinutes p.2.flight = 0 := by
    intro p hp
    obtain ⟨hs, ht⟩ := List.of_mem_zip hp
    have := hconsecutive p hp
    rwa [Flight.overlapMinutes_eq (htime.line _ hs) (htime.line _ (List.mem_of_mem_tail ht)),
      Except.ok.injEq] at this
  have hall : e.seats.Pairwise Seat.Disjoint :=
    (ho.pairwise_succeeds hlong hzero).imp_of_mem fun hs ht hst =>
      htime.disjoint_of_succeeds hs ht hst (hlong _ hs)
  intro s t hs ht hne
  have hs := (hmem s).2 hs
  have ht := (hmem t).2 ht
  obtain ⟨hshared, hclashes⟩ := hall.forall hs ht hne
  rw [Flight.overlapMinutes_eq (htime.line s hs) (htime.line t ht),
    Seat.conflicts_eq (htime.line s hs) (htime.line t ht), hshared, hclashes]
  exact ⟨rfl, rfl⟩

end Ledger.Steps

-- One employee, and three flights that depart half a minute before the one before arrives.
def Folder.relay : Folder :=
  .withFlights .smallest
    "\x7b\"flights\": [\x7b\"flight_number\": \"1\", \"departure_airport\": \"A\",
      \"arrival_airport\": \"A\", \"departure_utc\": \"2024-06-03T08:00\",
      \"arrival_utc\": \"2024-06-03T09:00:30\", \"required_skills\": [\"P\"]\x7d,
      \x7b\"flight_number\": \"2\", \"departure_airport\": \"A\",
      \"arrival_airport\": \"A\", \"departure_utc\": \"2024-06-03T09:00\",
      \"arrival_utc\": \"2024-06-03T10:00:30\", \"required_skills\": [\"P\"]\x7d,
      \x7b\"flight_number\": \"3\", \"departure_airport\": \"A\",
      \"arrival_airport\": \"A\", \"departure_utc\": \"2024-06-03T10:00\",
      \"arrival_utc\": \"2024-06-03T11:00:30\", \"required_skills\": [\"P\"]\x7d]\x7d"

namespace Contents

-- A leg of the relay.
def stage (number : String) (hours : ℕ) : Leg :=
  ⟨number, "A", "A", .ofDate smallest.first (.after hours 0 0),
    .ofDate smallest.first (.after (hours + 1) 0 30), "", "", ["P"]⟩

def relay : Contents := { smallest with legs := [stage "1" 8, stage "2" 9, stage "3" 10] }

set_option maxRecDepth 10000 in
theorem spelledBy_relay : relay.SpelledBy .relay :=
  spelledBy_smallest.withFlights (t := [("2024-06-03T08:00", "2024-06-03T09:00:30"),
      ("2024-06-03T09:00", "2024-06-03T10:00:30"),
      ("2024-06-03T10:00", "2024-06-03T11:00:30")])
    rfl (by decide +kernel) (by decide +kernel)

end Contents

namespace Ledger

section TakesAll

variable {r : Roster} {folder : Folder} {scenario : Scenario} {id : String} {e : Employee}

-- One employee can be given every seat.
theorem exists_takes_all (hload : loadInstance folder false = .ok (scenario, r)) (hp : r.Plain)
    (he : r.employees.get? id = some e) : ∃ l e', Steps (.ofRoster r) l ∧ Remains r l ∧
      l.pending = none ∧ l.roster.employees.get? id = some e' ∧
      ∀ s, l.roster.Owns id s ↔ s ∈ r.seats := by
  let plan : Plan := r.assignments.keys.map fun k => (k, some id)
  have hkeys : plan.map (·.1) = r.assignments.keys := by
    simp [plan, Function.comp_def]
  have hnodup : (plan.map (·.1)).Nodup := hkeys ▸ r.assignments.nodup
  have hplan : plan.Possible r := by
    rintro p hp
    obtain ⟨k, hk, rfl⟩ := List.mem_map.1 hp
    obtain ⟨⟨_, a⟩, ha, rfl⟩ := List.mem_map.1 hk
    exact ⟨⟨a, Registry.get?_eq_some.2 ha⟩, fun i hi => ⟨e, Option.some.inj hi ▸ he⟩⟩
  obtain ⟨l, happly, hfollowed, hremains, howners, -⟩ :=
    ((fresh_of_loadInstance hload).consistent hp).apply_ok hp rfl hnodup hplan
  obtain ⟨e', he', -⟩ := Roster.exists_employee_of_blank_eq hremains.blank.symm he
  refine ⟨l, e', .step (Call.Succeeds.apply happly).step .refl, hremains, hfollowed.pending, he',
    fun s => ⟨fun hs => ?_, fun hs => ?_⟩⟩
  · exact Roster.seats_of_blank_eq hremains.blank ▸ hs.mem_seats
  · obtain ⟨k, a, ha, rfl⟩ := Roster.mem_seats.1 hs
    have hk : (k, some id) ∈ plan :=
      List.mem_map_of_mem (List.mem_map_of_mem (f := (·.1)) (Registry.get?_eq_some.1 ha))
    refine ⟨k, (howners k).trans ?_⟩
    rw [show (ofRoster r).roster.assignments.get? k = some a from ha,
      (Plan.lookup_eq_some hnodup).2 hk]
    rfl

end TakesAll

-- Each of the three flights shares half a minute with the one before, and none with the other.
theorem Steps.disjoint_of_load_relay : ∃ scenario r l e s t u,
    loadInstance .relay false = .ok (scenario, r) ∧ r.Naive ∧ Steps (.ofRoster r) l ∧
    l.pending = none ∧ l.roster.employees.get? "E" = some e ∧
    (∀ s, l.roster.Owns "E" s → s.flight.IsLong) ∧ e.seats = [s, t, u] ∧
    s.flight.Together t.flight ∧ t.flight.Together u.flight ∧
    (∀ p ∈ consecutive e.seats, p.1.flight.overlapMinutes p.2.flight = .ok 0) ∧
    s.flight.overlapMinutes u.flight = .ok 0 ∧ s.conflicts u = .ok false := by
  obtain ⟨scenario, r, hload, hp, hcrew, hseats⟩ := Contents.spelledBy_relay.exists_of_load
    (P := fun r => r.Plain ∧ r.employees.keys = ["E"] ∧ r.seats = Contents.relay.legs.map (·.seat))
    (by decide +kernel)
  obtain ⟨⟨_, e⟩, he, rfl⟩ := List.map_eq_singleton_iff.1 hcrew
  obtain ⟨l, e', hs, hremains, hn, he', howns⟩ :=
    exists_takes_all hload hp (Registry.get?_eq_some.2 (he ▸ List.mem_cons_self))
  rw [hseats] at howns
  have hordered : Seat.Ordered (Contents.relay.legs.map (·.seat)) := by
    unfold Seat.Ordered
    decide +kernel
  have hall : e'.seats = Contents.relay.legs.map (·.seat) :=
    (hremains.consistent.listing.seats_ordered hremains.plain.naive he').eq_of_mem_iff hordered
      fun s => (hremains.consistent.listing.mem_seats hn he').trans (howns s)
  have hlong : ∀ s, l.roster.Owns "E" s → s.flight.IsLong := by
    have h : ∀ s ∈ Contents.relay.legs.map (·.seat),
      s.flight.departure.position + Span.minute ≤ s.flight.arrival.position := by decide +kernel
    exact fun s hs => h s ((howns s).1 hs)
  have hconsecutive : ∀ p ∈ consecutive e'.seats, p.1.flight.overlapMinutes p.2.flight = .ok 0 := by
    rw [hall]
    decide +kernel
  obtain ⟨hoverlap, hconflicts⟩ := disjoint_of_load hload hp.naive hs hn he' hlong hconsecutive
    (Contents.stage "1" 8).seat (Contents.stage "3" 10).seat ((howns _).2 (by simp [Contents.relay]))
    ((howns _).2 (by simp [Contents.relay])) (by decide +kernel)
  exact ⟨scenario, r, l, e', _, _, _, hload, hp.naive, hs, hn, he', hlong, hall, by decide +kernel,
    by decide +kernel, hconsecutive, hoverlap, hconflicts⟩

end Ledger

end CrewRoster
