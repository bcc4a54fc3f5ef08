import CrewRoster.Proofs.Completion
import CrewRoster.Proofs.Minutes

namespace CrewRoster

namespace Flight

variable {f g : Flight}

-- The time from the later departure to the earlier arrival.
def sharedTime (f g : Flight) : ℤ :=
  min f.arrival.position g.arrival.position - max f.departure.position g.departure.position

-- At some moment both flights are in the air: each has departed by then and not arrived yet.
def Together (f g : Flight) : Prop :=
  ∃ t : ℤ, (f.departure.position ≤ t ∧ t < f.arrival.position) ∧
    g.departure.position ≤ t ∧ t < g.arrival.position

-- Both are in the air for a time, but for less than a minute.
structure Brush (f g : Flight) : Prop where
  together : f.Together g
  brief : f.sharedTime g < Span.minute

theorem together_iff : f.Together g ↔ 0 < f.sharedTime g := by
  unfold sharedTime
  constructor
  · rintro ⟨t, hf, hg⟩
    omega
  · intro h
    exact ⟨max f.departure.position g.departure.position, by omega, by omega⟩

instance : Decidable (f.Together g) := decidable_of_iff _ together_iff.symm

instance : Decidable (f.Brush g) :=
  decidable_of_iff (f.Together g ∧ f.sharedTime g < Span.minute)
    ⟨fun ⟨ht, hb⟩ => ⟨ht, hb⟩, fun h => ⟨h.together, h.brief⟩⟩

theorem minute_le_sharedTime_iff : Span.minute ≤ f.sharedTime g ↔ f.Together g ∧ ¬f.Brush g := by
  constructor
  · intro h
    exact ⟨together_iff.2 (lt_of_lt_of_le (by decide) h), fun hb => absurd h (not_le.2 hb.brief)⟩
  · rintro ⟨ht, hb⟩
    exact not_lt.1 fun hlt => hb ⟨ht, hlt⟩

theorem sharedMinutes_pos_iff : 0 < f.sharedMinutes g ↔ f.Together g ∧ ¬f.Brush g := by
  rw [← minute_le_sharedTime_iff]
  unfold sharedMinutes
  split_ifs with hlt
  · exact Span.minutes_pos_iff
  · refine iff_of_false (lt_irrefl 0) fun h => hlt ?_
    -- who shares a minute departs before the other arrives
    have : 0 < f.sharedTime g := lt_of_lt_of_le (by decide) h
    unfold sharedTime at this
    omega

end Flight

namespace Seat

variable {s t : Seat} {zoned : Bool}

-- Flights that meet for less than a minute are not seen to meet.
theorem conflicts_iff (hs : s.flight.OnLine zoned) (ht : t.flight.OnLine zoned) :
    s.conflicts t = .ok true ↔
      s.flight.id = t.flight.id ∨ s.flight.Together t.flight ∧ ¬s.flight.Brush t.flight := by
  rw [conflicts_eq hs ht, Except.ok.injEq, clashes, Bool.or_eq_true, decide_eq_true_iff,
    decide_eq_true_iff, Flight.sharedMinutes_pos_iff]

end Seat

namespace Roster

variable {r : Roster} {k id : String} {emp : Employee}

-- Open seats of which no two are in conflict go to one employee who may take each of them.
theorem WellFormed.completes_of_alone (h : r.WellFormed) (he : r.employees.get? id = some emp)
    (hopen : ∀ a ∈ r.assignments.values, a.owner = none)
    (hq : ∀ a ∈ r.assignments.values, emp.Qualified a.seat)
    (hfree : ∀ a ∈ r.assignments.values, ∀ b ∈ r.assignments.values, a.seat ≠ b.seat →
      a.seat.conflicts b.seat ≠ .ok true) : r.Completes fun _ => emp := by
  have hmem : ∀ {s}, r.Open s → (⟨s, none⟩ : Assignment) ∈ r.assignments.values := fun ⟨k, hk⟩ =>
    Registry.mem_values.2 ⟨k, hk⟩
  constructor
  case employee => exact fun _ _ => h.crewId he ▸ he
  case qualified => exact fun s hs => hq _ (hmem hs)
  case apart => exact fun s t hs ht hne hc => absurd hc (hfree _ (hmem hs) _ (hmem ht) hne)
  case free =>
    rintro s t - ⟨j, ht⟩
    cases hopen _ (Registry.mem_values.2 ⟨j, ht⟩)

end Roster

namespace Ledger

variable {l l' : Ledger} {solver : Solver} {c : Completion} {weight : Int} {folder : Folder}
  {solved : Bool} {scenario : Scenario} {r : Roster}

theorem onLine_of_mem_seats {s : Seat} (hn : r.Naive) (hs : s ∈ r.seats) : s.flight.OnLine false := by
  obtain ⟨k, a, ha, rfl⟩ := Roster.mem_seats.1 hs
  exact hn k a ha

-- A completion that was found does not put two seats of one employee in conflict.
theorem not_conflicts_of_load (hload : loadInstance folder solved = .ok (scenario, r)) (hp : r.Plain)
    (hsolver : solver.Sound) (hb : l.roster.blank = r.blank) (h : l.Consistent)
    (hn : l.pending = none) (hfind : l.completeWith solver weight = (l', .ok c)) (hfound : c.Found)
    {e : String} {s t : Seat} (hs : l'.roster.Owns e s) (ht : l'.roster.Owns e t) (hne : s ≠ t)
    (hnew : ¬(l.roster.Owns e s ∧ l.roster.Owns e t)) :
    s ∈ r.seats ∧ t ∈ r.seats ∧ s.conflicts t ≠ .ok true := by
  have htime : Seat.Timetable false l.roster.seats :=
    Roster.seats_of_blank_eq hb ▸ timetable_of_loadInstance hload hp.naive
  obtain ⟨hanswered, hfilled, -⟩ := completed_of_sound h (hp.of_blank_eq hb.symm) hn htime hsolver
  rw [hfind] at hanswered hfilled
  have hseats : l'.roster.seats = r.seats := by
    have hblank : (l.completeWith solver weight).1.roster.blank = l.roster.blank := blank_completeWith
    rw [hfind] at hblank
    exact Roster.seats_of_blank_eq (hblank.trans hb)
  refine ⟨hseats ▸ hs.mem_seats, hseats ▸ ht.mem_seats, fun hc => hnew ?_⟩
  exact (hfilled c hanswered.symm hfound).apart e s t hs ht hne hc

-- Among the seats of an instance without zones:
-- 1. two are in conflict if they are on one flight, or on two that are in the air together and do not
--    just brush, and only then
-- 2. so a conflict is a moment in the air together, unless it is a brush
-- 3. a completion has nobody on two flights that are in the air together, unless they brush, or the
--    employee had both before
theorem conflicts_of_load (hload : loadInstance folder solved = .ok (scenario, r)) (hn : r.Naive) :
    (∀ s ∈ r.seats, ∀ t ∈ r.seats, ∃ b, s.conflicts t = .ok b ∧
      (b = true ↔ s.flight.id = t.flight.id ∨
        s.flight.Together t.flight ∧ ¬s.flight.Brush t.flight) ∧
      ((b = true ↔ s.flight.id = t.flight.id ∨ s.flight.Together t.flight) ↔
        s.flight.id = t.flight.id ∨ ¬s.flight.Brush t.flight)) ∧
    ∀ {l l' : Ledger} {solver : Solver} {weight : Int} {c : Completion}, r.Plain → solver.Sound →
      l.roster.blank = r.blank → l.Consistent → l.pending = none →
      l.completeWith solver weight = (l', .ok c) → c.Found →
      ∀ e s t, l'.roster.Owns e s → l'.roster.Owns e t → s ≠ t →
        ¬(l.roster.Owns e s ∧ l.roster.Owns e t) →
        s.flight.id ≠ t.flight.id ∧ (s.flight.Together t.flight → s.flight.Brush t.flight) := by
  constructor
  · intro s hs t ht
    have hs := onLine_of_mem_seats hn hs
    have ht := onLine_of_mem_seats hn ht
    have hc := Seat.conflicts_iff hs ht
    rw [Seat.conflicts_eq hs ht, Except.ok.injEq] at hc
    refine ⟨_, Seat.conflicts_eq hs ht, hc, ?_⟩
    have hb : s.flight.Brush t.flight → s.flight.Together t.flight := fun h => h.together
    rw [hc]
    tauto
  · intro l l' solver weight c hp hsolver hb hc hpending hfind hfound e s t hs ht hne hnew
    obtain ⟨hs, ht, hnot⟩ :=
      not_conflicts_of_load hload hp hsolver hb hc hpending hfind hfound hs ht hne hnew
    rw [Ne, Seat.conflicts_iff (onLine_of_mem_seats hn hs) (onLine_of_mem_seats hn ht), not_or, not_and,
      not_not] at hnot
    exact hnot

end Ledger

-- One employee, and two flights of which the second departs half a minute before the first arrives.
def Folder.brushing : Folder where
  path := Folder.smallest.path
  file? name :=
    if name = "flights.json" then some
      "\x7b\"flights\": [\x7b\"flight_number\": \"1\", \"departure_airport\": \"A\",
        \"arrival_airport\": \"A\", \"departure_utc\": \"2024-06-03T08:00\",
        \"arrival_utc\": \"2024-06-03T09:00:30\", \"required_skills\": [\"P\"]\x7d,
        \x7b\"flight_number\": \"2\", \"departure_airport\": \"A\",
        \"arrival_airport\": \"A\", \"departure_utc\": \"2024-06-03T09:00\",
        \"arrival_utc\": \"2024-06-03T10:00\", \"required_skills\": [\"P\"]\x7d]\x7d"
    else Folder.smallest.file? name

namespace Contents

def brushing : Contents :=
  let time (hours seconds : ℕ) : Instant := .ofDate smallest.first (.after hours 0 seconds)
  { smallest with legs := [⟨"1", "A", "A", time 8 0, time 9 30, "", "", ["P"]⟩,
      ⟨"2", "A", "A", time 9 0, time 10 0, "", "", ["P"]⟩] }

set_option maxRecDepth 10000 in
theorem spelledBy_brushing : brushing.SpelledBy .brushing :=
  spelledBy_smallest.withFlights (t := [("2024-06-03T08:00", "2024-06-03T09:00:30"),
      ("2024-06-03T09:00", "2024-06-03T10:00")])
    rfl (by decide +kernel) (by decide +kernel)

end Contents

namespace Ledger

theorem loads_brushing : ∃ scenario r s t e, loadInstance .brushing false = .ok (scenario, r) ∧
    r.Plain ∧ r.seats = [s, t] ∧ s.flight.id ≠ t.flight.id ∧ s.flight.Brush t.flight ∧
    r.employees.entries = [("E", e)] ∧ ∀ a ∈ r.assignments.values, a.owner = none ∧
      e.Qualified a.seat ∧ ∀ b ∈ r.assignments.values, a.seat ≠ b.seat →
        a.seat.conflicts b.seat = .ok false := by
  obtain ⟨scenario, r, hload, hp, ⟨s, -, t, -, hseats, hid, hb⟩, hemployees, hall⟩ :=
    Contents.spelledBy_brushing.exists_of_load
      (P := fun r => r.Plain ∧
        (∃ s ∈ r.seats, ∃ t ∈ r.seats, r.seats = [s, t] ∧ s.flight.id ≠ t.flight.id ∧
          s.flight.Brush t.flight) ∧
        r.employees.keys = ["E"] ∧
        ∀ a ∈ r.assignments.values, a.owner = none ∧ (∀ e ∈ r.employees.values, e.Qualified a.seat) ∧
          ∀ b ∈ r.assignments.values, a.seat ≠ b.seat → a.seat.conflicts b.seat = .ok false)
      (by decide +kernel)
  obtain ⟨⟨id, e⟩, he, rfl⟩ := List.map_eq_singleton_iff.1 hemployees
  refine ⟨scenario, r, s, t, e, hload, hp, hseats, hid, hb, he, fun a ha => ?_⟩
  obtain ⟨howner, hq, hconflicts⟩ := hall a ha
  exact ⟨howner, hq e (by simp [Registry.values, he]), hconflicts⟩

-- The one employee gets both seats.
theorem completes_brushing : ∃ scenario r s t l c, loadInstance .brushing false = .ok (scenario, r) ∧
    r.Plain ∧ r.seats = [s, t] ∧ s.flight.id ≠ t.flight.id ∧ s.flight.Brush t.flight ∧
    (∀ u ∈ r.seats, r.Open u) ∧ (Ledger.ofRoster r).completeWith .exhaustive 1 = (l, .ok c) ∧
    c.Found ∧ l.roster.Owns "E" s ∧ l.roster.Owns "E" t := by
  obtain ⟨scenario, r, s, t, e, hload, hp, hseats, hid, hb, hcrew, hall⟩ := loads_brushing
  obtain ⟨hc, htime⟩ := consistent_of_loadInstance hload hp
  have hopen : ∀ u ∈ r.seats, r.Open u := by
    intro u hu
    obtain ⟨k, ⟨u, owner⟩, hk, rfl⟩ := Roster.mem_seats.1 hu
    obtain rfl := (hall _ (Registry.mem_values.2 ⟨k, hk⟩)).1
    exact ⟨k, hk⟩
  have he : r.employees.get? "E" = some e := Registry.get?_eq_some.2 (by simp [hcrew])
  have hg : r.Completes fun _ => e :=
    hc.toWellFormed.completes_of_alone he (fun a ha => (hall a ha).1)
      (fun a ha => (hall a ha).2.1) fun a ha b hb hne => by simp [(hall a ha).2.2 b hb hne]
  have hdecided : Decided (.ofRoster r) 1 ((Ledger.ofRoster r).completeWith .exhaustive 1) :=
    decided_of_exact hc hp rfl htime Solver.exhaustive_exact
  obtain ⟨c, hfind, hfound⟩ := hdecided.found (hopen s (by simp [hseats])) hg
  obtain ⟨hanswered, hfilled, -⟩ := completed_of_sound hc hp rfl htime Solver.exhaustive_exact.sound
  have hfilled := hfilled c (hanswered.symm.trans hfind) hfound
  have howns : ∀ u ∈ r.seats, ((Ledger.ofRoster r).completeWith .exhaustive 1).1.roster.Owns "E" u := by
    intro u hu
    obtain ⟨e', he', -, howns⟩ := hfilled.filled u (hopen u hu)
    obtain ⟨e₀, he₀, -⟩ := Roster.exists_employee_of_blank_eq blank_completeWith he'
    have he₀ : (e'.id, e₀) ∈ r.employees.entries := Registry.get?_eq_some.1 he₀
    rw [hcrew, List.mem_singleton] at he₀
    exact (howns "E").2 (Prod.mk.inj he₀).1.symm
  exact ⟨scenario, r, s, t, _, c, hload, hp, hseats, hid, hb, hopen, Prod.ext rfl hfind, hfound,
    howns s (by simp [hseats]), howns t (by simp [hseats])⟩

-- Both flights are in the air for half a minute, and no conflict is seen.
theorem brushing_not_in_conflict : ∃ scenario r s t l c,
    loadInstance .brushing false = .ok (scenario, r) ∧ r.Naive ∧ s ∈ r.seats ∧ t ∈ r.seats ∧
    s.flight.Together t.flight ∧ s.conflicts t = .ok false ∧ r.Open s ∧ r.Open t ∧
    (Ledger.ofRoster r).completeWith .exhaustive 1 = (l, .ok c) ∧ c.Found ∧
    l.roster.Owns "E" s ∧ l.roster.Owns "E" t := by
  obtain ⟨scenario, r, s, t, l, c, hload, hp, hseats, hid, hb, hopen, hfind, hfound, hs, ht⟩ :=
    completes_brushing
  have hms : s ∈ r.seats := by simp [hseats]
  have hmt : t ∈ r.seats := by simp [hseats]
  refine ⟨scenario, r, s, t, l, c, hload, hp.naive, hms, hmt, hb.together, ?_, hopen s hms,
    hopen t hmt, hfind, hfound, hs, ht⟩
  have hnot := (Seat.conflicts_iff (onLine_of_mem_seats hp.naive hms)
    (onLine_of_mem_seats hp.naive hmt)).not.2 (by simp [hid, hb])
  rw [Seat.conflicts_eq (onLine_of_mem_seats hp.naive hms) (onLine_of_mem_seats hp.naive hmt)] at hnot ⊢
  simpa using hnot

-- The seats that the one employee gets are on flights that brush.
theorem conflicts_of_load_brushing : ∃ scenario r s t l c b,
    loadInstance .brushing false = .ok (scenario, r) ∧ r.Naive ∧ s ∈ r.seats ∧ t ∈ r.seats ∧
    s.conflicts t = .ok b ∧
    (b = true ↔ s.flight.id = t.flight.id ∨
      s.flight.Together t.flight ∧ ¬s.flight.Brush t.flight) ∧
    (Ledger.ofRoster r).completeWith .exhaustive 1 = (l, .ok c) ∧ c.Found ∧
    l.roster.Owns "E" s ∧ l.roster.Owns "E" t ∧ s.flight.id ≠ t.flight.id ∧
    s.flight.Brush t.flight := by
  obtain ⟨scenario, r, s, t, l, c, hload, hp, hseats, hid, hb, hopen, hfind, hfound, hs, ht⟩ :=
    completes_brushing
  have hms : s ∈ r.seats := by simp [hseats]
  have hmt : t ∈ r.seats := by simp [hseats]
  have hc := (consistent_of_loadInstance hload hp).1
  obtain ⟨hall, hcompleted⟩ := conflicts_of_load hload hp.naive
  obtain ⟨b, hb', hiff, -⟩ := hall s hms t hmt
  have hne : s ≠ t := fun he => hid (by rw [he])
  have hnew : ¬(r.Owns "E" s ∧ r.Owns "E" t) := fun h =>
    hc.not_open_of_owns h.1 (hopen s hms)
  obtain ⟨hid, hbrush⟩ := hcompleted hp Solver.exhaustive_exact.sound rfl hc rfl hfind hfound "E" s t hs
    ht hne hnew
  exact ⟨scenario, r, s, t, l, c, b, hload, hp.naive, hms, hmt, hb', hiff, hfind, hfound, hs, ht, hid,
    hbrush hb.together⟩

end Ledger
end CrewRoster
