import CrewRoster.Proofs.Neighbours
import CrewRoster.Proofs.Violations

namespace CrewRoster

theorem Date.next_eq_ok {day next : Date} (h : next.number = day.number + 1) : day.next = .ok next := by
  have hlt : day.number < 3652059 := by
    have := next.le_last
    omega
  obtain ⟨d, hd, hnumber⟩ := next_yields hlt
  rw [hd, ext (hnumber.trans h.symm)]

-- A point in time is told by its date and its clock.
theorem Instant.wall_eq (t : Instant) : t.wall = (t.date.number - 1) * Span.day + t.clock.micros := by
  rw [date, clock, Int.add_sub_cancel, mul_comm]
  exact (Int.mul_ediv_add_emod t.wall Span.day).symm

theorem Instant.wall_bounds (t : Instant) :
    (t.date.number - 1) * Span.day ≤ t.wall ∧ t.wall < t.date.number * Span.day := by
  have hwall := t.wall_eq
  have hclock := t.clock.nonneg
  have hlt := t.clock.lt_day
  rw [sub_mul, one_mul] at *
  omega

-- A point in time without seconds.
def Instant.OnMinute (t : Instant) : Prop := Span.minute ∣ t.wall

instance (t : Instant) : Decidable t.OnMinute := inferInstanceAs (Decidable (_ ∣ _))

namespace Roster

variable {r r' : Roster} {l : Ledger} {id : String} {day : Date} {d : Duty} {folder : Folder}
  {scenario : Scenario} {solved : Bool}

-- What is planned on the ground has times without zones.
def GroundsNaive (r : Roster) : Prop :=
  ∀ id day g, r.groundAt id day = some g → g.start.zone = none ∧ g.finish.zone = none

-- What is planned on the ground is planned for the day on which it starts.
def GroundsDated (r : Roster) : Prop := ∀ id day g, r.groundAt id day = some g → g.start.date = day

-- All times are without seconds, those of the flights and those of what is planned on the ground.
structure OnMinute (r : Roster) : Prop where
  flights : ∀ k a, r.assignments.get? k = some a →
    a.seat.flight.departure.OnMinute ∧ a.seat.flight.arrival.OnMinute
  grounds : ∀ id day g, r.groundAt id day = some g → g.start.OnMinute ∧ g.finish.OnMinute

theorem groundsDated_of_load (h : load folder scenario = .ok r) : r.GroundsDated := by
  obtain ⟨_, _, _, _, crew, employees, -, -, -, hcrew, -, -, hplaced, hbuild⟩ := load_eq_ok h
  intro id day g hg
  obtain ⟨d, hd, hground⟩ := Option.bind_eq_some_iff.1 hg
  obtain ⟨e, he, hday⟩ := dutyAt_eq_some.1 hd
  obtain ⟨e₀, hm, -, rfl⟩ := employee_of_build hbuild he
  obtain ⟨p, hp, hplace⟩ := (Result.mem_of_mapM hplaced).1 hm
  obtain ⟨_, -, hread⟩ := (Result.mem_of_mapM hcrew).1 hp
  obtain ⟨hempty, hgrounds⟩ := Employee.ofDocument_eq_ok hread
  rw [Employee.dutyOn_cover, Option.or_eq_some_iff] at hday
  rcases hday with hday | ⟨-, hfree⟩
  case inl =>
    rcases (Employee.placeAll_eq_ok hplace).2 day d hday with ⟨hd, hdate⟩ | hd
    · obtain ⟨g', rfl⟩ := hgrounds d hd
      obtain rfl := Option.some.inj hground
      exact hdate
    · exact absurd hd (by simp [Employee.dutyOn, hempty, Calendar.dutyOn, Calendar.empty])
  case inr =>
    split at hfree
    case isTrue =>
      obtain rfl := Option.some.inj hfree
      cases hground
    case isFalse => cases hfree

end Roster

namespace Ledger

variable {r : Roster} {l : Ledger} {folder : Folder} {scenario : Scenario} {solved : Bool}

theorem Remains.refl (hc : (ofRoster r).Consistent) (hp : r.Plain) : Remains r (ofRoster r) :=
  ⟨hc, hp, rfl, fun _ _ => rfl⟩

theorem Reassigned.remains (h : Reassigned (.ofRoster r) l)
    (hload : loadInstance folder solved = .ok (scenario, r)) (hp : r.Plain) : Remains r l :=
  h.kept (Remains.kept r) (.refl (consistent_of_loadInstance hload hp).1 hp)

end Ledger

theorem Roster.groundsDated_of_loadInstance {r : Roster} {folder : Folder} {scenario : Scenario}
    {solved : Bool} (h : loadInstance folder solved = .ok (scenario, r)) (hp : r.Plain) :
    r.GroundsDated := by
  obtain ⟨r₀, plan, l, n, hload, hl, rfl⟩ := exists_apply_of_loadInstance h
  have hp₀ : r₀.Plain := hp.of_blank_eq (Ledger.blank_of_apply hl)
  have hremains : Ledger.Remains r₀ ((Ledger.ofRoster r₀).apply plan).1 :=
    (Ledger.Remains.kept r₀).apply (.refl ((fresh_of_loadInstance hload).consistent hp₀) hp₀)
  rw [hl] at hremains
  exact fun id day g hg =>
    groundsDated_of_load (load_of_loadInstance hload) id day g (hremains.ground id day ▸ hg)

namespace Duty

variable {d x y : Duty} {e : Employee} {day : Date} {t start : Instant} {first last : Seat}

-- From start to end it takes a duty no longer than `s`.
def LastsUpTo (d : Duty) (s : Span) : Prop :=
  ∃ start ∈ d.start, ∃ finish ∈ d.finish, ∃ length, finish.minus start = .ok length ∧ length ≤ s

-- Between two duties the employee rests as long as the first one asks for.
def RestsBefore (x y : Duty) (e : Employee) : Prop :=
  ∃ start ∈ y.start, ∃ finish ∈ x.finish, ∃ required rest, x.minimumRest e = .ok (some required) ∧
    start.minus finish = .ok rest ∧ required ≤ rest

theorem RestsBefore.restLack_eq (h : x.RestsBefore y e) : x.restLack (some y) e = .ok 0 := by
  obtain ⟨start, hstart, finish, hfinish, required, rest, hrequired, hrest, hle⟩ := h
  rw [Option.mem_def] at hstart hfinish
  rw [restLack, Option.bind_some]
  split
  case h_1 => rfl
  case h_2 start' hcoded =>
    obtain rfl : start = start' := Option.some.inj (hstart.symm.trans
      (Option.ite_none_right_eq_some.1 hcoded).2)
    rw [hrequired, Result.ok_bind]
    simp only [hfinish, hrest, Result.ok_bind, if_pos hle]
    rfl

-- The crew signs in on the day of the duty, or in the last half hour of the day before.
theorem Runs.start_bounds (h : d.Runs t last) (hday : ∀ s ∈ d.seats, s.departureDate = day) :
    (day.number - 1) * Span.day - Flight.signIn ≤ t.wall ∧
      t.wall < day.number * Span.day - Flight.signIn := by
  obtain ⟨-, -, ⟨s, hs, hsign⟩, -⟩ := h.start
  obtain ⟨hle, hlt⟩ := s.flight.departure.wall_bounds
  have hdate : s.flight.departure.date = day := hday s hs
  rw [hdate] at hle hlt
  omega

section Rest

variable (h : d.Runs t last) (hlast : d.LastsUpTo (12 * Span.hour))
include h hlast

-- Half a day after its start at the latest the duty is over, and half a day later so is the rest.
theorem Runs.exists_rest (e : Employee) : ∃ u required, d.finish = some u ∧ u.zone = none ∧
    u.wall = last.flight.arrival.wall + Flight.signOff ∧ d.minimumRest e = .ok (some required) ∧
    u.wall ≤ t.wall + 12 * Span.hour ∧ required ≤ 12 * Span.hour := by
  obtain ⟨u, hfinish, hzone, hwall⟩ := h.finish
  obtain ⟨t', ht, u', hu, length, hlength, hle⟩ := hlast
  obtain rfl := Option.some.inj (h.start.1.symm.trans ht)
  obtain rfl := Option.some.inj (hfinish.symm.trans hu)
  rw [Instant.minus_of_naive hzone h.start.2.1] at hlength
  obtain rfl := Except.ok.inj hlength
  have hleast : (if last.flight.destination.same e.home then minRestAtHome else minRestAway) ≤
      12 * Span.hour := by
    split
    · exact le_rfl
    · decide
  refine ⟨u, _, hfinish, hzone, hwall, h.rest e, ?_, max_le (hwall ▸ hle) hleast⟩
  exact Int.le_add_of_sub_left_le hle

-- A duty of the day after next, or later still, starts when the rest is over.
theorem Runs.restsBefore (hday : ∀ s ∈ d.seats, s.departureDate = day) {day' : Date}
    (hlater : day.number + 2 ≤ day'.number) (hstart : y.start = some start) (hzone : start.zone = none)
    (hbound : (day'.number - 1) * Span.day - Flight.signIn ≤ start.wall) : d.RestsBefore y e := by
  obtain ⟨u, required, hfinish, hzone', -, hrequired, hover, hle⟩ := h.exists_rest hlast e
  obtain ⟨-, hlt⟩ := h.start_bounds hday
  refine ⟨start, hstart, u, hfinish, required, _, hrequired, Instant.minus_of_naive hzone hzone', ?_⟩
  simp only [Span.day, Span.hour, Span.minute, Span.second, Span] at *
  omega

-- What is no minute too short of rest is not short of rest, where there are only whole minutes.
theorem Runs.restsBefore_next (hnext : e.dayAfter d.date = .ok (some y))
    (hlack : d.restLack (some y) e = .ok 0) (hcode : y.hasCode = true) (hstart : y.start = some start)
    (hzone : start.zone = none) (hm : start.OnMinute) (ht : t.OnMinute)
    (harrival : last.flight.arrival.OnMinute) : d.RestsBefore y e := by
  obtain ⟨u, required, hfinish, hzone', hwall, hrequired, -⟩ := h.exists_rest hlast e
  have hrest := Instant.minus_of_naive hzone hzone'
  have hshort : d.ShortBy e (required - (start.wall - u.wall)) :=
    ⟨y, start, u, required, _, hnext, hcode, hstart, hfinish, hrequired, hrest, rfl⟩
  have hlt : ¬Span.minute ≤ required - (start.wall - u.wall) := fun hle =>
    lt_irrefl 0 ((restLack_pos_iff hnext hlack).2 ⟨_, hshort, hle⟩)
  have hu : Span.minute ∣ u.wall := hwall ▸ dvd_add harrival (by decide)
  have hwhole : Span.minute ∣ required := by
    obtain rfl := Option.some.inj (Except.ok.inj (hrequired.symm.trans (h.rest e)))
    rcases max_choice (last.flight.arrival.wall + Flight.signOff - t.wall)
      (if last.flight.destination.same e.home then minRestAtHome else minRestAway) with hmax | hmax
    · rw [hmax, ← hwall]
      exact dvd_sub hu ht
    · rw [hmax]
      split <;> decide
  refine ⟨start, hstart, u, hfinish, required, _, hrequired, hrest, not_lt.1 fun hgt => hlt ?_⟩
  exact Int.le_of_dvd (sub_pos.2 hgt) (dvd_sub hwhole (dvd_sub hm hu))

end Rest

end Duty

namespace Ledger.Remains

variable {r : Roster} {l : Ledger} {id : String} {day : Date} {d : Duty} {s : Seat} (h : Remains r l)
include h

theorem departureDate (hd : l.roster.dutyAt id day = some d) : ∀ s ∈ d.seats, s.departureDate = day :=
  fun _ hs => h.consistent.listing.departureDate_of_lists ⟨d, hd, hs⟩

theorem exists_runs (hd : l.roster.dutyAt id day = some d) (hs : d.seats ≠ []) :
    ∃ t last, last ∈ d.seats ∧ d.Runs t last := by
  have hplain : ∀ s ∈ d.seats, s.flight.Plain := fun s hm =>
    h.consistent.plain_of_lists h.plain ⟨d, hd, hm⟩
  obtain ⟨first, last, hfirst, hlast⟩ := Duty.exists_ends hs
  obtain ⟨t, hruns⟩ := Duty.exists_runs (h.consistent.current hd) (h.consistent.ordered hd) hplain hfirst
    hlast
  exact ⟨t, last, Duty.mem_of_last? hlast, hruns⟩

theorem onMinute (hm : r.OnMinute) (hs : l.roster.Lists id day s) :
    s.flight.departure.OnMinute ∧ s.flight.arrival.OnMinute := by
  obtain ⟨a, ha, rfl⟩ := h.consistent.known hs
  obtain ⟨a', ha', heq⟩ := Roster.exists_of_blank_eq h.blank ha
  exact heq ▸ hm.flights _ _ ha'

theorem onMinute_start {t : Instant} {last : Seat} (hm : r.OnMinute)
    (hd : l.roster.dutyAt id day = some d) (hruns : d.Runs t last) : t.OnMinute := by
  obtain ⟨-, -, ⟨s, hs, hsign⟩, -⟩ := hruns.start
  have hdeparture : Span.minute ∣ s.flight.departure.wall := (h.onMinute hm ⟨d, hd, hs⟩).1
  rw [Instant.OnMinute, ← hsign]
  exact dvd_sub hdeparture (by decide)

-- A duty with a code and without seats starts with what is planned on the ground.
theorem exists_ground (hd : l.roster.dutyAt id day = some d) (hs : d.seats = []) (hcode : d.hasCode = true) :
    ∃ g, r.groundAt id day = some g ∧ d.start = some g.start := by
  obtain ⟨hstart, -, -, hcoded⟩ := (h.consistent.current hd).idle hs
  obtain ⟨g, hg, -⟩ : ∃ g, d.ground = some g ∧ g.code.isSome := by
    rw [Duty.hasCode, hcoded, Option.isSome_bind, Option.any_eq_true] at hcode
    exact hcode
  refine ⟨g, ?_, by rw [hstart, hg, Option.map_some]⟩
  rw [← h.ground, Roster.groundAt, hd, Option.bind_some, hg]

-- A duty with a code starts on its day, or half an hour before at the earliest.
theorem exists_start (hnaive : r.GroundsNaive) (hdated : r.GroundsDated)
    (hd : l.roster.dutyAt id day = some d) (hcode : d.hasCode = true) :
    ∃ start, d.start = some start ∧ start.zone = none ∧
      (day.number - 1) * Span.day - Flight.signIn ≤ start.wall ∧ (r.OnMinute → start.OnMinute) := by
  by_cases hs : d.seats = []
  · obtain ⟨g, hg, hstart⟩ := h.exists_ground hd hs hcode
    have hle := (g.start.wall_bounds).1
    rw [hdated id day g hg] at hle
    refine ⟨g.start, hstart, (hnaive id day g hg).1, ?_, fun hm => (hm.grounds id day g hg).1⟩
    exact (Int.sub_le_self _ (by decide)).trans hle
  · obtain ⟨t, last, -, hruns⟩ := h.exists_runs hd hs
    exact ⟨t, hruns.start.1, hruns.start.2.1, (hruns.start_bounds (h.departureDate hd)).1,
      fun hm => h.onMinute_start hm hd hruns⟩

end Ledger.Remains

namespace Ledger.Reassigned

variable {r : Roster} {l : Ledger} {folder : Folder} {scenario : Scenario} {solved : Bool} {id : String}
  {e : Employee} {day : Date} {x : Duty}

-- However the owners in a roster that was loaded are changed, after a duty with flights that lasts twelve
-- hours at most
-- 1. the rest is over when a duty of the day after next, or later still, starts
-- 2. so if the duty of the next day leaves no lack of rest, no later one does
theorem rested_of_load (hload : loadInstance folder solved = .ok (scenario, r)) (hp : r.Plain)
    (hnaive : r.GroundsNaive) (hs : Reassigned (.ofRoster r) l) (he : l.roster.employees.get? id = some e)
    (hx : e.dutyOn day = some x) (hf : x.isFlightDuty = true) (hlast : x.LastsUpTo (12 * Span.hour)) :
    (∀ day' y, e.dutyOn day' = some y → day.number + 2 ≤ day'.number → y.hasCode = true →
      x.RestsBefore y e) ∧
    (r.OnMinute → (∀ next, e.dayAfter day = .ok next → x.restLack next e = .ok 0) →
      ∀ day' y, e.dutyOn day' = some y → day < day' → y.hasCode = true → x.RestsBefore y e) := by
  have h := hs.remains hload hp
  have hdated := Roster.groundsDated_of_loadInstance hload hp
  have hat : ∀ {day d}, e.dutyOn day = some d → l.roster.dutyAt id day = some d := fun hd =>
    Roster.dutyAt_eq_some.2 ⟨e, he, hd⟩
  obtain ⟨t, last, hm, hruns⟩ := h.exists_runs (hat hx) (by simpa [Duty.isFlightDuty] using hf)
  have hfar : ∀ day' y, e.dutyOn day' = some y → day.number + 2 ≤ day'.number → y.hasCode = true →
      x.RestsBefore y e := by
    intro day' y hy hlater hcode
    obtain ⟨start, hstart, hzone, hbound, -⟩ := h.exists_start hnaive hdated (hat hy) hcode
    exact hruns.restsBefore hlast (h.departureDate (hat hx)) hlater hstart hzone hbound
  refine ⟨hfar, fun hminute hlack day' y hy hlt hcode => ?_⟩
  by_cases hlater : day.number + 2 ≤ day'.number
  · exact hfar day' y hy hlater hcode
  · obtain ⟨start, hstart, hzone, -, hon⟩ := h.exists_start hnaive hdated (hat hy) hcode
    have hnext : e.dayAfter day = .ok (some y) := by
      have hnumber : day'.number = day.number + 1 := by
        rw [Date.lt_def] at hlt
        omega
      rw [Employee.dayAfter, Date.next_eq_ok hnumber, Result.ok_bind, hy]
      rfl
    have hdate : x.date = day := h.consistent.dated (hat hx)
    exact hruns.restsBefore_next hlast (hdate ▸ hnext) (hlack _ hnext) hcode hstart hzone (hon hminute)
      (h.onMinute_start hminute (hat hx) hruns) (h.onMinute hminute ⟨x, hat hx, hm⟩).2

end Ledger.Reassigned

namespace Ledger

variable {scenario : Scenario} {r : Roster}

-- The only thing to do on the ground is on Tuesday.
theorem ground_journey {id : String} {day : Date} {g : Ground}
    (hload : loadInstance .journey false = .ok (scenario, r)) (hg : r.groundAt id day = some g) :
    g = ⟨some (.text "GND"), .ofDate (.after 739040) (.after 8 0 0),
      .ofDate (.after 739040) (.after 16 0 0)⟩ := by
  obtain ⟨m, hm, a, ha, hground⟩ := Contents.exists_activity_of_load
    (Contents.spelledBy_journey.loadInstance_eq ▸ hload) hg
  obtain rfl := List.mem_singleton.1 hm
  obtain rfl := List.mem_singleton.1 ha
  exact (Option.some.inj hground).symm

theorem onMinute_journey (hload : loadInstance .journey false = .ok (scenario, r)) : r.OnMinute where
  flights k a ha := by
    obtain ⟨_, r', _, hload', -, hs, -⟩ := loads_journey
    obtain ⟨-, rfl⟩ := Prod.mk.inj (Except.ok.inj (hload.symm.trans hload'))
    have hmem := Registry.get?_eq_some.1 ha
    simp only [hs, List.mem_cons, Prod.mk.injEq, List.not_mem_nil, or_false] at hmem
    rcases hmem with ⟨-, rfl⟩ | ⟨-, rfl⟩ | ⟨-, rfl⟩ <;> exact ⟨by decide +kernel, by decide +kernel⟩
  grounds id day g hg := by
    obtain rfl := ground_journey hload hg
    exact ⟨by decide +kernel, by decide +kernel⟩

-- The employee flies on Monday and on Thursday. The duty of Monday ends in the evening.
theorem monday_journey : ∃ scenario r l e x, loadInstance .journey false = .ok (scenario, r) ∧ r.Plain ∧
    Reassigned (.ofRoster r) l ∧ Remains r l ∧ l.roster.employees.get? "E" = some e ∧
    (∀ day s, l.roster.Lists "E" day s ↔
      (s = Contents.monday.seat ∨ s = Contents.thursday.seat) ∧ day = s.departureDate) ∧
    l.roster.dutyAt "E" (.after 739039) = some x ∧ x.seats = [Contents.monday.seat] ∧
    x.start = some (.ofDate (.after 739039) (.after 7 30 0)) ∧
    x.finish = some (.ofDate (.after 739039) (.after 18 30 0)) := by
  obtain ⟨scenario, r, l, e, hload, hp, -, hre, hremains, hn, he, -, howns, -⟩ := travels_journey
  have hlists : ∀ day s, l.roster.Lists "E" day s ↔
      (s = Contents.monday.seat ∨ s = Contents.thursday.seat) ∧ day = s.departureDate := fun day s => by
    rw [hremains.consistent.listing.lists_iff hn, howns]
  obtain ⟨x, hx, -⟩ := (hlists (.after 739039) Contents.monday.seat).2 ⟨.inl rfl, by decide +kernel⟩
  have hseats : x.seats = [Contents.monday.seat] := hremains.consistent.seats_eq_singleton hx fun s => by
    rw [hlists]
    constructor
    · rintro ⟨rfl | rfl, hday⟩
      · rfl
      · exact absurd hday (by decide +kernel)
    · rintro rfl
      exact ⟨.inl rfl, by decide +kernel⟩
  obtain ⟨⟨t, ht, hstart⟩, ⟨u, hu, hfinish⟩, -⟩ := (hremains.consistent.current hx).flown
    Contents.monday.seat (by simp [Duty.first?, hseats]) Contents.monday.seat (by simp [Duty.last?, hseats])
  have hsignIn : Contents.monday.seat.flight.departure.plus (-Flight.signIn) =
      .ok (.ofDate (.after 739039) (.after 7 30 0)) := by decide +kernel
  have hsignOff : Contents.monday.seat.flight.arrival.plus Flight.signOff =
      .ok (.ofDate (.after 739039) (.after 18 30 0)) := by decide +kernel
  obtain rfl := Except.ok.inj (ht.symm.trans hsignIn)
  obtain rfl := Except.ok.inj (hu.symm.trans hsignOff)
  exact ⟨scenario, r, l, e, x, hload, hp, hre, hremains, he, hlists, hx, hseats, hstart, hfinish⟩

-- Between Monday evening and the work on the ground on Tuesday morning there is enough rest, and so there
-- is between Monday and Thursday.
theorem Reassigned.rested_of_load_journey : ∃ scenario r l e x y,
    loadInstance .journey false = .ok (scenario, r) ∧ r.Plain ∧ r.GroundsNaive ∧ r.OnMinute ∧
    Reassigned (.ofRoster r) l ∧ l.roster.employees.get? "E" = some e ∧
    e.dutyOn (.after 739039) = some x ∧ x.isFlightDuty = true ∧ x.LastsUpTo (12 * Span.hour) ∧
    (∀ next, e.dayAfter (.after 739039) = .ok next → x.restLack next e = .ok 0) ∧
    e.dutyOn (.after 739042) = some y ∧ y.hasCode = true ∧ x.RestsBefore y e := by
  obtain ⟨scenario, r, l, e, x, hload, hp, hre, hremains, he, hlists, hx, hseats, hstart, hfinish⟩ :=
    monday_journey
  have hnaive : r.GroundsNaive := fun id day g hg => ground_journey hload hg ▸ ⟨rfl, rfl⟩
  have hminute := onMinute_journey hload
  have hon : ∀ {day d}, l.roster.dutyAt "E" day = some d → e.dutyOn day = some d := fun hd => by
    rwa [Roster.dutyAt, he] at hd
  have hf : x.isFlightDuty = true := by simp [Duty.isFlightDuty, hseats]
  have hlast : x.LastsUpTo (12 * Span.hour) :=
    ⟨_, hstart, _, hfinish, 11 * Span.hour, by decide +kernel, by decide⟩
  have hlack : ∀ next, e.dayAfter (.after 739039) = .ok next → x.restLack next e = .ok 0 := by
    intro next hnext
    have hday : (Date.after 739039).next = .ok (.after 739040) := by decide +kernel
    rw [Employee.dayAfter, hday, Result.ok_bind, Result.pure_eq_ok] at hnext
    cases next with
    | none => rfl
    | some z =>
      have hz : l.roster.dutyAt "E" (.after 739040) = some z := Roster.dutyAt_eq_some.2 ⟨e, he, hnext⟩
      have hempty : z.seats = [] := List.eq_nil_iff_forall_not_mem.2 fun s hs => by
        obtain ⟨rfl | rfl, hday⟩ := (hlists _ s).1 ⟨z, hz, hs⟩
        · exact absurd hday (by decide +kernel)
        · exact absurd hday (by decide +kernel)
      by_cases hcode : z.hasCode = true
      case neg => simp [Duty.restLack, hcode]
      case pos =>
        obtain ⟨g, hg, hzstart⟩ := hremains.exists_ground hz hempty hcode
        obtain rfl := ground_journey hload hg
        obtain ⟨_, _, -, hruns⟩ := hremains.exists_runs hx (by simp [hseats])
        obtain ⟨u, required, hu, -, -, hrequired, -, hle⟩ := hruns.exists_rest hlast e
        obtain rfl := Option.some.inj (hfinish.symm.trans hu)
        have hrest : (Instant.ofDate (.after 739040) (.after 8 0 0)).minus
            (.ofDate (.after 739039) (.after 18 30 0)) = .ok (13 * Span.hour + 30 * Span.minute) := by
          decide +kernel
        exact Duty.RestsBefore.restLack_eq
          ⟨_, hzstart, _, hfinish, required, _, hrequired, hrest, hle.trans (by decide)⟩
  obtain ⟨y, hy, hs⟩ := (hlists (.after 739042) Contents.thursday.seat).2 ⟨.inr rfl, by decide +kernel⟩
  have hcode : y.hasCode = true := by
    obtain ⟨first, last, hfirst, hlast⟩ := Duty.exists_ends (List.ne_nil_of_mem hs)
    obtain ⟨-, -, -, hcode⟩ := (hremains.consistent.current hy).flown first hfirst last hlast
    simp [Duty.hasCode, hcode]
  obtain ⟨-, hall⟩ := rested_of_load hload hp hnaive hre he (hon hx) hf hlast
  exact ⟨scenario, r, l, e, x, y, hload, hp, hnaive, hminute, hre, he, hon hx, hf, hlast, hlack, hon hy,
    hcode, hall hminute hlack _ y (hon hy) (by decide) hcode⟩

end Ledger

end CrewRoster
