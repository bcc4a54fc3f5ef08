import CrewRoster.Proofs.DateText
import CrewRoster.Proofs.Loading
import CrewRoster.Proofs.Network

namespace CrewRoster

namespace Result

-- There is an answer if `P` holds, and the instance is refused otherwise.
structure Judges {α : Type} (x : Result α) (P : Prop) : Prop where
  accepts : P → ∃ a, x = .ok a
  rejects : ¬P → ∃ why, x = .error (.rejected why)

namespace Judges

variable {α β : Type} {x y : Result α} {f : α → Result β} {P Q : Prop}

theorem accepts_iff (h : Judges x P) : (∃ a, x = .ok a) ↔ P := by
  refine ⟨fun ⟨a, ha⟩ => by_contra fun hP => ?_, h.accepts⟩
  obtain ⟨why, hwhy⟩ := h.rejects hP
  cases ha.symm.trans hwhy

theorem congr (h : Judges x P) (hPQ : P ↔ Q) : Judges x Q :=
  ⟨fun hQ => h.accepts (hPQ.2 hQ), fun hQ => h.rejects fun hP => hQ (hPQ.1 hP)⟩

theorem ok {a : α} (hP : P) : Judges (.ok a) P :=
  ⟨fun _ => ⟨a, rfl⟩, fun h => absurd hP h⟩

theorem bind (hx : Judges x P) (hf : ∀ a, x = .ok a → Judges (f a) Q) : Judges (x >>= f) (P ∧ Q) := by
  by_cases hP : P
  · obtain ⟨a, rfl⟩ := hx.accepts hP
    exact (hf a rfl).congr (iff_and_self.2 fun _ => hP)
  · obtain ⟨why, rfl⟩ := hx.rejects hP
    exact ⟨fun h => absurd h.1 hP, fun _ => ⟨why, rfl⟩⟩

theorem ite {p : Prop} [Decidable p] (hx : p → ∃ why, x = .error (.rejected why))
    (hy : ¬p → Judges y Q) : Judges (if p then x else y) (¬p ∧ Q) := by
  split
  case isTrue hp => exact ⟨fun h => absurd hp h.1, fun _ => hx hp⟩
  case isFalse hp => exact (hy hp).congr (iff_and_self.2 fun _ => hp)

theorem forM {g : α → Result Unit} {R : α → Prop} {xs : List α} (h : ∀ a ∈ xs, Judges (g a) (R a)) :
    Judges (xs.forM g) (∀ a ∈ xs, R a) := by
  induction xs with
  | nil => exact ok (by simp)
  | cons a xs ih =>
    obtain ⟨ha, hxs⟩ := List.forall_mem_cons.1 h
    exact (bind ha fun _ _ => ih hxs).congr List.forall_mem_cons.symm

theorem forM_map {γ : Type} {g : β → Result Unit} {h : γ → β} {R : γ → Prop} {xs : List γ}
    (hx : ∀ a ∈ xs, Judges (g (h a)) (R a)) : Judges ((xs.map h).forM g) (∀ a ∈ xs, R a) := by
  change Judges (ForM.forM (xs.map h) g) _
  rw [List.forM_map]
  exact forM hx

theorem mapM {R : α → Prop} {xs : List α} (h : ∀ a ∈ xs, Judges (f a) (R a)) :
    Judges (xs.mapM f) (∀ a ∈ xs, R a) := by
  induction xs with
  | nil => exact ok (by simp)
  | cons a xs ih =>
    obtain ⟨ha, hxs⟩ := List.forall_mem_cons.1 h
    rw [List.mapM_cons]
    refine (bind ha fun b _ => (bind (ih hxs) fun bs _ => ok trivial)).congr ?_
    simp

end Judges

end Result

open Result (Judges)

namespace Contents

variable {c : Contents} {limits : DutyLimits} {place code : String}

def HasAirport (c : Contents) (code : String) : Prop := ∃ a ∈ c.airports, a.code = code

-- The times of flights and of activities on the ground are given without zones.
structure Naive (c : Contents) : Prop where
  legs : ∀ f ∈ c.legs, f.departure.zone = none ∧ f.arrival.zone = none
  grounds : ∀ m ∈ c.crew, ∀ g ∈ m.grounds, g.start.zone = none ∧ g.finish.zone = none

-- A positioning flight joins two airports that are listed, on some day of the week.
def Serves (c : Contents) (p : Positioning) : Prop :=
  (c.HasAirport p.origin ∧ c.HasAirport p.destination) ∧
    ∃ day ∈ p.days.toList, day ∈ ['1', '2', '3', '4', '5', '6', '7']

-- What an instance has to be for a roster to come of it:
-- 1. the period does not end before it begins
-- 2. there is a limit for duties, and none is for more than eleven legs
-- 3. transfers are between airports that are listed, and the last time that is given for two airports is
--    not below zero
-- 4. positioning flights are between airports that are listed, on some day of the week
-- 5. a flight number is used once a day
-- 6. flights are between airports that are listed and depart before they arrive, and the skills that they
--    ask for have names
-- 7. an id is one employee's, whose home is listed and who has a skill
-- 8. an activity on the ground has a code and does not end before it starts, and no two of one employee
--    start on one day
structure Acceptable (c : Contents) : Prop where
  period : c.first ≤ c.last
  limited : c.limits ≠ []
  byLegs : ∀ l ∈ c.limits, ∀ p ∈ l.byLegs, p.1 ≤ 11
  transfers : ∀ t ∈ c.transfers, c.HasAirport t.origin ∧ c.HasAirport t.destination
  minutes : ∀ t, Standing c.transfers t → 0 ≤ t.minutes
  positioning : ∀ p ∈ c.positioning, c.Serves p
  numbers : c.legs.Pairwise fun f g => ¬(f.number = g.number ∧ f.departure.date = g.departure.date)
  legs : ∀ f ∈ c.legs, (c.HasAirport f.origin ∧ c.HasAirport f.destination) ∧
    f.departure.wall < f.arrival.wall
  skills : ∀ f ∈ c.legs, ∀ skill ∈ f.skills, skill ≠ ""
  ids : (c.crew.map (·.id)).Nodup
  crew : ∀ m ∈ c.crew, c.HasAirport m.home ∧ m.skills ≠ []
  grounds : ∀ m ∈ c.crew, ∀ g ∈ m.grounds, g.code ≠ "" ∧ g.start.wall ≤ g.finish.wall
  starts : ∀ m ∈ c.crew, (m.grounds.map (·.start.date)).Nodup

section Network

theorem contains_iff :
    (c.reference limits).airports.contains (Document.key (.text code)) = true ↔ c.HasAirport code := by
  rw [reference, Reference.build, Reference.contains_airports]
  simp only [List.mem_map, exists_exists_and_eq_and, HasAirport, Airport.entry, Document.key,
    Document.text.injEq]

theorem sortLabels_codes : ∃ known,
    Document.sortLabels ((c.reference limits).airports.values.map (·.code)) = .ok known := by
  have htexts : ((c.reference limits).airports.values.map (·.code)).all Document.isText = true := by
    simp only [List.all_eq_true, List.mem_map, Registry.mem_values]
    rintro _ ⟨l, ⟨k, hk⟩, rfl⟩
    obtain ⟨a, ha, hcode⟩ := Reference.code_of_get? hk
    obtain ⟨b, -, rfl⟩ := List.mem_map.1 ha
    rw [hcode]
    rfl
  exact ⟨_, if_pos (by simp [htexts])⟩

theorem judges_checkAirport :
    Judges ((c.reference limits).checkAirport place (.text code)) (c.HasAirport code) := by
  obtain ⟨known, hknown⟩ :
      ∃ known, Document.sortLabels ((c.reference limits).airports.values.map (·.code)) = .ok known :=
    sortLabels_codes
  have hkey : Document.lookupKey (.text code) = .ok (Document.key (.text code)) := rfl
  simp only [Reference.checkAirport, hkey, Result.ok_bind, hknown]
  split
  case isTrue h => exact .ok (contains_iff.1 h)
  case isFalse h => exact ⟨fun h' => absurd (contains_iff.2 h') h, fun _ => ⟨_, rfl⟩⟩

theorem judges_checkTransfer {t : Transfer} : Judges ((c.reference limits).checkTransfer t.entry)
    ((c.HasAirport t.origin ∧ c.HasAirport t.destination) ∧ 0 ≤ t.minutes) := by
  rw [Reference.checkTransfer, and_assoc]
  refine judges_checkAirport.bind fun _ _ => judges_checkAirport.bind fun _ _ => ?_
  split
  case isTrue h => exact ⟨fun h' => absurd h (not_lt.2 h'), fun _ => ⟨_, rfl⟩⟩
  case isFalse h => exact .ok (not_lt.1 h)

-- Every transfer that was given has one in its place in the table.
theorem judges_table : Judges (c.table.forM (c.reference limits).checkTransfer)
    ((∀ t ∈ c.transfers, c.HasAirport t.origin ∧ c.HasAirport t.destination) ∧
      ∀ t, Standing c.transfers t → 0 ≤ t.minutes) := by
  obtain ⟨us, htable, -, hmem⟩ := exists_table c.transfers
  rw [table, htable]
  refine (Judges.forM_map fun t _ => judges_checkTransfer).congr ⟨fun h => ⟨fun t ht => ?_, ?_⟩, ?_⟩
  · obtain ⟨u, hu, hpair⟩ := exists_standing ht
    obtain ⟨ho, hd⟩ := Prod.ext_iff.1 hpair
    have hairports := (h u ((hmem u).2 hu)).1
    dsimp only [Transfer.pair] at ho hd
    rwa [ho, hd] at hairports
  · exact fun t ht => (h t ((hmem t).2 ht)).2
  · rintro ⟨hairports, hminutes⟩ t ht
    have hstanding := (hmem t).1 ht
    exact ⟨hairports t hstanding.mem, hminutes t hstanding⟩

theorem days_ne_nil {cs : List Char} : PositioningFlight.weekdaysOf cs ≠ [] ↔
    ∃ day ∈ cs, day ∈ ['1', '2', '3', '4', '5', '6', '7'] := by
  have hdigits : [1, 2, 3, 4, 5, 6, 7].map (fun day : ℕ => Char.ofNat ('0'.toNat + day)) =
      ['1', '2', '3', '4', '5', '6', '7'] := by decide
  rw [← hdigits, PositioningFlight.weekdaysOf, ne_eq, List.filter_eq_nil_iff]
  simp only [List.contains_iff_mem, not_forall, not_not, List.mem_map]
  constructor
  · rintro ⟨day, hday, hmem⟩
    exact ⟨_, hmem, day, hday, rfl⟩
  · rintro ⟨_, hmem, day, hday, rfl⟩
    exact ⟨day, hday, hmem⟩

-- The flights of a route have its airports in common.
theorem judges_checkRoute {p : Positioning} {ps : List Positioning}
    (hp : ∀ q ∈ p :: ps, q.origin = p.origin ∧ q.destination = p.destination) :
    Judges ((c.reference limits).checkRoute ((p :: ps).map (·.flight)))
      (∀ q ∈ p :: ps, c.Serves q) := by
  refine (judges_checkAirport.bind fun _ _ => judges_checkAirport.bind fun _ _ =>
    Judges.ite (fun _ => ⟨_, rfl⟩) fun _ => .ok trivial).congr ?_
  have hdays : ¬((p :: ps).map (·.flight)).any (·.weekdays.isEmpty) = true ↔
      ∀ q ∈ p :: ps, ∃ day ∈ q.days.toList, day ∈ ['1', '2', '3', '4', '5', '6', '7'] := by
    simp only [List.any_map, List.any_eq_true, not_exists, not_and, Function.comp_apply,
      List.isEmpty_iff, ← ne_eq, Positioning.flight, days_ne_nil]
  rw [and_true, ← and_assoc]
  refine (and_congr_right' hdays).trans ⟨fun ⟨ha, hd⟩ q hq => ?_, fun h => ⟨(h p (by simp)).1, ?_⟩⟩
  · obtain ⟨ho, he⟩ := hp q hq
    exact ⟨by rwa [ho, he], hd q hq⟩
  · exact fun q hq => (h q hq).2

theorem judges_routes : Judges
    ((c.reference limits).positioning.values.forM (c.reference limits).checkRoute)
    (∀ p ∈ c.positioning, c.Serves p) := by
  have hmem : ∀ {q : Positioning} {route}, q ∈ c.positioning →
      (q.flight ∈ Reference.between (c.positioning.map (·.flight)) route ↔
        (Document.text q.origin, Document.text q.destination) = route) := fun hq => by
    rw [Reference.between, List.mem_filter, decide_eq_true_iff]
    exact and_iff_right (List.mem_map_of_mem hq)
  have hroute : ∀ fs ∈ (c.reference limits).positioning.values,
      Judges ((c.reference limits).checkRoute fs)
        (∀ q ∈ c.positioning, q.flight ∈ fs → c.Serves q) := by
    intro fs hfs
    obtain ⟨route, rfl, hne⟩ := Reference.mem_positioning.1 hfs
    obtain ⟨ps, hps⟩ : ∃ ps, ps = c.positioning.filter fun q =>
      (Document.text q.origin, Document.text q.destination) = route := ⟨_, rfl⟩
    have hflights : Reference.between (c.positioning.map (·.flight)) route = ps.map (·.flight) := by
      rw [hps, Reference.between, List.filter_map]
      rfl
    have hin : ∀ {q}, q ∈ ps ↔ q ∈ c.positioning ∧
        (Document.text q.origin, Document.text q.destination) = route := fun {q} => by
      rw [hps, List.mem_filter, decide_eq_true_iff]
    cases ps with
    | nil => exact absurd hflights hne
    | cons p ps =>
      have hcommon : ∀ q ∈ p :: ps, q.origin = p.origin ∧ q.destination = p.destination := by
        intro q hq
        simpa using (hin.1 hq).2.trans (hin.1 List.mem_cons_self).2.symm
      rw [hflights]
      refine (judges_checkRoute hcommon).congr ⟨fun h q hq hf => ?_, fun h q hq => ?_⟩
      · rw [← hflights, hmem hq] at hf
        exact h q (hin.2 ⟨hq, hf⟩)
      · exact h q (hin.1 hq).1 (List.mem_map_of_mem hq)
  refine (Judges.forM hroute).congr ⟨fun h q hq => ?_, fun h _ _ q hq _ => h q hq⟩
  have hf := (hmem hq).2 rfl
  exact h _ (Reference.mem_positioning.2 ⟨_, rfl, List.ne_nil_of_mem hf⟩) q hq hf

theorem judges_fill {slots : List (Option Span)} {entries : List (Int × Span)} :
    Judges (DutyLimit.fill slots entries) (∀ p ∈ entries, p.1 ≤ 11) := by
  induction entries generalizing slots with
  | nil => exact .ok (by simp)
  | cons p entries ih =>
    obtain ⟨legs, limit⟩ := p
    refine (Judges.ite (fun _ => ⟨_, rfl⟩) fun _ => ih).congr ?_
    rw [List.forall_mem_cons]
    refine and_congr_left' ?_
    -- twelve legs and more have no slot
    rw [DutyLimit.slots, DutyLimit.slot]
    split <;> omega

theorem judges_rule {l : Limit} : Judges l.rule (∀ p ∈ l.byLegs, p.1 ≤ 11) := by
  refine (judges_fill.bind fun _ _ => .ok trivial).congr ?_
  rw [and_true]
  constructor
  · rintro h ⟨legs, limit⟩ hp
    obtain ⟨limit', h'⟩ := Registry.exists_get?_ofList hp
    exact h (legs, limit') (Registry.get?_eq_some.1 h')
  · rintro h ⟨legs, limit⟩ hp
    exact h _ (Registry.mem_of_get?_ofList (Registry.get?_eq_some.2 hp))

theorem judges_reference (hl : limits.isEmpty = c.limits.isEmpty) :
    Judges ((c.reference limits).check c.table) (c.limits ≠ [] ∧
      ((∀ t ∈ c.transfers, c.HasAirport t.origin ∧ c.HasAirport t.destination) ∧
        ∀ t, Standing c.transfers t → 0 ≤ t.minutes) ∧ ∀ p ∈ c.positioning, c.Serves p) := by
  rw [Reference.check]
  refine (Judges.ite (fun _ => ⟨_, rfl⟩) fun _ =>
    judges_table.bind fun _ _ => judges_routes).congr (and_congr_left' ?_)
  rw [reference, Reference.build, hl, List.isEmpty_iff]

end Network

section Legs

theorem judges_flight {f : Leg} (hd : f.departure.zone = none) (ha : f.arrival.zone = none) :
    Judges (f.flight.check (c.reference limits))
      ((c.HasAirport f.origin ∧ c.HasAirport f.destination) ∧ f.departure.wall < f.arrival.wall) := by
  have hline : f.arrival.comparable f.departure = true := by simp [Instant.comparable, hd, ha]
  rw [Flight.check, and_assoc]
  refine judges_checkAirport.bind fun _ _ => judges_checkAirport.bind fun _ _ => ?_
  have hle : f.flight.arrival.le? f.flight.departure =
      .ok (decide (f.arrival.wall ≤ f.departure.wall)) := by
    rw [Leg.flight, Instant.le?_of_comparable hline, Instant.position_of_plain hd,
      Instant.position_of_plain ha]
  rw [hle, Result.ok_bind]
  refine (Judges.ite (fun _ => ⟨_, rfl⟩) fun _ => .ok trivial).congr ?_
  simp

theorem judges_seats : Judges (c.seats.forM fun s =>
      if !s.skill.isPresent then .error (.rejected (.seatWithoutSkill s.id)) else .ok () : Result Unit)
    (∀ f ∈ c.legs, ∀ skill ∈ f.skills, skill ≠ "") := by
  refine (Judges.forM fun s _ => Judges.ite (fun _ => ⟨_, rfl⟩) fun _ => .ok trivial).congr ?_
  have hskills : ∀ f : Leg, (∀ s ∈ f.seats, ¬(!s.skill.isPresent) = true) ↔
      ∀ skill ∈ f.skills, skill ≠ "" := by
    intro f
    have hmap : f.seats.map (·.skill) = f.skills.map .text := by
      rw [Leg.seats, Seat.ofSkills, List.map_map]
      exact List.zipIdx_map_fst 0 _
    have hall : (∀ s ∈ f.seats, ¬(!s.skill.isPresent) = true) ↔
        ∀ l ∈ f.seats.map (·.skill), ¬(!l.isPresent) = true := by simp
    rw [hall, hmap]
    simp [Document.isPresent]
  simp only [seats, List.forall_mem_flatMap, and_true, hskills]

theorem judges_flights (hn : c.Naive) : Judges (checkFlights (c.reference limits) c.flights c.seats)
    ((c.legs.Pairwise fun f g => ¬(f.number = g.number ∧ f.departure.date = g.departure.date)) ∧
      (∀ f ∈ c.legs, (c.HasAirport f.origin ∧ c.HasAirport f.destination) ∧
        f.departure.wall < f.arrival.wall) ∧
      ∀ f ∈ c.legs, ∀ skill ∈ f.skills, skill ≠ "") := by
  have hlegs : Judges (c.flights.forM (Flight.check (c.reference limits))) (∀ f ∈ c.legs,
      (c.HasAirport f.origin ∧ c.HasAirport f.destination) ∧ f.departure.wall < f.arrival.wall) :=
    Judges.forM_map fun f hf => judges_flight (hn.legs f hf).1 (hn.legs f hf).2
  rw [checkFlights]
  refine (Judges.ite (fun _ => ⟨_, rfl⟩) fun _ => hlegs.bind fun _ _ => judges_seats).congr
    (and_congr_left' ?_)
  rw [not_not, Lists.length_eraseDups_eq_iff, List.Nodup, List.pairwise_map, flights, List.pairwise_map]
  simp only [Flight.id_eq_iff, ne_eq]
  rfl

end Legs

section Crew

theorem labels_eq_nil {xs : List String} : labels xs = [] ↔ xs = [] := by
  -- once there is a label, there is one to the end
  have hkept : ∀ (ls kept : List Label), kept ≠ [] →
      ls.foldl (fun kept l => if kept.any l.sameKey then kept else kept ++ [l]) kept ≠ [] := by
    intro ls
    induction ls with
    | nil => exact fun _ h => h
    | cons l ls ih =>
      intro kept h
      rw [List.foldl_cons]
      apply ih
      split <;> simp [h]
  cases xs with
  | nil => exact iff_of_true rfl rfl
  | cons x xs => exact iff_of_false (hkept _ [.text x] (by simp)) (by simp)

theorem judges_member {m : Member} : Judges (m.employee.check (c.reference limits))
    (c.HasAirport m.home ∧ m.skills ≠ []) := by
  rw [Employee.check]
  refine judges_checkAirport.bind fun _ _ => ?_
  refine (Judges.ite (fun _ => ⟨_, rfl⟩) fun _ => .ok trivial).congr ?_
  rw [and_true, Member.employee, List.isEmpty_iff, labels_eq_nil]

theorem judges_employees : Judges
    (checkEmployees (c.reference limits) (c.crew.map (·.employee)))
    ((c.crew.map (·.id)).Nodup ∧ ∀ m ∈ c.crew, c.HasAirport m.home ∧ m.skills ≠ []) := by
  have hcrew : Judges ((c.crew.map (·.employee)).forM (Employee.check (c.reference limits)))
      (∀ m ∈ c.crew, c.HasAirport m.home ∧ m.skills ≠ []) := Judges.forM_map fun m _ => judges_member
  rw [checkEmployees]
  refine (Judges.ite (fun _ => ⟨_, rfl⟩) fun _ => hcrew).congr (and_congr_left' ?_)
  rw [not_not, Lists.length_eraseDups_eq_iff, List.map_map]
  rfl

theorem judges_activity {g : Activity} (employee : String) (hs : g.start.zone = none)
    (hf : g.finish.zone = none) : Judges (g.duty employee).checkGround
    (g.code ≠ "" ∧ g.start.wall ≤ g.finish.wall) := by
  have hline : g.finish.comparable g.start = true := by simp [Instant.comparable, hs, hf]
  have hlt : g.finish.lt? g.start = .ok (decide (g.finish.wall < g.start.wall)) := by
    rw [Instant.lt?_of_comparable hline, Instant.position_of_plain hf, Instant.position_of_plain hs]
  have hends : Judges (if decide (g.finish.wall < g.start.wall) then .error (.rejected
      (.groundEndsFirst (Document.text g.code).display (g.duty employee).id)) else .ok () : Result Unit)
      (g.start.wall ≤ g.finish.wall) :=
    (Judges.ite (fun _ => ⟨_, rfl⟩) fun _ => .ok trivial).congr (by simp)
  have hcheck : (g.duty employee).checkGround = (do
      if !(Document.text g.code).isPresent then
        .error (.rejected (.groundWithoutCode (g.duty employee).id))
      if ← g.finish.lt? g.start then
        .error (.rejected (.groundEndsFirst (Document.text g.code).display (g.duty employee).id))) := rfl
  rw [hcheck, hlt, Result.ok_bind]
  refine (Judges.ite (fun _ => ⟨_, rfl⟩) fun _ => hends).congr (and_congr_left' ?_)
  simp [Document.isPresent]

-- The activities of an employee are entered if no two of them start on one day.
theorem judges_place {e : Employee} {ds : List Duty} (hid : ∀ d ∈ ds, d.employee = e.id)
    (hcode : ∀ d ∈ ds, d.hasCode = true) (he : ∀ day d, e.dutyOn day = some d → d.hasCode = true) :
    Judges (e.placeAll ds) ((ds.map (·.date)).Nodup ∧ ∀ d ∈ ds, e.dutyOn d.date = none) := by
  induction ds generalizing e with
  | nil => exact .ok (by simp)
  | cons d ds ih =>
    obtain ⟨hd, hds⟩ := List.forall_mem_cons.1 hid
    obtain ⟨hd', hds'⟩ := List.forall_mem_cons.1 hcode
    have hput : ∀ day a, (e.put d).dutyOn day = some a → a.hasCode = true := by
      intro day a ha
      rw [Employee.dutyOn_put] at ha
      split at ha
      case isTrue => exact Option.some.inj ha ▸ hd'
      case isFalse => exact he day a ha
    have hplace : Judges (e.place d) (e.dutyOn d.date = none) := by
      rw [Employee.place, if_neg (not_not.2 hd)]
      cases hon : e.dutyOn d.date with
      | none => exact .ok rfl
      | some old =>
        refine ⟨fun h => absurd h (Option.some_ne_none old), fun _ => ⟨_, if_pos ?_⟩⟩
        rw [he _ old hon, Bool.or_true]
    rw [Employee.placeAll, List.foldlM_cons]
    refine (hplace.bind fun e' he' => ?_ : Judges _ (_ ∧ ((ds.map (·.date)).Nodup ∧
      ∀ a ∈ ds, (e.put d).dutyOn a.date = none))).congr ?_
    · obtain ⟨-, rfl, -⟩ := Employee.place_eq_ok he'
      exact ih hds hds' hput
    · have hother : ∀ a : Duty, (e.put d).dutyOn a.date = none ↔ a.date ≠ d.date ∧ e.dutyOn a.date = none := by
        intro a
        rw [Employee.dutyOn_put]
        split
        case isTrue h => simp [h]
        case isFalse h => simp [h]
      simp only [hother, List.map_cons, List.nodup_cons, List.forall_mem_cons, List.mem_map, not_exists,
        not_and, forall_and]
      tauto

theorem judges_activities (hn : c.Naive) : Judges
    ((c.crew.flatMap (·.duties)).forM Duty.checkGround)
    (∀ m ∈ c.crew, ∀ g ∈ m.grounds, g.code ≠ "" ∧ g.start.wall ≤ g.finish.wall) := by
  have hduties : c.crew.flatMap (·.duties) =
      (c.crew.flatMap fun m => m.grounds.map fun g => (m.id, g)).map fun p => p.2.duty p.1 := by
    simp [List.map_flatMap, Member.duties, Function.comp_def]
  rw [hduties]
  refine (Judges.forM_map fun p hp => judges_activity p.1 ?_ ?_).congr ?_
  · obtain ⟨m, hm, hp⟩ := List.mem_flatMap.1 hp
    obtain ⟨g, hg, rfl⟩ := List.mem_map.1 hp
    exact (hn.grounds m hm g hg).1
  · obtain ⟨m, hm, hp⟩ := List.mem_flatMap.1 hp
    obtain ⟨g, hg, rfl⟩ := List.mem_map.1 hp
    exact (hn.grounds m hm g hg).2
  · simp only [List.forall_mem_flatMap, List.forall_mem_map]

theorem judges_placeAll {m : Member} :
    Judges (m.employee.placeAll m.duties) (m.grounds.map (·.start.date)).Nodup := by
  have hduty : ∀ d ∈ m.duties, ∃ g : Activity, g.duty m.id = d := fun d hd => by
    obtain ⟨g, -, hg⟩ := List.mem_map.1 hd
    exact ⟨g, hg⟩
  refine (judges_place ?_ ?_ ?_).congr ?_
  · rintro d hd
    obtain ⟨g, rfl⟩ := hduty d hd
    rfl
  · rintro d hd
    obtain ⟨g, rfl⟩ := hduty d hd
    rfl
  · rintro day d ⟨⟩
  · rw [Member.duties, List.map_map]
    exact and_iff_left fun d _ => rfl

end Crew

variable {folder : Folder}

theorem judges_build {reference : Reference} {employees : List Employee}
    (hend : c.last.number < 3652059) : Judges (do
      return (c.scenario, ← Roster.build c.first c.last reference c.flights c.seats employees)) True := by
  have hhorizon : Employee.checkHorizon c.first c.last = .ok () := by
    have hnext : 1 ≤ c.last.number + 1 ∧ c.last.number + 1 ≤ 3652059 := by
      have := c.last.one_le
      omega
    rw [Employee.checkHorizon]
    split
    · simp [Date.next, Date.plus, Date.ofNumber?, hnext, Except.map]
    · rfl
  rw [Roster.build, hhorizon]
  split <;> exact .ok trivial

-- What an instance says is accepted if it is acceptable, and refused otherwise.
theorem judges_load (hn : c.Naive) (hend : c.last.number < 3652059) : Judges c.load c.Acceptable := by
  have hempty : ∀ limits, c.limits.mapM (·.rule) = .ok limits →
      limits.isEmpty = c.limits.isEmpty := by
    intro limits h
    have := (Result.mapM_eq_ok.1 h).length_eq
    rw [Bool.eq_iff_iff, List.isEmpty_iff_length_eq_zero, List.isEmpty_iff_length_eq_zero, this]
  rw [load]
  refine (Judges.ite (fun _ => ⟨_, rfl⟩) fun _ =>
    (Judges.mapM fun l _ => judges_rule).bind fun limits h =>
    (judges_reference (hempty limits h)).bind fun _ _ =>
    (judges_flights hn).bind fun _ _ =>
    judges_employees.bind fun _ _ =>
    (judges_activities hn).bind fun _ _ =>
    (Judges.mapM fun m _ => judges_placeAll).bind fun employees _ =>
    judges_build hend).congr ?_
  constructor
  · rintro ⟨hperiod, hbyLegs, ⟨hlimited, ⟨htransfers, hminutes⟩, hpositioning⟩,
      ⟨hnumbers, hlegs, hskills⟩, ⟨hids, hcrew⟩, hgrounds, hstarts, -⟩
    exact ⟨Int.not_lt.1 hperiod, hlimited, hbyLegs, htransfers, hminutes, hpositioning, hnumbers, hlegs,
      hskills, hids, hcrew, hgrounds, hstarts⟩
  · rintro ⟨hperiod, hlimited, hbyLegs, htransfers, hminutes, hpositioning, hnumbers, hlegs, hskills, hids,
      hcrew, hgrounds, hstarts⟩
    exact ⟨Int.not_lt.2 hperiod, hbyLegs, ⟨hlimited, ⟨htransfers, hminutes⟩, hpositioning⟩,
      ⟨hnumbers, hlegs, hskills⟩, ⟨hids, hcrew⟩, hgrounds, hstarts, trivial⟩

-- A folder with files of the usual shape is loaded if what they say is acceptable, and otherwise refused
-- with a sentence.
theorem loadInstance_iff (h : c.SpelledBy folder) (hn : c.Naive) (hend : c.last.number < 3652059) :
    ((∃ p, loadInstance folder false = .ok p) ↔ c.Acceptable) ∧
      (¬c.Acceptable → ∃ why, loadInstance folder false = .error (.rejected why)) := by
  have hjudges := judges_load hn hend
  rw [← h.loadInstance_eq] at hjudges
  exact ⟨hjudges.accepts_iff, hjudges.rejects⟩

end Contents

-- An instance in which a transfer is given twice, the first time with a time below zero.
def Folder.varied : Folder where
  path := .ofText "varied"
  file?
    | "scenario.json" => some
      "\x7b\"schedule_first_date\": \"2024-06-03\", \"schedule_last_date\": \"2024-06-04\"\x7d"
    | "airports.json" => some
      "\x7b\"airports\": [\x7b\"code\": \"A\"\x7d, \x7b\"code\": \"B\"\x7d], \"taxi_minutes\": [
        \x7b\"from\": \"A\", \"to\": \"B\", \"minutes\": -5\x7d,
        \x7b\"from\": \"A\", \"to\": \"B\", \"minutes\": 40\x7d], \"repositioning_flights\": [
        \x7b\"departure_airport\": \"B\", \"arrival_airport\": \"A\", \"departure_utc_time\": \"12:00\",
          \"arrival_utc_time\": \"13:00\", \"days_of_week\": \"37\"\x7d]\x7d"
    | "max_fdp.json" => some
      "\x7b\"rules\": [\x7b\"start\": \"00:00\", \"end\": \"23:00\",
        \"max_fdp_by_segments\": \x7b\"2\": 780, \"11\": 540\x7d\x7d]\x7d"
    | "flights.json" => some
      "\x7b\"flights\": [\x7b\"flight_number\": \"1\", \"departure_airport\": \"A\",
        \"arrival_airport\": \"B\", \"departure_utc\": \"2024-06-03T08:00\",
        \"arrival_utc\": \"2024-06-03T09:00\", \"required_skills\": [\"P\"]\x7d]\x7d"
    | "employees.json" => some
      "\x7b\"employees\": [\x7b\"employee_id\": \"E\", \"home_airport\": \"A\", \"skills\": [\"P\"],
        \"ground_duties\": [\x7b\"code\": \"GND\", \"start\": \"2024-06-04T08:00\",
          \"end\": \"2024-06-04T16:00\"\x7d]\x7d]\x7d"
    | _ => none

def Contents.varied : Contents :=
  let monday := Date.after 739039
  let tuesday := Date.after 739040
  { first := monday
    last := tuesday
    offsetHours := .ofRat 2
    maxTaxi := 240
    groundCode := "GND"
    airports := [⟨"A", "", .zero, .zero⟩, ⟨"B", "", .zero, .zero⟩]
    transfers := [⟨"A", "B", -5⟩, ⟨"A", "B", 40⟩]
    positioning := [⟨"B", "A", .after 12 0 0, .after 13 0 0, "37"⟩]
    limits := [⟨.after 0 0 0, .after 23 0 0, [(2, 13 * Span.hour), (11, 9 * Span.hour)]⟩]
    legs := [⟨"1", "A", "B", .ofDate monday (.after 8 0 0), .ofDate monday (.after 9 0 0),
      "", "", ["P"]⟩]
    crew := [⟨"E", "E", "A", ["P"], [], [], [],
      [⟨"GND", .ofDate tuesday (.after 8 0 0), .ofDate tuesday (.after 16 0 0)⟩]⟩] }

namespace Contents

set_option maxRecDepth 10000 in
theorem spelledBy_varied : varied.SpelledBy .varied := by
  constructor
  case scenario =>
    refine ⟨.object [("schedule_first_date", .text "2024-06-03"),
      ("schedule_last_date", .text "2024-06-04")], Folder.document_of_file rfl (by decide +kernel), ?_⟩
    exact ⟨⟨_, rfl, by decide +kernel⟩, ⟨_, rfl, by decide +kernel⟩, ⟨_, rfl, by decide +kernel⟩, rfl, rfl⟩
  case network =>
    refine ⟨.object [("airports", .array [.object [("code", .text "A")], .object [("code", .text "B")]]),
      ("taxi_minutes", .array [
        .object [("from", .text "A"), ("to", .text "B"), ("minutes", .whole (-5))],
        .object [("from", .text "A"), ("to", .text "B"), ("minutes", .whole 40)]]),
      ("repositioning_flights", .array [.object [("departure_airport", .text "B"),
        ("arrival_airport", .text "A"), ("departure_utc_time", .text "12:00"),
        ("arrival_utc_time", .text "13:00"), ("days_of_week", .text "37")]])],
      Folder.document_of_file rfl (by decide +kernel), ?_⟩
    constructor
    case airports =>
      exact ⟨[_, _], rfl, .cons ⟨rfl, rfl, ⟨_, rfl, rfl⟩, ⟨_, rfl, rfl⟩⟩
        (.cons ⟨rfl, rfl, ⟨_, rfl, rfl⟩, ⟨_, rfl, rfl⟩⟩ .nil)⟩
    case transfers => exact ⟨[_, _], rfl, .cons ⟨rfl, rfl, rfl⟩ (.cons ⟨rfl, rfl, rfl⟩ .nil)⟩
    case positioning =>
      exact ⟨[_], rfl, .cons ⟨rfl, rfl, ⟨_, rfl, by decide +kernel⟩, ⟨_, rfl, by decide +kernel⟩, rfl⟩ .nil⟩
  case limits =>
    refine ⟨.object [("rules", .array [.object [("start", .text "00:00"), ("end", .text "23:00"),
      ("max_fdp_by_segments", .object [("2", .whole 780), ("11", .whole 540)])]])],
      Folder.document_of_file rfl (by decide +kernel), [_], rfl,
      .cons ⟨⟨_, rfl, by decide +kernel⟩, ⟨_, rfl, by decide +kernel⟩,
        ⟨_, rfl, .cons ⟨by decide +kernel, by decide +kernel⟩
          (.cons ⟨by decide +kernel, by decide +kernel⟩ .nil)⟩⟩ .nil⟩
  case legs =>
    exact ⟨.object [("flights", .array (List.zipWith Leg.document _ _))],
      Folder.document_of_file rfl (by decide +kernel), _, rfl,
      spelledBy_documents (t := [("2024-06-03T08:00", "2024-06-03T09:00")]) (by decide +kernel)⟩
  case crew =>
    refine ⟨.object [("employees", .array [.object [("employee_id", .text "E"),
      ("home_airport", .text "A"), ("skills", .array [.text "P"]),
      ("ground_duties", .array [.object [("code", .text "GND"), ("start", .text "2024-06-04T08:00"),
        ("end", .text "2024-06-04T16:00")]])]])],
      Folder.document_of_file rfl (by decide +kernel), [_], rfl,
      .cons ⟨rfl, rfl, rfl, rfl, rfl, rfl, ⟨[], rfl, .nil⟩, ⟨[_], rfl,
        .cons ⟨rfl, ⟨_, rfl, by decide +kernel⟩, ⟨_, rfl, by decide +kernel⟩⟩ .nil⟩⟩ .nil⟩

theorem acceptable_varied : varied.Acceptable := by
  have hA : varied.HasAirport "A" := ⟨_, .head _, rfl⟩
  have hB : varied.HasAirport "B" := ⟨_, .tail _ (.head _), rfl⟩
  constructor
  case period => decide +kernel
  case limited => simp [varied]
  case byLegs =>
    intro l hl
    obtain rfl := List.mem_singleton.1 hl
    decide
  case transfers =>
    rintro t (_ | ⟨_, _ | ⟨_, ⟨⟩⟩⟩) <;> exact ⟨hA, hB⟩
  case minutes =>
    -- the time below zero is replaced
    intro t ht
    have ht : Standing ([⟨"A", "B", -5⟩] ++ [⟨"A", "B", 40⟩]) t := ht
    rcases standing_append.1 ht with rfl | ⟨ht, hne⟩
    · decide
    · obtain rfl := List.mem_singleton.1 ht.mem
      exact absurd rfl hne
  case positioning =>
    intro p hp
    obtain rfl := List.mem_singleton.1 hp
    exact ⟨⟨hB, hA⟩, '3', by decide +kernel, by decide⟩
  case numbers => simp [varied]
  case legs =>
    intro f hf
    obtain rfl := List.mem_singleton.1 hf
    exact ⟨⟨hA, hB⟩, by decide +kernel⟩
  case skills => simp [varied]
  case ids => simp [varied]
  case crew =>
    intro m hm
    obtain rfl := List.mem_singleton.1 hm
    exact ⟨hA, by simp⟩
  case grounds =>
    intro m hm g hg
    obtain rfl := List.mem_singleton.1 hm
    obtain rfl := List.mem_singleton.1 hg
    exact ⟨by decide, by decide +kernel⟩
  case starts => simp [varied]

theorem naive_varied : varied.Naive := ⟨by decide +kernel, by decide +kernel⟩

theorem loadInstance_iff_varied : varied.SpelledBy .varied ∧ varied.Naive ∧
    varied.last.number < 3652059 ∧ varied.Acceptable ∧
    ∃ p, loadInstance .varied false = .ok p := by
  have hend : varied.last.number < 3652059 := by decide +kernel
  exact ⟨spelledBy_varied, naive_varied, hend, acceptable_varied,
    (loadInstance_iff spelledBy_varied naive_varied hend).1.2 acceptable_varied⟩

end Contents
end CrewRoster
