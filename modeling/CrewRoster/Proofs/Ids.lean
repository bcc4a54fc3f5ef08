import CrewRoster.Proofs.DateText
import CrewRoster.Proofs.Loading

namespace CrewRoster

variable {f g : Flight} {i j : ℕ} {folder : Folder} {scenario : Scenario} {r r' : Roster}

theorem Lists.append_cons_inj_of_not_mem {α : Type} {a : α} {ws xs ys zs : List α} (hy : a ∉ ys)
    (hz : a ∉ zs) (h : ws ++ a :: ys = xs ++ a :: zs) : ws = xs ∧ ys = zs := by
  -- where one front is longer than the other, what it has more ends in a mark that the other back holds
  rcases List.append_eq_append_iff.1 h with ⟨more, rfl, hback⟩ | ⟨more, rfl, hback⟩
  all_goals
    cases more with
    | nil => simpa [eq_comm] using hback
    | cons b more =>
      obtain ⟨-, rfl⟩ := List.cons.inj hback
      simp at hy hz

namespace Seat

theorem toList_idFor : (idFor f i).toList = f.id.toList ++ '#' :: Nat.toDigits 10 i := by
  simp [idFor, String.toList_append]

-- A flight number may hold the mark too, but no digit is one: it is the last mark that counts.
theorem idFor_eq_iff : idFor f i = idFor g j ↔
    (f.number = g.number ∧ f.departureDate = g.departureDate) ∧ i = j := by
  rw [← Flight.id_eq_iff]
  constructor
  · intro h
    have hlist := congrArg String.toList h
    rw [toList_idFor, toList_idFor] at hlist
    have hmark : ∀ n, '#' ∉ Nat.toDigits 10 n := fun n hn =>
      absurd (Nat.isDigit_of_mem_toDigits (by decide) (by decide) hn) (by decide)
    obtain ⟨hid, hdigits⟩ := Lists.append_cons_inj_of_not_mem (hmark i) (hmark j) hlist
    refine ⟨String.toList_injective hid, ?_⟩
    rw [← Nat.ofDigitChars_ten_toDigits (n := i), hdigits, Nat.ofDigitChars_ten_toDigits]
  · rintro ⟨hid, rfl⟩
    rw [idFor, idFor, hid]

theorem nodup_ids_ofSkills (skills : List Label) : ((ofSkills f skills).map (·.id)).Nodup := by
  have hids : (ofSkills f skills).map (·.id) = (skills.zipIdx.map Prod.snd).map (idFor f) := by
    rw [ofSkills, List.map_map, List.map_map]
    rfl
  rw [hids, List.zipIdx_map_snd]
  exact List.Nodup.map (fun i j h => (idFor_eq_iff.1 h).2) List.nodup_range'

-- The seats of different flights have different ids, and so have the seats of one flight.
theorem nodup_ids {legs : List (Flight × List Label)} (h : (legs.map (·.1.id)).Nodup) :
    ((legs.flatMap fun p => ofSkills p.1 p.2).map (·.id)).Nodup := by
  rw [List.map_flatMap, List.nodup_flatMap]
  refine ⟨fun p _ => nodup_ids_ofSkills p.2, (List.pairwise_map.1 h).imp fun {p q} hne => ?_⟩
  intro id hp hq
  obtain ⟨s, hs, rfl⟩ := List.mem_map.1 hp
  obtain ⟨t, ht, hid⟩ := List.mem_map.1 hq
  obtain ⟨i, _, -, rfl⟩ := mem_ofSkills hs
  obtain ⟨j, _, -, rfl⟩ := mem_ofSkills ht
  exact hne (Flight.id_eq_iff.2 (idFor_eq_iff.1 hid).1).symm

end Seat

theorem checkEmployees_eq_ok {reference : Reference} {employees : List Employee}
    (h : checkEmployees reference employees = .ok ()) : (employees.map (·.id)).Nodup := by
  unfold checkEmployees at h
  dsimp only at h
  split at h
  case isTrue => cases h
  case isFalse hids => exact Lists.nodup_of_length_eraseDups (not_not.1 hids)

-- What the records of an instance say: the flights with the skills that they ask for, and the crew.
def Folder.Legs (folder : Folder) (legs : List (Flight × List Label)) : Prop :=
  ∃ ds, folder.Records "flights.json" "flights" ds ∧
    List.Forall₂ (fun d p => Flight.ReadFrom d p.1 p.2) ds legs

def Folder.Crew (folder : Folder) (crew : List Employee) : Prop :=
  ∃ ds, folder.Records "employees.json" "employees" ds ∧
    List.Forall₂ (fun d e => ∃ grounds, Employee.ofDocument d = .ok (e, grounds)) ds crew

namespace Roster

-- Nothing that was read is lost in the registries, and nothing replaced:
-- 1. a flight for each record
-- 2. a seat for each skill that a flight asks for
-- 3. an employee for each record, but for what came to the calendar
structure Registers (r : Roster) (legs : List (Flight × List Label)) (crew : List Employee) : Prop where
  flights : r.flights.entries = legs.map fun (f, _) => (f.id, f)
  seats : r.assignments.entries.map (fun (id, a) => (id, a.seat)) =
    legs.flatMap fun (f, skills) => skills.zipIdx.map fun (skill, i) =>
      (Seat.idFor f i, ⟨Seat.idFor f i, f, skill, i⟩)
  employees : r.employees.entries.map (fun (id, e) => (id, { e with calendar := .empty })) =
    crew.map fun e => (e.id, e)

theorem Registers.of_blank_eq {legs : List (Flight × List Label)} {crew : List Employee}
    (h : r.Registers legs crew) (hb : r.blank = r'.blank) : r'.Registers legs crew where
  flights := by
    have := congrArg (fun r : Roster => r.flights) hb
    exact (congrArg Registry.entries this).symm.trans h.flights
  seats := by
    have := congrArg (fun r : Roster => r.assignments.entries.map fun (id, a) => (id, a.seat)) hb
    simp only [blank, Registry.mapValues, List.map_map] at this
    exact this.symm.trans h.seats
  employees := by
    have := congrArg (fun r : Roster => r.employees.entries) hb
    exact this.symm.trans h.employees

theorem exists_legs {ds : List Document} {flights : List (Flight × List Seat)}
    (h : ds.mapM Flight.withSeats = .ok flights) : ∃ legs : List (Flight × List Label),
      List.Forall₂ (fun d p => Flight.ReadFrom d p.1 p.2) ds legs ∧
        flights = legs.map fun (f, skills) => (f, Seat.ofSkills f skills) := by
  have hall := Result.mapM_eq_ok.1 h
  clear h
  induction hall with
  | nil => exact ⟨[], .nil, rfl⟩
  | @cons d p ds flights hd _ ih =>
    obtain ⟨legs, hread, rfl⟩ := ih
    obtain ⟨skills, hskills, hseats⟩ := Flight.withSeats_eq_ok hd
    exact ⟨(p.1, skills) :: legs, .cons hskills hread, congrArg (· :: _) (Prod.ext rfl hseats)⟩

-- Ground duties change the calendars only.
theorem same_of_placed {crew : List (Employee × List Duty)} {employees : List Employee}
    (h : crew.mapM (fun p => p.1.placeAll p.2) = .ok employees)
    (hempty : ∀ p ∈ crew, p.1.calendar = .empty) :
    employees.map (fun e => { e with calendar := .empty }) = crew.map (·.1) := by
  have hsame : List.Forall₂ (fun p e => { e with calendar := .empty } =
      { p.1 with calendar := Calendar.empty }) crew employees :=
    (Result.mapM_eq_ok.1 h).imp fun p e hp => (Employee.placeAll_eq_ok hp).1
  have hmap : crew.map (fun p => { p.1 with calendar := .empty }) = crew.map (·.1) :=
    List.map_congr_left fun p hp => by rw [← hempty p hp]
  rw [← hmap, ← List.forall₂_eq_eq_eq, List.forall₂_map_left_iff, List.forall₂_map_right_iff]
  exact hsame.flip

theorem registers_of_load (h : load folder scenario = .ok r) :
    ∃ legs crew, folder.Legs legs ∧ folder.Crew crew ∧ r.Registers legs crew := by
  obtain ⟨reference, ds, flights, records, crew, employees, hds, hflights, hrecords, hcrew, hchecked,
    hchecked', hplaced, hbuild⟩ := load_eq_ok h
  obtain ⟨legs, hlegs, rfl⟩ := exists_legs hflights
  obtain ⟨hf, ha, he, -⟩ := build_eq_ok hbuild
  have hids : (legs.map (·.1.id)).Nodup := by
    simpa only [List.map_map, Function.comp_def] using (checkFlights_eq_ok hchecked).1
  have hempty : ∀ p ∈ crew, p.1.calendar = .empty := fun p hp => by
    obtain ⟨d, -, hd⟩ := (Result.mem_of_mapM hcrew).1 hp
    exact (Employee.ofDocument_eq_ok hd).1
  have hsame := same_of_placed hplaced hempty
  have hcrewIds : (employees.map (·.id)).Nodup := by
    have : employees.map (·.id) = (crew.map (·.1)).map (·.id) := by
      rw [← hsame, List.map_map]
      rfl
    exact this ▸ checkEmployees_eq_ok hchecked'
  refine ⟨legs, crew.map (·.1), ⟨ds, hds, hlegs⟩, ⟨records, hrecords, ?_⟩, ?flights, ?seats, ?employees⟩
  · rw [List.forall₂_map_right_iff]
    exact (Result.mapM_eq_ok.1 hcrew).imp fun d p hp => ⟨p.2, hp⟩
  case flights =>
    rw [hf, Registry.entries_ofList]
    · simp only [List.map_map, Function.comp_def]
    · simpa only [List.map_map, Function.comp_def] using hids
  case seats =>
    rw [ha, Registry.entries_ofList]
    · simp only [List.map_map, Function.comp_def, List.flatMap_map, List.map_flatMap, Seat.ofSkills]
    · simpa only [List.map_map, Function.comp_def, List.flatMap_map] using Seat.nodup_ids hids
  case employees =>
    have hentries : (Registry.ofList (employees.map fun e => (e.id, e))).entries =
        employees.map fun e => (e.id, e) :=
      Registry.entries_ofList (by simpa only [List.map_map, Function.comp_def] using hcrewIds)
    rw [he, Registry.entries_mapValues, hentries, ← hsame]
    simp only [List.map_map, Function.comp_def, Employee.cover]

-- Ids tell flights by number and day, and seats by flight and place; so nothing that an instance says is
-- lost, with or without its solution, and no two seats of one day have the same place in the order of seats.
theorem registers_of_loadInstance {solved : Bool} (h : loadInstance folder solved = .ok (scenario, r)) :
    (∀ f g i j, Seat.idFor f i = Seat.idFor g j ↔
      (f.number = g.number ∧ f.departureDate = g.departureDate) ∧ i = j) ∧
    (∃ legs crew, folder.Legs legs ∧ folder.Crew crew ∧ r.Registers legs crew) ∧
    ∀ j k a b, r.assignments.get? j = some a → r.assignments.get? k = some b → j ≠ k →
      a.seat.departureDate = b.seat.departureDate → a.seat.key ≠ b.seat.key := by
  obtain ⟨r₀, plan, l, n, hload, hl, rfl⟩ := exists_apply_of_loadInstance h
  have hb : l.roster.blank = r₀.blank := Ledger.blank_of_apply hl
  have hfresh := fresh_of_loadInstance hload
  refine ⟨fun f g i j => Seat.idFor_eq_iff, ?_, fun j k a b ha hb' hne hdate hkey => ?_⟩
  · simp only [loadInstance, Result.bind_eq_ok] at hload
    obtain ⟨_, -, _, -, r', hr, hload⟩ := hload
    cases hload
    obtain ⟨legs, crew, hlegs, hcrew, hr⟩ := registers_of_load hr
    exact ⟨legs, crew, hlegs, hcrew, hr.of_blank_eq hb.symm⟩
  · obtain ⟨a₀, ha₀, hsa⟩ := exists_of_blank_eq hb ha
    obtain ⟨b₀, hb₀, hsb⟩ := exists_of_blank_eq hb hb'
    simp only [Seat.key, Seat.Key.mk.injEq] at hkey
    obtain ⟨-, hnumber, hindex⟩ := hkey
    rw [← hsa, ← hsb] at hdate hnumber hindex
    have hseat := hfresh.seat_eq ha₀ hb₀ hnumber hdate hindex
    exact hne ((hfresh.seatId ha₀).symm.trans ((congrArg Seat.id hseat).trans (hfresh.seatId hb₀)))

end Roster

-- The id of a seat of the first flight is the flight number of the second.
def Folder.lookalike : Folder :=
  .withFlights .smallest
    "\x7b\"flights\": [\x7b\"flight_number\": \"1\", \"departure_airport\": \"A\",
      \"arrival_airport\": \"A\", \"departure_utc\": \"2024-06-03T08:00\",
      \"arrival_utc\": \"2024-06-03T09:00\", \"required_skills\": [\"P\", \"Q\"]\x7d,
      \x7b\"flight_number\": \"1@2024-06-03#0\", \"departure_airport\": \"A\",
      \"arrival_airport\": \"A\", \"departure_utc\": \"2024-06-03T08:00\",
      \"arrival_utc\": \"2024-06-03T09:00\", \"required_skills\": [\"P\"]\x7d]\x7d"

def Contents.lookalike : Contents :=
  let time (hours : ℕ) : Instant := .ofDate smallest.first (.after hours 0 0)
  { smallest with legs := [⟨"1", "A", "A", time 8, time 9, "", "", ["P", "Q"]⟩,
      ⟨"1@2024-06-03#0", "A", "A", time 8, time 9, "", "", ["P"]⟩] }

set_option maxRecDepth 10000 in
theorem Contents.spelledBy_lookalike : lookalike.SpelledBy .lookalike :=
  spelledBy_smallest.withFlights (t := [("2024-06-03T08:00", "2024-06-03T09:00"),
      ("2024-06-03T08:00", "2024-06-03T09:00")])
    rfl (by decide +kernel) (by decide +kernel)

-- Three seats are registered, and the first seats of both flights are told apart.
theorem Roster.registers_of_loadInstance_lookalike : ∃ scenario r legs crew a b,
    loadInstance .lookalike false = .ok (scenario, r) ∧ Folder.lookalike.Legs legs ∧
    Folder.lookalike.Crew crew ∧ r.Registers legs crew ∧
    r.assignments.keys = ["1@2024-06-03#0", "1@2024-06-03#1", "1@2024-06-03#0@2024-06-03#0"] ∧
    r.assignments.get? "1@2024-06-03#0" = some a ∧
    r.assignments.get? "1@2024-06-03#0@2024-06-03#0" = some b ∧
    a.seat.departureDate = b.seat.departureDate ∧ a.seat.key ≠ b.seat.key := by
  obtain ⟨scenario, r, hload, hkeys, hdates⟩ := Contents.spelledBy_lookalike.exists_of_load
    (P := fun r => r.assignments.keys =
      ["1@2024-06-03#0", "1@2024-06-03#1", "1@2024-06-03#0@2024-06-03#0"] ∧
      ∀ a ∈ r.assignments.values, a.seat.departureDate = Contents.smallest.first)
    (by decide +kernel)
  obtain ⟨-, ⟨legs, crew, hlegs, hcrew, hr⟩, hdistinct⟩ := registers_of_loadInstance hload
  have hfound : ∀ k ∈ r.assignments.keys, ∃ a, r.assignments.get? k = some a ∧
      a.seat.departureDate = Contents.smallest.first := by
    intro k hk
    obtain ⟨⟨_, a⟩, ha, rfl⟩ := List.mem_map.1 hk
    have ha := Registry.get?_eq_some.2 ha
    exact ⟨a, ha, hdates a (Registry.mem_values.2 ⟨_, ha⟩)⟩
  obtain ⟨a, ha, hda⟩ := hfound "1@2024-06-03#0" (by simp [hkeys])
  obtain ⟨b, hb, hdb⟩ := hfound "1@2024-06-03#0@2024-06-03#0" (by simp [hkeys])
  exact ⟨scenario, r, legs, crew, a, b, hload, hlegs, hcrew, hr, hkeys, ha, hb, hda.trans hdb.symm,
    hdistinct _ _ a b ha hb (by decide) (hda.trans hdb.symm)⟩

end CrewRoster
