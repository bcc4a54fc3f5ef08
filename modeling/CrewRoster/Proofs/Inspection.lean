import CrewRoster.Command
import CrewRoster.Proofs.Repositioning

namespace CrewRoster

variable {folder : Folder} {scenario : Scenario} {r : Roster} {t : Transcript}

-- Without a solution an instance is the same whether one is asked for or not.
theorem loadInstance_of_unsolved (hsolution : folder.file? "solution.json" = none)
    (h : loadInstance folder false = .ok (scenario, r)) : loadInstance folder true = .ok (scenario, r) := by
  simp only [loadInstance, Result.bind_eq_ok] at h ⊢
  obtain ⟨d, hd, s, hs, r', hr, h⟩ := h
  refine ⟨d, hd, s, hs, r', hr, ?_⟩
  rw [Ledger.Plan.load, hsolution]
  exact h

-- A value that is replaced is taken out of a sum over all of them.
theorem Registry.sum_values_insert {κ α : Type} [DecidableEq κ] {r : Registry κ α} {k : κ} {a : α}
    (f : α → ℕ) : ((r.insert k a).values.map f).sum + ((r.get? k).map f).getD 0 =
      (r.values.map f).sum + f a := by
  unfold insert
  split
  case isTrue h =>
    obtain ⟨b, hb⟩ := contains_iff.1 h
    obtain ⟨l₁, l₂, he, h₁, h₂⟩ := exists_split hb
    have hkept : ∀ {l : List (κ × α)}, (∀ e ∈ l, e.1 ≠ k) →
        (l.map fun e => if e.1 = k then (e.1, a) else e) = l := fun h =>
      (List.map_congr_left fun e hm => if_neg (h e hm)).trans (List.map_id' _)
    simp only [modify, values, he, hb, List.map_append, List.map_cons, hkept h₁, hkept h₂, if_pos,
      List.sum_append, List.sum_cons, Option.map_some, Option.getD_some]
    omega
  case isFalse h =>
    have hk : r.get? k = none := by simpa [contains] using h
    simp [values, hk]

namespace Command

-- What is counted of some labels: each label as often as it comes, and so all of them.
structure Counts (labels : List Label) (counts : Registry Label (Label × ℕ)) : Prop where
  each : ∀ l : Label, ((counts.get? l.key).map (·.2)).getD 0 = labels.countP (·.sameKey l)
  all : (counts.values.map (·.2)).sum = labels.length

-- One more label is counted with those that are equal to it.
theorem Counts.append {labels : List Label} {counts : Registry Label (Label × ℕ)} {l : Label}
    (h : Counts labels counts) : Counts (labels ++ [l])
      (counts.insert l.key
        (((counts.get? l.key).getD (l, 0)).1, ((counts.get? l.key).getD (l, 0)).2 + 1)) := by
  have hcount : ((counts.get? l.key).getD (l, 0)).2 = ((counts.get? l.key).map (·.2)).getD 0 := by
    cases counts.get? l.key <;> rfl
  constructor
  case each =>
    intro l'
    rw [Registry.get?_insert, List.countP_append, List.countP_singleton, ← h.each l', Document.sameKey]
    by_cases hk : l'.key = l.key
    · simp [hk, hcount]
    · simp [hk, Ne.symm hk]
  case all =>
    have hsum := Registry.sum_values_insert (r := counts) (k := l.key)
      (a := (((counts.get? l.key).getD (l, 0)).1, ((counts.get? l.key).getD (l, 0)).2 + 1)) (·.2)
    rw [h.all, ← hcount] at hsum
    rw [List.length_append, List.length_singleton]
    omega

theorem counts_countLabels {labels : List Label} (h : ∀ l ∈ labels, l.isScalar = true) :
    ∃ counts, countLabels labels = .ok counts ∧ Counts labels counts := by
  unfold countLabels
  induction labels using List.reverseRecOn with
  | nil => exact ⟨.empty, rfl, fun _ => rfl, rfl⟩
  | append_singleton labels l ih =>
    obtain ⟨hlabels, hl⟩ := List.forall_mem_append.1 h
    obtain ⟨counts, hcounts, hc⟩ := ih hlabels
    have hl : l.lookupKey = .ok l.key := Document.lookupKey_of_isScalar (hl l List.mem_cons_self)
    refine ⟨_, ?_, hc.append (l := l)⟩
    rw [List.foldlM_append, hcounts, Result.ok_bind, List.foldlM_cons, hl]
    rfl

-- What an inspection counts of the seats of a roster:
-- 1. the open ones
-- 2. those that ask for each skill
-- 3. those that the employees have, which with the open ones are all of them
structure Tallies (r : Roster) (unfilled : List Assignment) (skills : Registry Label (Label × ℕ)) : Prop where
  vacant : unfilled.length = r.assignments.values.countP (·.owner.isNone)
  skills : Counts (r.assignments.values.map (·.seat.skill)) skills
  seats : ((Report.employeesOf r).map (·.calendar.seatCount)).sum + unfilled.length = r.assignments.size

-- The lines of an inspection up to the count of flights by day.
def opening (scenario : Scenario) (r : Roster) (unfilled : List Assignment)
    (skills : Registry Label (Label × ℕ)) : List String := [
  s!"Schedule: {scenario.first.text} .. {scenario.last.text}",
  s!"Airports: {r.reference.airports.size}",
  s!"Flights: {r.flights.size}",
  s!"Seats: {r.assignments.size} ({unfilled.length} unassigned)",
  "Seats by skill: " ++ countsText skills]

-- The lines from there on, where there are no flights.
def closing (r : Roster) (homes : Registry Label (Label × ℕ)) : List String :=
  ["Flights by day: " ++ "\x7b\x7d", s!"Employees: {r.employees.size}",
    "Employees by home airport: " ++ countsText homes] ++
  (Report.employeesOf r).map fun e => employeeLine e (Gap.along r.reference e.seats)

theorem employeeLines_eq {es : List Employee} (h : ∀ e ∈ es, ∀ s ∈ e.seats, s.flight.Charted) :
    employeeLines r t es =
      (es.map fun e => employeeLine e (Gap.along r.reference e.seats)).foldl Transcript.print t := by
  induction es generalizing t with
  | nil => rfl
  | cons e es ih =>
    obtain ⟨he, hes⟩ := List.forall_mem_cons.1 h
    rw [employeeLines, Employee.gaps_eq he]
    exact ih hes

section Load

variable (hload : loadInstance folder true = .ok (scenario, r)) (hn : r.Naive)
  (hskills : ∀ s ∈ r.seats, s.skill.isScalar = true)
include hload hn hskills

theorem exists_tallies : ∃ unfilled skills, r.unassigned = .ok unfilled ∧
    countLabels (r.assignments.values.map (·.seat.skill)) = .ok skills ∧ Tallies r unfilled skills := by
  have hlisting := listing_of_loadInstance hload hn
  have hw : r.WellFormed := hlisting.toWellFormed
  obtain ⟨unfilled, hunfilled, hperm, -⟩ := Roster.unassigned_eq hw (timetable_of_loadInstance hload hn)
  have hscalar : ∀ l ∈ r.assignments.values.map (·.seat.skill), l.isScalar = true := by
    intro l hl
    obtain ⟨a, ha, rfl⟩ := List.mem_map.1 hl
    exact hskills _ (List.mem_map_of_mem ha)
  obtain ⟨skills, hcounted, hcounts⟩ := counts_countLabels hscalar
  refine ⟨unfilled, skills, hunfilled, hcounted, ?_⟩
  have hvacant : unfilled.length = r.assignments.values.countP (·.owner.isNone) := by
    rw [hperm.length_eq, List.countP_eq_length_filter]
  constructor
  case vacant => exact hvacant
  case skills => exact hcounts
  case seats =>
    have hsum : ((Report.employeesOf r).map (·.calendar.seatCount)).sum =
        r.assignments.values.countP (·.owner.isSome) :=
      ((List.mergeSort_perm _ _).map _).sum_eq.trans (hlisting.sum_seatCount hn rfl)
    have hsize : r.assignments.size = r.assignments.values.length := (List.length_map _).symm
    have hopen : r.assignments.values.countP (fun a => decide ¬a.owner.isSome) =
        r.assignments.values.countP (·.owner.isNone) := List.countP_congr fun a _ => by simp
    rw [hsum, hvacant, hsize, List.length_eq_countP_add_countP (·.owner.isSome), hopen]

end Load

section Run

variable {unfilled : List Assignment} {skills : Registry Label (Label × ℕ)}
  (hload : loadInstance folder true = .ok (scenario, r)) (hunfilled : r.unassigned = .ok unfilled)
  (hcounted : countLabels (r.assignments.values.map (·.seat.skill)) = .ok skills)
include hload hunfilled hcounted

-- It is ids, not flights, that are asked for their days.
theorem inspection_of_flights (h : 0 < r.flights.size) : inspection folder =
    { (opening scenario r unfilled skills).foldl Transcript.print .empty with fault := some .noMember } := by
  have hdays : flightsByDay r = .error .noMember := by
    rw [flightsByDay, if_neg]
    simpa [Registry.size, List.length_pos_iff] using h
  simp only [inspection, hload, Transcript.orStop, hunfilled, hcounted, hdays, opening, List.foldl_cons,
    List.foldl_nil]

theorem inspection_of_no_flights {homes : Registry Label (Label × ℕ)}
    (hhomes : countLabels (r.employees.values.map (·.home)) = .ok homes)
    (hcharted : ∀ e ∈ Report.employeesOf r, ∀ s ∈ e.seats, s.flight.Charted) (h : r.flights.size = 0) :
    inspection folder =
      (opening scenario r unfilled skills ++ closing r homes).foldl Transcript.print .empty := by
  have hdays : flightsByDay r = .ok "\x7b\x7d" := by
    rw [flightsByDay, List.length_eq_zero_iff.1 h]
    rfl
  simp only [inspection, hload, Transcript.orStop, hunfilled, hcounted, hdays, hhomes,
    employeeLines_eq hcharted, opening, closing, List.foldl_append, List.foldl_cons, List.foldl_nil]

end Run

-- Whatever loads, if its flights have times without zones and its skills can be looked up, the seats are
-- counted without contradiction, and the inspection comes to the count of flights by day. It goes on from
-- there, to its end, only if there are no flights.
theorem inspection_of_load (hload : loadInstance folder true = .ok (scenario, r)) (hn : r.Naive)
    (hskills : ∀ s ∈ r.seats, s.skill.isScalar = true) :
    ∃ unfilled skills homes, r.unassigned = .ok unfilled ∧ Tallies r unfilled skills ∧
      Counts (r.employees.values.map (·.home)) homes ∧
      (0 < r.flights.size → inspection folder =
        { (opening scenario r unfilled skills).foldl Transcript.print .empty with
          fault := some .noMember }) ∧
      (r.flights.size = 0 → inspection folder =
        (opening scenario r unfilled skills ++ closing r homes).foldl Transcript.print .empty) := by
  obtain ⟨unfilled, skills, hunfilled, hcounted, htallies⟩ := exists_tallies hload hn hskills
  have hscalar : ∀ l ∈ r.employees.values.map (·.home), l.isScalar = true := by
    intro l hl
    obtain ⟨e, he, rfl⟩ := List.mem_map.1 hl
    obtain ⟨id, he⟩ := Registry.mem_values.1 he
    exact homed_of_loadInstance hload id e he
  obtain ⟨homes, hhomes, hcounts⟩ := counts_countLabels hscalar
  have hcharted : ∀ e ∈ Report.employeesOf r, ∀ s ∈ e.seats, s.flight.Charted := by
    intro e he s hs
    obtain ⟨id, he⟩ := Registry.mem_values.1 (List.mem_mergeSort.1 he)
    exact (charted_of_loadInstance hload).of_owns
      (((listing_of_loadInstance hload hn).mem_seats rfl he).1 hs)
  exact ⟨unfilled, skills, homes, hunfilled, htallies, hcounts,
    inspection_of_flights hload hunfilled hcounted,
    inspection_of_no_flights hload hunfilled hcounted hhomes hcharted⟩

theorem loads_solved_smallest : ∃ scenario r, loadInstance .smallest true = .ok (scenario, r) ∧ r.Naive ∧
    (∀ s ∈ r.seats, s.skill.isScalar = true) ∧ r.flights.size = 1 := by
  obtain ⟨scenario, r, hload, hp, hskills, hflights⟩ := Contents.spelledBy_smallest.exists_of_load
    (P := fun r => r.Plain ∧ (∀ s ∈ r.seats, s.skill.isScalar = true) ∧ r.flights.size = 1)
    (by decide +kernel)
  exact ⟨scenario, r, loadInstance_of_unsolved rfl hload, hp.naive, hskills, hflights⟩

-- One flight is enough for the inspection to fail.
theorem inspection_fails_smallest : ∃ scenario r, Contents.smallest.SpelledBy .smallest ∧
    loadInstance .smallest true = .ok (scenario, r) ∧ r.Naive ∧
    (inspection .smallest).fault = some .noMember := by
  obtain ⟨scenario, r, hload, hn, hskills, hflights⟩ := loads_solved_smallest
  obtain ⟨unfilled, skills, hunfilled, hcounted, -⟩ := exists_tallies hload hn hskills
  refine ⟨scenario, r, Contents.spelledBy_smallest, hload, hn, ?_⟩
  rw [inspection_of_flights hload hunfilled hcounted (by omega)]

-- The one seat is open and asks for the one skill, as the text says before it breaks off.
theorem inspection_of_load_smallest : ∃ scenario r unfilled skills,
    loadInstance .smallest true = .ok (scenario, r) ∧ r.Naive ∧
    (∀ s ∈ r.seats, s.skill.isScalar = true) ∧ Tallies r unfilled skills ∧
    inspection .smallest =
      { (opening scenario r unfilled skills).foldl Transcript.print .empty with
        fault := some .noMember } := by
  obtain ⟨scenario, r, hload, hn, hskills, hflights⟩ := loads_solved_smallest
  obtain ⟨unfilled, skills, homes, -, htallies, -, hfails, -⟩ := inspection_of_load hload hn hskills
  exact ⟨scenario, r, unfilled, skills, hload, hn, hskills, htallies, hfails (by omega)⟩

end Command

end CrewRoster
