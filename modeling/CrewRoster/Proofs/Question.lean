import CrewRoster.Completion
import CrewRoster.Proofs.Coverage
import CrewRoster.Proofs.Eligibility
import CrewRoster.Proofs.Model

namespace CrewRoster

namespace Roster

variable {r : Roster} {g : Seat → Employee} {s t : Seat} {e : String} {zoned : Bool} {weight : Int}

-- `g` completes a roster:
-- 1. every open seat goes to an employee with the skill and the aircraft type, on a free day
-- 2. no two conflicting open seats go to the same employee
-- 3. no open seat goes to an employee who holds a conflicting one
structure Completes (r : Roster) (g : Seat → Employee) : Prop where
  employee : ∀ s, r.Open s → r.employees.get? (g s).id = some (g s)
  qualified : ∀ s, r.Open s → (g s).Qualified s
  apart : ∀ s t, r.Open s → r.Open t → s ≠ t → s.conflicts t = .ok true → (g s).id ≠ (g t).id
  free : ∀ s t, r.Open s → r.Owns (g s).id t → s.conflicts t ≠ .ok true

-- Where no seat is open there is nothing to ask of a completion.
theorem exists_completes_of_not_open (h : ∀ s, ¬r.Open s) : ∃ g, r.Completes g :=
  ⟨fun _ => ⟨"", default, default, [], [], [], [], .empty⟩, fun s hs => absurd hs (h s),
    fun s hs => absurd hs (h s), fun s _ hs => absurd hs (h s), fun s _ hs => absurd hs (h s)⟩

-- The legs away from home in a completion.
def awayLegs (r : Roster) (g : Seat → Employee) : Int :=
  ((r.assignments.values.filter (·.owner.isNone)).map fun a => Model.awayLegsOf (g a.seat) a.seat).sum

theorem unassigned_eq (h : r.WellFormed) (ht : Seat.Timetable zoned r.seats) :
    ∃ as, r.unassigned = .ok as ∧ as.Perm (r.assignments.values.filter (·.owner.isNone)) ∧
      Seat.Ordered (as.map (·.seat)) := by
  have hline : ∀ a ∈ r.assignments.values, a.seat.flight.OnLine zoned := fun a ha =>
    ht.line _ (List.mem_map_of_mem ha)
  obtain ⟨sorted, hsorted, hperm, ho⟩ := sortAssignments_eq hline h.pairwise_key
  refine ⟨sorted.filter (·.owner.isNone), ?_, hperm.filter _, ?_⟩
  · simp [unassigned, Roster.sorted, hsorted, bind, Except.bind, pure, Except.pure]
  · exact List.Pairwise.sublist (List.filter_sublist.map _) ho

theorem mem_openSeats {as : List Assignment}
    (h : as.Perm (r.assignments.values.filter (·.owner.isNone))) : s ∈ as.map (·.seat) ↔ r.Open s := by
  simp only [List.mem_map, h.mem_iff, List.mem_filter, Registry.mem_values, Option.isNone_iff_eq_none]
  constructor
  · rintro ⟨⟨s, owner⟩, ⟨⟨k, hk⟩, rfl⟩, rfl⟩
    exact ⟨k, hk⟩
  · rintro ⟨k, hk⟩
    exact ⟨⟨s, none⟩, ⟨⟨k, hk⟩, rfl⟩, rfl⟩

theorem WellFormed.keyed (h : r.WellFormed) {seats : List Seat} (hn : seats.Nodup)
    (hs : ∀ s ∈ seats, s ∈ r.seats) : Model.Keyed r.employees.values seats where
  employees := Registry.map_values_eq_keys h.crewId ▸ r.employees.nodup
  seats := hn.map_on fun s hm t hm' hid => h.eq_of_seatId (hs s hm) (hs t hm') hid

theorem WellFormed.mem_employees (h : r.WellFormed) {emp : Employee} :
    emp ∈ r.employees.values ↔ r.employees.get? emp.id = some emp := by
  rw [Registry.mem_values]
  exact ⟨fun ⟨k, hk⟩ => by rwa [h.crewId hk], fun hk => ⟨_, hk⟩⟩

-- What is known of the model that stands for a roster: its solutions are the completions of the roster,
-- and cost what they have legs away from home.
structure Poses (r : Roster) (weight : Int) (seats : List Seat) (m : Model) : Prop where
  sound : ∀ v, m.Satisfies v → ∃ g, r.Completes g ∧
    (m.choices.filter v).Perm (seats.map fun s => ⟨(g s).id, s.id⟩) ∧
    (0 < weight → m.objective v = weight * r.awayLegs g)
  complete : ∀ g, r.Completes g → ∃ v, m.Satisfies v ∧
    (0 < weight → m.objective v = weight * r.awayLegs g)

section Pose

variable {as : List Assignment} {el : Eligibility} {ps : List (String × String)}
  (h : r.WellFormed) (ht : Seat.Timetable zoned r.seats)
  (has : as.Perm (r.assignments.values.filter (·.owner.isNone)))
  (hel : ∀ e ∈ r.employees.values, ∀ s, r.Open s → (el.allows e.id s.id = true ↔
    e.Qualified s ∧ ∀ t, r.Owns e.id t → s.clashes t = false))
  (hps : ∀ s t, r.Open s → r.Open t → ((s.id, t.id) ∈ ps ↔ s.key.lt t.key ∧ s.clashes t))
include h ht has hel hps

theorem solves_iff : Model.Solves r.employees.values (as.map (·.seat)) el ps g ↔ r.Completes g := by
  have hmem : ∀ {s}, s ∈ as.map (·.seat) ↔ r.Open s := mem_openSeats has
  have hconflicts : ∀ s t, s ∈ r.seats → t ∈ r.seats → s.conflicts t = .ok (s.clashes t) :=
    fun s t hs hm => Seat.conflicts_eq (ht.line s hs) (ht.line t hm)
  constructor
  · intro hg
    constructor
    case employee => exact fun s hs => h.mem_employees.1 (hg.mem s (hmem.2 hs))
    case qualified =>
      intro s hs
      exact ((hel _ (hg.mem s (hmem.2 hs)) s hs).1 (hg.allows s (hmem.2 hs))).1
    case apart =>
      intro s t hs hm hne hc
      rw [hconflicts s t hs.mem_seats hm.mem_seats, Except.ok.injEq] at hc
      have hk : s.key ≠ t.key := fun hk => hne (h.eq_of_seatKey hs.mem_seats hm.mem_seats hk)
      -- the pair is listed in the order of its seats
      by_cases hlt : s.key.lt t.key
      · exact hg.apart s (hmem.2 hs) t (hmem.2 hm) ((hps s t hs hm).2 ⟨hlt, hc⟩)
      · refine (hg.apart t (hmem.2 hm) s (hmem.2 hs) ((hps t s hm hs).2 ⟨?_, ?_⟩)).symm
        · exact Seat.Key.lt_of_not_lt_of_ne hlt hk
        · rwa [Seat.clashes_comm]
    case free =>
      intro s t hs hown
      rw [hconflicts s t hs.mem_seats hown.mem_seats,
        ((hel _ (hg.mem s (hmem.2 hs)) s hs).1 (hg.allows s (hmem.2 hs))).2 t hown]
      simp
  · intro hg
    have hm : ∀ s, r.Open s → g s ∈ r.employees.values := fun s hs =>
      h.mem_employees.2 (hg.employee s hs)
    constructor
    case mem => exact fun s hs => hm s (hmem.1 hs)
    case allows =>
      intro s hs
      have hs := hmem.1 hs
      refine (hel _ (hm s hs) s hs).2 ⟨hg.qualified s hs, fun t hown => ?_⟩
      have := hg.free s t hs hown
      rw [hconflicts s t hs.mem_seats hown.mem_seats] at this
      simpa using this
    case apart =>
      intro s hs t ht' hc
      have hs := hmem.1 hs
      have ht' := hmem.1 ht'
      obtain ⟨hlt, hclash⟩ := (hps s t hs ht').1 hc
      refine hg.apart s t hs ht' ?_ ?_
      · rintro rfl
        exact Seat.Key.irrefl _ hlt
      · rw [hconflicts s t hs.mem_seats ht'.mem_seats, hclash]

theorem poses_build (ho : Seat.Ordered (as.map (·.seat))) :
    r.Poses weight (as.map (·.seat))
      (Model.build r.employees.values (as.map (·.seat)) el ps weight) := by
  have hkeyed := h.keyed ho.nodup fun s hs => (((mem_openSeats has).1 hs).mem_seats)
  have hlegs : ∀ g, ((as.map (·.seat)).map fun s => Model.awayLegsOf (g s) s).sum = r.awayLegs g := by
    intro g
    rw [List.map_map]
    exact (has.map _).sum_eq
  constructor
  case sound =>
    intro v hv
    obtain ⟨g, hg, hind⟩ := Model.exists_of_satisfies hkeyed hv
    refine ⟨g, (solves_iff h ht has hel hps).1 hg, ?_, fun hw => ?_⟩
    · rw [Model.choices_build hkeyed]
      exact Model.filter_choicesOf hkeyed hg hind
    · rw [Model.objective_build hkeyed hg hind hw, hlegs]
  case complete =>
    intro g hg
    have hg := (solves_iff h ht has hel hps).2 hg
    obtain ⟨v, hind⟩ := Model.exists_indicates hkeyed hg
    refine ⟨v, Model.satisfies_of_indicates hkeyed hg hind, fun hw => ?_⟩
    rw [Model.objective_build hkeyed hg hind hw, hlegs]

-- Where there is a completion, neither a seat nor a flight is short of employees.
theorem shortages_eq_nil (hg : r.Completes g) (hn : (as.map (·.seat)).Nodup) :
    SeatShortage.find r.employees.values (as.map (·.seat)) el = [] ∧
      FlightShortage.find r.employees.values (as.map (·.seat)) el = [] := by
  have hopen : ∀ {s}, s ∈ as.map (·.seat) ↔ r.Open s := mem_openSeats has
  have hsolves := (solves_iff h ht has hel hps).2 hg
  constructor
  · exact SeatShortage.find_eq_nil fun s hs => ⟨g s, hsolves.mem s hs, hsolves.allows s hs⟩
  · refine FlightShortage.find_eq_nil hn (fun s hs => ⟨hsolves.mem s hs, hsolves.allows s hs⟩) ?_
    intro s hs t hm hne hid
    refine hg.apart s t (hopen.1 hs) (hopen.1 hm) hne ?_
    rw [Seat.conflicts_eq (ht.line s (hopen.1 hs).mem_seats) (ht.line t (hopen.1 hm).mem_seats)]
    simp [Seat.clashes, hid]

end Pose

-- A seat that cannot be asked about is one that nobody may take.
theorem not_completes_of_error {seats : List Seat} {fault : Fault} (hs : ∀ s ∈ seats, r.Open s)
    (hpairs : Eligibility.ofPairs r.employees.values seats = .error fault) : ¬∃ g, r.Completes g := by
  rintro ⟨g, hg⟩
  obtain ⟨el, hel⟩ : ∃ el, Eligibility.ofPairs r.employees.values seats = .ok el :=
    Eligibility.exists_ofPairs fun s hm => ⟨g s, hg.qualified s (hs s hm)⟩
  rw [hel] at hpairs
  cases hpairs

-- Who may take an open seat once the seats that are held are taken into account.
theorem exists_allows {seats : List Seat} {el : Eligibility} (h : r.WellFormed)
    (ht : Seat.Timetable zoned r.seats) (hs : ∀ s, s ∈ seats ↔ r.Open s) (hn : seats.Nodup)
    (hpairs : Eligibility.ofPairs r.employees.values seats = .ok el) :
    ∃ el', Eligibility.block r el = .ok el' ∧ ∀ e ∈ r.employees.values, ∀ s, r.Open s →
      (el'.allows e.id s.id = true ↔ e.Qualified s ∧ ∀ t, r.Owns e.id t → s.clashes t = false) := by
  have hkeyed := h.keyed hn fun s hm => ((hs s).1 hm).mem_seats
  obtain ⟨el', hblock, hallows⟩ := Eligibility.block_eq el h ht
  refine ⟨el', hblock, fun e he s hopen => ?_⟩
  rw [hallows e.id s hopen, Eligibility.allows_ofPairs hpairs
    (fun _ ha _ hb => hkeyed.eq_of_employee ha hb) (fun _ ha _ hb => hkeyed.eq_of_seat ha hb) he
    ((hs s).2 hopen)]

-- The conflicts among open seats, each pair in the order of its seats.
theorem conflictPairs_open {as : List Assignment} (h : r.WellFormed)
    (ht : Seat.Timetable zoned r.seats)
    (has : as.Perm (r.assignments.values.filter (·.owner.isNone)))
    (ho : Seat.Ordered (as.map (·.seat))) :
    ∃ ps, conflictPairs ((as.map (·.seat)).map fun s => ⟨s, none⟩) = .ok ps ∧
      ∀ s t, r.Open s → r.Open t → ((s.id, t.id) ∈ ps ↔ s.key.lt t.key ∧ s.clashes t) := by
  have hopen : ∀ {s}, s ∈ as.map (·.seat) ↔ r.Open s := mem_openSeats has
  have hseats : (((as.map (·.seat)).map fun s => (⟨s, none⟩ : Assignment)).map (·.seat)) =
      as.map (·.seat) := by simp
  have hkeys : ((as.map (·.seat)).map fun s => (⟨s, none⟩ : Assignment)).Pairwise
      fun a b => a.seat.key ≠ b.seat.key := by
    refine List.pairwise_map.2 (List.Pairwise.imp ?_ ho)
    intro s t hlt he
    exact Seat.Key.irrefl _ (he ▸ hlt)
  have htable : Seat.Timetable zoned (as.map (·.seat)) := ht.sub fun s hs => (hopen.1 hs).mem_seats
  rw [← hseats] at htable
  obtain ⟨sorted, hsorted, hperm, hpairs⟩ := conflictPairs_eq htable hkeys
  rw [hseats] at hperm
  refine ⟨_, hpairs, fun s t hs hm => ?_⟩
  rw [List.mem_map]
  constructor
  · rintro ⟨⟨a, b⟩, hab, heq⟩
    obtain ⟨ha, hb, hlt, hclash⟩ := (Seat.mem_clashing hsorted).1 hab
    simp only [Prod.mk.injEq] at heq
    obtain rfl := h.eq_of_seatId (hopen.1 (hperm.mem_iff.1 ha)).mem_seats hs.mem_seats heq.1
    obtain rfl := h.eq_of_seatId (hopen.1 (hperm.mem_iff.1 hb)).mem_seats hm.mem_seats heq.2
    exact ⟨hlt, hclash⟩
  · rintro ⟨hlt, hclash⟩
    exact ⟨(s, t), (Seat.mem_clashing hsorted).2
      ⟨hperm.mem_iff.2 (hopen.2 hs), hperm.mem_iff.2 (hopen.2 hm), hlt, hclash⟩, rfl⟩

end Roster

namespace Verdict

def status : Verdict → Status
  | solved _ => .optimal
  | satisfied _ => .feasible
  | infeasible => .infeasible
  | refused => .refused
  | undecided => .undecided

def chosen : Verdict → List Choice
  | solved choices | satisfied choices => choices
  | _ => []

end Verdict

namespace Completion

open Roster

variable {r : Roster} {zoned : Bool}

-- A completion has three ends:
-- 1. no seat is open
-- 2. there is no completion, and that is seen, or runs into a fault, before any search
-- 3. the solver is asked about a model that stands for the roster
theorem find_cases (h : r.WellFormed) (ht : Seat.Timetable zoned r.seats) (solver : Solver)
    (weight : Int) :
    (∀ s, ¬r.Open s) ∧ find solver r weight = .ok ⟨.nothingToDo, 0, [], []⟩ ∨
    (¬∃ g, r.Completes g) ∧ ((∃ fault, find solver r weight = .error fault) ∨
      ∃ n shortages, find solver r weight = .ok ⟨.coverageInfeasible, n, shortages, []⟩) ∨
    ∃ seats m, (∃ s, r.Open s) ∧ (∀ s, s ∈ seats ↔ r.Open s) ∧ seats.Nodup ∧ r.Poses weight seats m ∧
      find solver r weight = (solver m).map fun verdict =>
        ⟨verdict.status, seats.length, [], m.choices.filter verdict.chosen.contains⟩ := by
  obtain ⟨as, has, hperm, ho⟩ := unassigned_eq h ht
  have hopen : ∀ {s}, s ∈ as.map (·.seat) ↔ r.Open s := mem_openSeats hperm
  by_cases hnil : as.map (·.seat) = []
  · refine .inl ⟨fun s hs => ?_, ?_⟩
    · have := hopen.2 hs
      simp [hnil] at this
    · simp [find, has, hnil, bind, Except.bind, pure, Except.pure]
  · right
    have hempty : (as.map (·.seat)).isEmpty = false := by simpa using hnil
    cases hpairs : Eligibility.ofPairs r.employees.values (as.map (·.seat)) with
    | error fault =>
      refine .inl ⟨not_completes_of_error (fun s hs => hopen.1 hs) hpairs, .inl ⟨fault, ?_⟩⟩
      simp only [find, has, bind, Except.bind, pure, Except.pure, hempty, hpairs]
      rfl
    | ok el₀ =>
      obtain ⟨el, hblock, hel⟩ := exists_allows h ht (fun s => hopen) ho.nodup hpairs
      obtain ⟨ps, hps, hmem⟩ := conflictPairs_open h ht hperm ho
      cases hshort : !((SeatShortage.find r.employees.values (as.map (·.seat)) el).isEmpty &&
          (FlightShortage.find r.employees.values (as.map (·.seat)) el).isEmpty) with
      | false =>
        refine .inr ⟨as.map (·.seat), _, ?_, fun s => hopen, ho.nodup,
          poses_build h ht hperm hel hmem ho, ?_⟩
        · obtain ⟨s, hs⟩ := List.exists_mem_of_ne_nil _ hnil
          exact ⟨s, hopen.1 hs⟩
        · simp only [find, has, bind, Except.bind, pure, Except.pure, hempty, hpairs, hblock, hshort, hps]
          rw [if_neg Bool.false_ne_true, if_neg Bool.false_ne_true]
          cases solver _ with
          | error fault => rfl
          | ok verdict => cases verdict <;> simp [Except.map, Verdict.status, Verdict.chosen]
      | true =>
        refine .inl ⟨?_, .inr ⟨(as.map (·.seat)).length,
          (SeatShortage.find r.employees.values (as.map (·.seat)) el).map (·.seat.id) ++
            (FlightShortage.find r.employees.values (as.map (·.seat)) el).map (·.flight), ?_⟩⟩
        · rintro ⟨g, hg⟩
          obtain ⟨hs, hf⟩ := shortages_eq_nil h ht hperm hel hmem hg ho.nodup
          simp [hs, hf] at hshort
        · simp only [find, has, bind, Except.bind, pure, Except.pure, hempty, hpairs, hblock, hshort]
          rfl

end Completion
end CrewRoster
