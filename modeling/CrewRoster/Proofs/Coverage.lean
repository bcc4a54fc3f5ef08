import CrewRoster.Coverage
import CrewRoster.Proofs.Lists
import CrewRoster.Proofs.Registry
import Mathlib.Data.List.Perm.Subperm

namespace CrewRoster

variable {employees : List Employee} {seats ss : List Seat} {el : Eligibility} {flight : String}

-- No seat is short of employees if somebody is eligible for each, and only then.
theorem SeatShortage.find_eq_nil_iff : find employees seats el = [] ↔
    ∀ s ∈ seats, ∃ e ∈ employees, el.allows e.id s.id = true := by
  rw [find, ← List.length_eq_zero_iff, List.length_mergeSort, List.length_eq_zero_iff,
    List.filter_eq_nil_iff, List.forall_mem_map]
  refine forall₂_congr fun s _ => ?_
  rw [decide_eq_true_eq, ← List.countP_pos_iff, Nat.pos_iff_ne_zero]

theorem SeatShortage.find_eq_nil
    (h : ∀ s ∈ seats, ∃ e ∈ employees, el.allows e.id s.id = true) :
    find employees seats el = [] :=
  find_eq_nil_iff.2 h

namespace FlightShortage

-- The seats of each flight are grouped in the order in which they come.
theorem getD_byFlight :
    ((byFlight seats).get? flight).getD [] = seats.filter (·.flight.id = flight) := by
  unfold byFlight
  induction seats using List.reverseRecOn with
  | nil => rfl
  | append_singleton seats s ih =>
    rw [List.foldl_append, List.foldl_cons, List.foldl_nil, Registry.get?_insert, List.filter_append]
    by_cases h : flight = s.flight.id
    · subst h
      simp [ih]
    · simp [h, Ne.symm h, ih]

theorem eq_filter_of_mem (h : (flight, ss) ∈ (byFlight seats).entries) :
    ss = seats.filter (·.flight.id = flight) := by
  rw [← getD_byFlight, Registry.get?_eq_some.2 h, Option.getD_some]

-- The ids of those who are eligible for some of the seats, each once.
def eligibleIds (employees : List Employee) (ss : List Seat) (el : Eligibility) : List String :=
  ((employees.filter fun e => ss.any fun s => el.allows e.id s.id).map (·.id)).eraseDups

theorem mem_eligibleIds {id : String} : id ∈ eligibleIds employees ss el ↔
    ∃ e ∈ employees, (∃ s ∈ ss, el.allows e.id s.id = true) ∧ e.id = id := by
  simp only [eligibleIds, List.mem_eraseDups, List.mem_map, List.mem_filter, List.any_eq_true, and_assoc]

-- No flight is short of employees if there are as many of them as it has seats, and only then.
theorem find_eq_nil_iff : find employees seats el = [] ↔
    ∀ flight, (seats.filter (·.flight.id = flight)).length ≤
      (eligibleIds employees (seats.filter (·.flight.id = flight)) el).length := by
  rw [find, ← List.length_eq_zero_iff, List.length_mergeSort, List.length_eq_zero_iff,
    List.filter_eq_nil_iff, List.forall_mem_map]
  simp only [balance, sortTexts, List.length_mergeSort, List.length_map, decide_eq_true_eq,
    Int.not_lt, Int.sub_nonneg, Int.ofNat_le]
  constructor
  · intro h flight
    cases hget : (byFlight seats).get? flight with
    | none =>
      rw [← getD_byFlight, hget]
      exact Nat.zero_le _
    | some ss =>
      obtain rfl := eq_filter_of_mem (Registry.get?_eq_some.1 hget)
      exact h _ (Registry.get?_eq_some.1 hget)
  · rintro h ⟨flight, ss⟩ hm
    obtain rfl := eq_filter_of_mem hm
    exact h flight

-- Employees of whom each takes a seat of its own are no fewer than the seats.
theorem length_le_of_crewed {g : Seat → Employee} (hn : ss.Nodup)
    (hg : ∀ s ∈ ss, g s ∈ employees ∧ el.allows (g s).id s.id = true)
    (hne : ∀ s ∈ ss, ∀ t ∈ ss, s ≠ t → (g s).id ≠ (g t).id) :
    ss.length ≤ (eligibleIds employees ss el).length := by
  have hnodup : (ss.map fun s => (g s).id).Nodup := hn.map_on fun s hs t ht he =>
    not_not.1 fun hst => hne s hs t ht hst he
  have hsub : (ss.map fun s => (g s).id) ⊆ eligibleIds employees ss el := by
    intro id hid
    obtain ⟨s, hs, rfl⟩ := List.mem_map.1 hid
    exact mem_eligibleIds.2 ⟨g s, (hg s hs).1, ⟨s, hs, (hg s hs).2⟩, rfl⟩
  simpa using (List.Nodup.subperm hnodup hsub).length_le

-- No flight is short of employees if its seats can go to different ones.
theorem find_eq_nil {g : Seat → Employee} (hn : seats.Nodup)
    (hg : ∀ s ∈ seats, g s ∈ employees ∧ el.allows (g s).id s.id = true)
    (hne : ∀ s ∈ seats, ∀ t ∈ seats, s ≠ t → s.flight.id = t.flight.id → (g s).id ≠ (g t).id) :
    find employees seats el = [] := by
  rw [find_eq_nil_iff]
  intro flight
  have hmem : ∀ {s}, s ∈ seats.filter (·.flight.id = flight) ↔ s ∈ seats ∧ s.flight.id = flight := by
    simp
  refine length_le_of_crewed (hn.filter _) (fun s hs => hg s (hmem.1 hs).1) fun s hs t ht hst => ?_
  exact hne s (hmem.1 hs).1 t (hmem.1 ht).1 hst ((hmem.1 hs).2.trans (hmem.1 ht).2.symm)

end FlightShortage
end CrewRoster
