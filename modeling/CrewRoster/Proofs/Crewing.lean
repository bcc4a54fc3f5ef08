import CrewRoster.Proofs.Contents
import CrewRoster.Proofs.Coverage
import Mathlib.Combinatorics.Hall.Basic

namespace CrewRoster

variable {employees : List Employee} {seats ss cs : List Seat} {el : Eligibility} {flight : String}
  {g : Seat → Employee}

-- Each of the seats goes to an employee of its own who is eligible for it. Employees are told apart by
-- their ids.
structure Crews (employees : List Employee) (el : Eligibility) (ss : List Seat) (g : Seat → Employee) :
    Prop where
  employed : ∀ s ∈ ss, g s ∈ employees
  eligible : ∀ s ∈ ss, el.allows (g s).id s.id = true
  apart : ∀ s ∈ ss, ∀ t ∈ ss, s ≠ t → (g s).id ≠ (g t).id

def Crewable (employees : List Employee) (el : Eligibility) (ss : List Seat) : Prop :=
  ∃ g, Crews employees el ss g

instance : Nonempty Employee := ⟨⟨"", .null, .null, [], [], [], [], .empty⟩⟩

open FlightShortage (eligibleIds mem_eligibleIds)

theorem Crews.sub (h : Crews employees el ss g) (hs : ∀ s ∈ cs, s ∈ ss) : Crews employees el cs g where
  employed s hc := h.employed s (hs s hc)
  eligible s hc := h.eligible s (hs s hc)
  apart s hc t ht := h.apart s (hs s hc) t (hs t ht)

theorem Crews.length_le (h : Crews employees el ss g) (hn : ss.Nodup) :
    ss.length ≤ (eligibleIds employees ss el).length :=
  FlightShortage.length_le_of_crewed hn (fun s hs => ⟨h.employed s hs, h.eligible s hs⟩) h.apart

-- Ids of eligible employees, of whom no two seats get one, are a crew.
theorem crewable_of_injective (f : {s // s ∈ ss} → String) (hinj : f.Injective)
    (hf : ∀ s, f s ∈ eligibleIds employees [s.1] el) : Crewable employees el ss := by
  have hex : ∀ s, ∀ hs : s ∈ ss, ∃ e ∈ employees, el.allows e.id s.id = true ∧ e.id = f ⟨s, hs⟩ := by
    intro s hs
    obtain ⟨e, he, ⟨s', hs', ha⟩, hid⟩ := mem_eligibleIds.1 (hf ⟨s, hs⟩)
    obtain rfl := List.mem_singleton.1 hs'
    exact ⟨e, he, ha, hid⟩
  choose! g hg ha hid using hex
  refine ⟨g, hg, ha, fun s hs t ht hne he => hne ?_⟩
  rw [hid s hs, hid t ht] at he
  exact Subtype.mk.inj (hinj he)

-- Some of the seats of a list make a list too, in the order of the seats.
theorem exists_sublist (hn : ss.Nodup) (group : Finset {s // s ∈ ss}) :
    ∃ cs : List Seat, cs.Sublist ss ∧ cs.length = group.card ∧ ∀ s : {s // s ∈ ss}, s.1 ∈ cs ↔ s ∈ group := by
  have hmem : ∀ s : {s // s ∈ ss}, s.1 ∈ ss.filter (· ∈ group.map (.subtype _)) ↔ s ∈ group := by
    intro s
    rw [List.mem_filter, decide_eq_true_eq, and_iff_right s.2]
    exact Finset.mem_map' _
  refine ⟨ss.filter (· ∈ group.map (.subtype _)), List.filter_sublist, ?_, hmem⟩
  rw [← List.toFinset_card_of_nodup (hn.filter _), ← Finset.card_map (.subtype (· ∈ ss))]
  congr 1
  ext s
  rw [List.mem_toFinset, List.mem_filter, decide_eq_true_eq, and_iff_right_iff_imp]
  exact Finset.property_of_mem_map_subtype group

-- Seats can be crewed if for no group of them there are fewer employees than seats, and only then.
theorem crewable_iff (hn : ss.Nodup) : Crewable employees el ss ↔
    ∀ cs, cs.Sublist ss → cs.length ≤ (eligibleIds employees cs el).length := by
  constructor
  · rintro ⟨g, hg⟩ cs hcs
    exact (hg.sub fun s hs => hcs.subset hs).length_le (hn.sublist hcs)
  · intro h
    have hhall : ∀ group : Finset {s // s ∈ ss},
        group.card ≤ (group.biUnion fun s => (eligibleIds employees [s.1] el).toFinset).card := by
      intro group
      obtain ⟨cs, hcs, hlength, hmem⟩ := exists_sublist hn group
      calc group.card = cs.length := hlength.symm
        _ ≤ (eligibleIds employees cs el).length := h cs hcs
        _ = (eligibleIds employees cs el).toFinset.card :=
          (List.toFinset_card_of_nodup (Lists.nodup_eraseDups _)).symm
        _ ≤ (group.biUnion fun s => (eligibleIds employees [s.1] el).toFinset).card := by
          refine Finset.card_le_card fun id hid => ?_
          obtain ⟨e, he, ⟨s, hs, ha⟩, rfl⟩ := mem_eligibleIds.1 (List.mem_toFinset.1 hid)
          refine Finset.mem_biUnion.2 ⟨⟨s, hcs.subset hs⟩, (hmem _).1 hs, List.mem_toFinset.2 ?_⟩
          exact mem_eligibleIds.2 ⟨e, he, ⟨s, List.mem_singleton_self s, ha⟩, rfl⟩
    obtain ⟨f, hinj, hf⟩ := (Finset.all_card_le_biUnion_card_iff_exists_injective _).1 hhall
    exact crewable_of_injective f hinj fun s => List.mem_toFinset.1 (hf s)

-- The seats of a flight.
def seatsOf (seats : List Seat) (flight : String) : List Seat := seats.filter (·.flight.id = flight)

-- If no seat is short of employees, no group of one seat is, or of none.
theorem length_le_of_length_le_one (hs : SeatShortage.find employees seats el = [])
    (hcs : cs.Sublist (seatsOf seats flight)) (hsize : cs.length ≤ 1) :
    cs.length ≤ (eligibleIds employees cs el).length := by
  rcases hsize.eq_or_lt with hone | hnone
  · obtain ⟨s, rfl⟩ := List.length_eq_one_iff.1 hone
    obtain ⟨hmem, -⟩ := List.mem_filter.1 (hcs.subset (List.mem_singleton_self s))
    obtain ⟨e, he, ha⟩ := SeatShortage.find_eq_nil_iff.1 hs s hmem
    exact List.length_pos_of_mem (mem_eligibleIds.2 ⟨e, he, ⟨s, List.mem_singleton_self s, ha⟩, rfl⟩)
  · exact (Nat.lt_one_iff.1 hnone).le.trans (Nat.zero_le _)

section Flights

variable (hids : (seats.map (·.id)).Nodup)
include hids

-- Of seats that are told apart by their ids:
-- 1. if no seat and no flight is short of employees, a flight can be crewed if no group of its seats, of
--    two or more but not all of them, has fewer eligible employees than seats, and only then
-- 2. so a flight with one or two seats can be crewed
-- 3. if every flight can be crewed, no seat and no flight is short of employees
theorem crewable_of_no_shortage :
    (SeatShortage.find employees seats el = [] → FlightShortage.find employees seats el = [] →
      ∀ flight, (Crewable employees el (seatsOf seats flight) ↔
        ∀ cs, cs.Sublist (seatsOf seats flight) → 1 < cs.length →
          cs.length < (seatsOf seats flight).length →
          cs.length ≤ (eligibleIds employees cs el).length) ∧
        ((seatsOf seats flight).length ≤ 2 → Crewable employees el (seatsOf seats flight))) ∧
    ((∀ flight, Crewable employees el (seatsOf seats flight)) →
      SeatShortage.find employees seats el = [] ∧ FlightShortage.find employees seats el = []) := by
  have hn : ∀ flight, (seatsOf seats flight).Nodup := fun flight => (List.Nodup.of_map _ hids).filter _
  constructor
  · intro hs hf flight
    have hiff : Crewable employees el (seatsOf seats flight) ↔
        ∀ cs, cs.Sublist (seatsOf seats flight) → 1 < cs.length →
          cs.length < (seatsOf seats flight).length →
          cs.length ≤ (eligibleIds employees cs el).length := by
      rw [crewable_iff (hn flight)]
      refine forall₂_congr fun cs hcs => ⟨fun h _ _ => h, fun h => ?_⟩
      rcases le_or_gt cs.length 1 with hone | hmore
      · exact length_le_of_length_le_one hs hcs hone
      · rcases hcs.length_le.eq_or_lt with hall | hless
        · rw [hcs.eq_of_length hall]
          exact FlightShortage.find_eq_nil_iff.1 hf flight
        · exact h hmore hless
    exact ⟨hiff, fun htwo => hiff.2 fun cs _ hlow hhigh => by omega⟩
  · intro hcrew
    constructor
    · rw [SeatShortage.find_eq_nil_iff]
      intro s hs
      obtain ⟨g, hg⟩ := hcrew s.flight.id
      have hmem : s ∈ seatsOf seats s.flight.id := List.mem_filter.2 ⟨hs, decide_eq_true rfl⟩
      exact ⟨g s, hg.employed s hmem, hg.eligible s hmem⟩
    · rw [FlightShortage.find_eq_nil_iff]
      intro flight
      exact (crewable_iff (hn flight)).1 (hcrew flight) _ (List.Sublist.refl _)

end Flights

-- A flight with two seats for pilots and one for the cabin, and a crew of one pilot and two for the cabin.
def threeSeats : List Seat :=
  let f : Flight := ⟨"1", .text "A", .text "A", .ofDate (.after 739039) (.after 8 0 0),
    .ofDate (.after 739039) (.after 9 0 0), .text "", .text ""⟩
  [⟨"a", f, .text "P", 0⟩, ⟨"b", f, .text "P", 1⟩, ⟨"c", f, .text "C", 2⟩]

def onePilot : List Employee :=
  [⟨"E", .null, .text "A", [.text "P"], [.text ""], [], [], .empty⟩,
    ⟨"F", .null, .text "A", [.text "C"], [.text ""], [], [], .empty⟩,
    ⟨"G", .null, .text "A", [.text "C"], [.text ""], [], [], .empty⟩]

theorem seatsOf_threeSeats :
    seatsOf threeSeats flight = if flight = "1@2024-06-03" then threeSeats else [] := by
  have hid : ∀ s ∈ threeSeats, s.flight.id = "1@2024-06-03" := by decide +kernel
  split_ifs with h
  · exact List.filter_eq_self.2 fun s hs => decide_eq_true ((hid s hs).trans h.symm)
  · exact List.filter_eq_nil_iff.2 fun s hs => fun he => h ((of_decide_eq_true he).symm.trans (hid s hs))

theorem find_threeSeats (h : threeSeats.length ≤ (eligibleIds employees threeSeats el).length) :
    FlightShortage.find employees threeSeats el = [] := by
  refine FlightShortage.find_eq_nil_iff.2 fun flight => ?_
  rw [← seatsOf, seatsOf_threeSeats]
  split_ifs
  · exact h
  · exact Nat.zero_le _

-- No seat and no flight is short of employees, but the one pilot cannot take two seats.
theorem not_crewable_threeSeats : ∃ el, Eligibility.ofPairs onePilot threeSeats = .ok el ∧
    (threeSeats.map (·.id)).Nodup ∧ SeatShortage.find onePilot threeSeats el = [] ∧
    FlightShortage.find onePilot threeSeats el = [] ∧
    ¬Crewable onePilot el (seatsOf threeSeats "1@2024-06-03") := by
  refine ⟨_, rfl, by decide +kernel, by decide +kernel, find_threeSeats (by decide +kernel), fun hcrew => ?_⟩
  rw [seatsOf_threeSeats, if_pos rfl, crewable_iff (by decide +kernel)] at hcrew
  exact absurd (hcrew (threeSeats.take 2) (List.take_sublist 2 _)) (by decide +kernel)

def twoPilots : List Employee :=
  ⟨"D", .null, .text "A", [.text "P"], [.text ""], [], [], .empty⟩ :: onePilot

-- With another pilot there are two for the seats of the pilots, and three for the seat of a pilot and that
-- in the cabin.
theorem crewable_of_no_shortage_threeSeats : ∃ el, Eligibility.ofPairs twoPilots threeSeats = .ok el ∧
    (threeSeats.map (·.id)).Nodup ∧ SeatShortage.find twoPilots threeSeats el = [] ∧
    FlightShortage.find twoPilots threeSeats el = [] ∧
    Crewable twoPilots el (seatsOf threeSeats "1@2024-06-03") := by
  have hids : (threeSeats.map (·.id)).Nodup := by decide +kernel
  obtain ⟨el, hel, hs, hf, hgroups⟩ : ∃ el, Eligibility.ofPairs twoPilots threeSeats = .ok el ∧
      SeatShortage.find twoPilots threeSeats el = [] ∧
      threeSeats.length ≤ (eligibleIds twoPilots threeSeats el).length ∧
      ∀ cs ∈ threeSeats.sublists, 1 < cs.length → cs.length < threeSeats.length →
        cs.length ≤ (eligibleIds twoPilots cs el).length :=
    ⟨_, rfl, by decide +kernel, by decide +kernel, by decide +kernel⟩
  have hf := find_threeSeats hf
  refine ⟨el, hel, hids, hs, hf, (((crewable_of_no_shortage hids).1 hs hf _).1).2 fun cs hcs => ?_⟩
  rw [seatsOf_threeSeats, if_pos rfl] at hcs ⊢
  exact hgroups cs (List.mem_sublists.2 hcs)

end CrewRoster
