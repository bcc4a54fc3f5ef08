import CrewRoster.Model
import CrewRoster.Proofs.Lists

namespace CrewRoster

variable {order choices : List Choice} {a b c : Choice} {v : Choice → Bool}

namespace Linear

theorem value_eq_sum (terms : List (Int × Option Choice)) :
    value terms v = (terms.map fun p => if p.2.any v then p.1 else 0).sum := by
  rw [List.sum, List.foldr_map]
  rfl

-- The sum of some choices is the number of those that are made, each as often as it is named.
theorem value_sum (ho : order.Nodup) (hc : choices ⊆ order) :
    value (sum order choices) v = choices.countP v := by
  have hperm : (order.filter choices.contains).Perm choices.dedup := by
    rw [List.perm_ext_iff_of_nodup (ho.filter _) choices.nodup_dedup]
    intro c
    rw [List.mem_filter, List.contains_iff_mem, List.mem_dedup]
    exact and_iff_right_of_imp fun h => hc h
  have hcount := congrArg (Nat.cast (R := Int)) (List.sum_map_count_dedup_filter_eq_countP v choices)
  rw [value_eq_sum, sum, List.map_map, ← hcount, Nat.cast_list_sum, List.map_map]
  change ((order.filter choices.contains).map fun c => if v c then (choices.count c : Int) else 0).sum = _
  rw [Lists.sum_map_ite]
  exact ((hperm.filter v).map _).sum_eq

end Linear

namespace Constraint

theorem exactlyOne_holds (ho : order.Nodup) (hc : choices ⊆ order) :
    ((exactlyOne choices).linear order).Holds v ↔ choices.countP v = 1 := by
  cases choices with
  | nil => simp [linear, Linear.Holds, Linear.value]
  | cons c choices =>
    simp only [linear, Linear.Holds, Linear.value_sum ho hc, Option.mem_def, Option.some.injEq,
      forall_eq']
    omega

theorem notBoth_holds (ho : order.Nodup) (ha : a ∈ order) (hb : b ∈ order) :
    ((notBoth a b).linear order).Holds v ↔ ¬(v a = true ∧ v b = true) := by
  have hc : [a, b] ⊆ order := by simp [ha, hb]
  simp only [linear, Linear.Holds, Linear.value_sum ho hc, Option.mem_def, reduceCtorEq, false_implies,
    implies_true, true_and]
  cases hva : v a <;> cases hvb : v b <;> simp [hva, hvb]

end Constraint

namespace Model

variable {employees : List Employee} {seats : List Seat} {el : Eligibility}
  {conflicts : List (String × String)} {weight : Int} {g : Seat → Employee}
  {e : Employee} {s t : Seat}

theorem objective_eq_sum {m : Model} :
    m.objective v = (m.costs.map fun p => if v p.2 then p.1 else 0).sum := by
  rw [List.sum, List.foldr_map]
  rfl

theorem mem_choicesOf : c ∈ choicesOf employees seats el ↔
    ∃ e ∈ employees, ∃ s ∈ seats, el.allows e.id s.id = true ∧ (⟨e.id, s.id⟩ : Choice) = c := by
  simp only [choicesOf, List.mem_flatMap, List.mem_map, List.mem_filter, and_assoc]

-- Employees and seats are told apart by their ids, as the keys of a model.
structure Keyed (employees : List Employee) (seats : List Seat) : Prop where
  employees : (employees.map (·.id)).Nodup
  seats : (seats.map (·.id)).Nodup

section Keyed

variable (h : Keyed employees seats)
include h

theorem Keyed.eq_of_employee {e' : Employee} (he : e ∈ employees) (he' : e' ∈ employees)
    (hid : e.id = e'.id) : e = e' :=
  List.inj_on_of_nodup_map h.employees he he' hid

theorem Keyed.eq_of_seat (hs : s ∈ seats) (ht : t ∈ seats) (hid : s.id = t.id) : s = t :=
  List.inj_on_of_nodup_map h.seats hs ht hid

theorem nodup_choicesOf : (choicesOf employees seats el).Nodup := by
  rw [choicesOf, List.nodup_flatMap]
  constructor
  · intro e he
    have hs : (seats.filter fun s => el.allows e.id s.id).Nodup := h.seats.of_map.filter _
    refine hs.map_on fun s hs t ht hst => ?_
    simp only [Choice.mk.injEq, true_and] at hst
    exact h.eq_of_seat (List.mem_filter.1 hs).1 (List.mem_filter.1 ht).1 hst
  · refine (List.pairwise_map.1 h.employees).imp fun hne => ?_
    rw [Function.onFun, List.disjoint_left]
    intro c hc hc'
    obtain ⟨s, -, rfl⟩ := List.mem_map.1 hc
    obtain ⟨t, -, ht⟩ := List.mem_map.1 hc'
    simp only [Choice.mk.injEq] at ht
    exact hne ht.1.symm

theorem choices_build :
    (build employees seats el conflicts weight).choices = choicesOf employees seats el :=
  Lists.eraseDups_of_nodup (nodup_choicesOf h)

theorem ordered_choicesOf : ordered (choicesOf employees seats el) = choicesOf employees seats el := by
  rw [ordered, Lists.eraseDups_of_nodup (List.nodup_reverse.2 (nodup_choicesOf h)), List.reverse_reverse]

theorem awayLegs?_eq (he : e ∈ employees) (hs : s ∈ seats) :
    awayLegs? employees seats ⟨e.id, s.id⟩ =
      if awayLegsOf e s ≠ 0 then some (awayLegsOf e s, ⟨e.id, s.id⟩) else none := by
  simp only [awayLegs?, Lists.find?_of_nodup h.employees he, Lists.find?_of_nodup h.seats hs]
  by_cases hz : awayLegsOf e s = 0 <;> simp [hz]

-- A valuation satisfies the constraints of a model if it chooses one employee for each seat, and of two
-- conflicting seats never both for the same employee.
theorem satisfies_build : (build employees seats el conflicts weight).Satisfies v ↔
    (∀ s ∈ seats, ((employees.filter fun e => el.allows e.id s.id).map
      fun e => (⟨e.id, s.id⟩ : Choice)).countP v = 1) ∧
    ∀ e ∈ employees, ∀ p ∈ conflicts,
      ⟨e.id, p.1⟩ ∈ choicesOf employees seats el → ⟨e.id, p.2⟩ ∈ choicesOf employees seats el →
        ¬(v ⟨e.id, p.1⟩ = true ∧ v ⟨e.id, p.2⟩ = true) := by
  have hn : (choicesOf employees seats el).Nodup := nodup_choicesOf h
  have horder : (build employees seats el conflicts weight).order = choicesOf employees seats el :=
    ordered_choicesOf h
  have hsub : ∀ s ∈ seats, ((employees.filter fun e => el.allows e.id s.id).map
      fun e => (⟨e.id, s.id⟩ : Choice)) ⊆ choicesOf employees seats el := by
    intro s hs c hc
    obtain ⟨e, he, rfl⟩ := List.mem_map.1 hc
    exact mem_choicesOf.2 ⟨e, (List.mem_filter.1 he).1, s, hs, (List.mem_filter.1 he).2, rfl⟩
  unfold Satisfies linear
  rw [horder]
  change (∀ l ∈ (seats.map (cover employees el) ++ employees.flatMap fun e =>
    conflicts.filterMap (exclusion (choicesOf employees seats el) e.id)).map _, _) ↔ _
  rw [List.forall_mem_map, List.forall_mem_append, List.forall_mem_map]
  refine and_congr (forall₂_congr fun s hs => Constraint.exactlyOne_holds hn (hsub s hs)) ?_
  simp only [List.mem_flatMap, List.mem_filterMap]
  constructor
  · intro hall e he p hp ha hb
    refine (Constraint.notBoth_holds hn ha hb).1 (hall _ ⟨e, he, p, hp, ?_⟩)
    simp [exclusion, ha, hb]
  · rintro hall l ⟨e, he, p, hp, hl⟩
    unfold exclusion at hl
    dsimp only at hl
    split at hl
    case isTrue hab =>
      simp only [Bool.and_eq_true, List.contains_iff_mem] at hab
      obtain rfl := Option.some.inj hl
      exact (Constraint.notBoth_holds hn hab.1 hab.2).2 (hall e he p hp hab.1 hab.2)
    case isFalse => cases hl

end Keyed

-- Every seat goes to somebody who is eligible for it, and conflicting seats go to different employees.
structure Solves (employees : List Employee) (seats : List Seat) (el : Eligibility)
    (conflicts : List (String × String)) (g : Seat → Employee) : Prop where
  mem : ∀ s ∈ seats, g s ∈ employees
  allows : ∀ s ∈ seats, el.allows (g s).id s.id = true
  apart : ∀ s ∈ seats, ∀ t ∈ seats, (s.id, t.id) ∈ conflicts → (g s).id ≠ (g t).id

-- Among the variables of a model exactly those are 1 that say what `g` does.
def Indicates (employees : List Employee) (seats : List Seat) (el : Eligibility) (g : Seat → Employee)
    (v : Choice → Bool) : Prop :=
  ∀ e ∈ employees, ∀ s ∈ seats, el.allows e.id s.id = true → (v ⟨e.id, s.id⟩ = true ↔ e = g s)

theorem exists_indicates (h : Keyed employees seats) (hg : Solves employees seats el conflicts g) :
    ∃ v, Indicates employees seats el g v := by
  refine ⟨fun c => seats.any fun s => s.id = c.seat && (g s).id = c.employee, ?_⟩
  intro e he s hs _
  simp only [List.any_eq_true, Bool.and_eq_true, decide_eq_true_eq]
  constructor
  · rintro ⟨t, ht, hst, hid⟩
    obtain rfl := h.eq_of_seat ht hs hst
    exact (h.eq_of_employee (hg.mem t ht) he hid).symm
  · rintro rfl
    exact ⟨s, hs, rfl, rfl⟩

section Solves

variable (h : Keyed employees seats) (hg : Solves employees seats el conflicts g)
  (hv : Indicates employees seats el g v)
include h hg hv

theorem satisfies_of_indicates : (build employees seats el conflicts weight).Satisfies v := by
  rw [satisfies_build h]
  constructor
  · intro s hs
    rw [List.countP_map]
    have hcongr : (employees.filter fun e => el.allows e.id s.id).countP
        (v ∘ fun e => (⟨e.id, s.id⟩ : Choice)) =
        ((employees.filter fun e => el.allows e.id s.id).map (·.id)).count (g s).id := by
      rw [List.count, List.countP_map]
      refine List.countP_congr fun e he => ?_
      obtain ⟨he, ha⟩ := List.mem_filter.1 he
      rw [Function.comp_apply, Function.comp_apply, hv e he s hs ha, beq_iff_eq]
      exact ⟨fun h => h ▸ rfl, h.eq_of_employee he (hg.mem s hs)⟩
    rw [hcongr]
    refine List.count_eq_one_of_mem (h.employees.sublist (List.filter_sublist.map _)) ?_
    exact List.mem_map_of_mem (List.mem_filter.2 ⟨hg.mem s hs, hg.allows s hs⟩)
  · rintro e he ⟨i, j⟩ hp hi hj ⟨hvi, hvj⟩
    obtain ⟨e₁, he₁, s, hs, ha, hc⟩ := mem_choicesOf.1 hi
    obtain ⟨e₂, he₂, t, ht, hb, hd⟩ := mem_choicesOf.1 hj
    simp only [Choice.mk.injEq] at hc hd
    obtain ⟨hid, rfl⟩ := hc
    obtain ⟨hid', rfl⟩ := hd
    obtain rfl := h.eq_of_employee he₁ he hid
    obtain rfl := h.eq_of_employee he₂ he hid'
    have hes := (hv _ he s hs ha).1 hvi
    have het := (hv _ he t ht hb).1 hvj
    exact hg.apart s hs t ht hp (by rw [← hes, ← het])

-- The choices that are made are those of `g`, one for each seat.
theorem filter_choicesOf :
    ((choicesOf employees seats el).filter v).Perm (seats.map fun s => ⟨(g s).id, s.id⟩) := by
  rw [List.perm_ext_iff_of_nodup ((nodup_choicesOf h).filter _)]
  · intro c
    rw [List.mem_filter, mem_choicesOf, List.mem_map]
    constructor
    · rintro ⟨⟨e, he, s, hs, ha, rfl⟩, hc⟩
      exact ⟨s, hs, by rw [(hv e he s hs ha).1 hc]⟩
    · rintro ⟨s, hs, rfl⟩
      exact ⟨⟨g s, hg.mem s hs, s, hs, hg.allows s hs, rfl⟩,
        (hv _ (hg.mem s hs) s hs (hg.allows s hs)).2 rfl⟩
  · refine h.seats.of_map.map_on fun s hs t ht hst => h.eq_of_seat hs ht ?_
    simp only [Choice.mk.injEq] at hst
    exact hst.2

-- What is to be small is the number of legs away from home, as often as the weight says.
theorem objective_build (hw : 0 < weight) : (build employees seats el conflicts weight).objective v =
    weight * (seats.map fun s => awayLegsOf (g s) s).sum := by
  have hcosts : (build employees seats el conflicts weight).costs =
      ((choicesOf employees seats el).filterMap (awayLegs? employees seats)).map
        fun p => (weight * p.1, p.2) := by
    simp only [costs, build, hw, if_true, ordered_choicesOf h]
  -- a choice that costs nothing is not among the costs, and a choice that is not made adds nothing
  have hvalue : ∀ c ∈ choicesOf employees seats el,
      (((awayLegs? employees seats c).map fun p => if v p.2 then weight * p.1 else 0).getD 0) =
        if v c then ((awayLegs? employees seats c).map fun p => weight * p.1).getD 0 else 0 := by
    intro c hc
    obtain ⟨e, he, s, hs, -, rfl⟩ := mem_choicesOf.1 hc
    rw [awayLegs?_eq h he hs]
    by_cases hz : awayLegsOf e s = 0 <;> simp [hz]
  have hseat : ∀ s ∈ seats,
      ((awayLegs? employees seats ⟨(g s).id, s.id⟩).map fun p => weight * p.1).getD 0 =
        weight * awayLegsOf (g s) s := by
    intro s hs
    rw [awayLegs?_eq h (hg.mem s hs) hs]
    by_cases hz : awayLegsOf (g s) s = 0 <;> simp [hz]
  calc (build employees seats el conflicts weight).objective v
      = (((choicesOf employees seats el).filterMap (awayLegs? employees seats)).map
          fun p => if v p.2 then weight * p.1 else 0).sum := by
        rw [objective_eq_sum, hcosts, List.map_map]
        rfl
    _ = ((choicesOf employees seats el).map fun c =>
          if v c then ((awayLegs? employees seats c).map fun p => weight * p.1).getD 0 else 0).sum := by
        rw [Lists.sum_filterMap]
        exact congrArg List.sum (List.map_congr_left hvalue)
    _ = ((seats.map fun s => (⟨(g s).id, s.id⟩ : Choice)).map fun c =>
          ((awayLegs? employees seats c).map fun p => weight * p.1).getD 0).sum := by
        rw [Lists.sum_map_ite]
        exact ((filter_choicesOf h hg hv).map _).sum_eq
    _ = (seats.map fun s => weight * awayLegsOf (g s) s).sum := by
        rw [List.map_map]
        exact congrArg List.sum (List.map_congr_left hseat)
    _ = weight * (seats.map fun s => awayLegsOf (g s) s).sum := List.sum_map_mul_left _ _ _

end Solves

theorem exists_of_satisfies (h : Keyed employees seats)
    (hs : (build employees seats el conflicts weight).Satisfies v) :
    ∃ g, Solves employees seats el conflicts g ∧ Indicates employees seats el g v := by
  obtain ⟨hone, hnot⟩ := (satisfies_build h).1 hs
  have hexists : ∀ s ∈ seats, ∃ e ∈ employees, el.allows e.id s.id = true ∧ v ⟨e.id, s.id⟩ = true ∧
      ∀ e' ∈ employees, el.allows e'.id s.id = true → v ⟨e'.id, s.id⟩ = true → e' = e := by
    intro s hs
    have hlength := hone s hs
    rw [List.countP_map, List.countP_eq_length_filter, List.length_eq_one_iff] at hlength
    obtain ⟨e, he⟩ := hlength
    have hmem : ∀ e', e' ∈ [e] ↔ (e' ∈ employees ∧ el.allows e'.id s.id = true) ∧
        v ⟨e'.id, s.id⟩ = true := fun e' => by
      rw [← he, List.mem_filter, List.mem_filter, Function.comp_apply]
    obtain ⟨⟨hm, ha⟩, hv⟩ := (hmem e).1 List.mem_cons_self
    exact ⟨e, hm, ha, hv, fun e' hm' ha' hv' => List.mem_singleton.1 ((hmem e').2 ⟨⟨hm', ha'⟩, hv'⟩)⟩
  have : Nonempty Employee := ⟨⟨"", .null, .null, [], [], [], [], .empty⟩⟩
  choose! g hm ha hv hunique using hexists
  refine ⟨g, ⟨hm, ha, ?_⟩, ?_⟩
  · intro s hs t ht hc he
    have hgs := mem_choicesOf.2 ⟨g s, hm s hs, s, hs, ha s hs, rfl⟩
    have hgt : (⟨(g s).id, t.id⟩ : Choice) ∈ choicesOf employees seats el :=
      mem_choicesOf.2 ⟨g t, hm t ht, t, ht, ha t ht, by rw [he]⟩
    exact hnot (g s) (hm s hs) _ hc hgs hgt ⟨hv s hs, by rw [he]; exact hv t ht⟩
  · intro e he s hs hallows
    exact ⟨hunique s hs e he hallows, fun h => h ▸ hv s hs⟩

theorem satisfies_iff (h : Keyed employees seats) :
    (build employees seats el conflicts weight).Satisfies v ↔
      ∃ g, Solves employees seats el conflicts g ∧ Indicates employees seats el g v :=
  ⟨exists_of_satisfies h, fun ⟨_, hg, hv⟩ => satisfies_of_indicates h hg hv⟩

theorem awayLegsOf_eq_countP :
    awayLegsOf e s = ([s.flight.origin, s.flight.destination].countP fun airport =>
      !airport.same e.home : Nat) := by
  cases ho : s.flight.origin.same e.home <;> cases hd : s.flight.destination.same e.home <;>
    simp [awayLegsOf, ho, hd]

-- Where nobody is ever away from home, nothing is to be made small.
theorem costs_eq_nil (h : Keyed employees seats)
    (hz : ∀ e ∈ employees, ∀ s ∈ seats, el.allows e.id s.id = true → awayLegsOf e s = 0) :
    (build employees seats el conflicts weight).costs = [] := by
  have hnone : (choicesOf employees seats el).filterMap (awayLegs? employees seats) = [] := by
    rw [List.filterMap_eq_nil_iff]
    intro c hc
    obtain ⟨e, he, s, hs, ha, rfl⟩ := mem_choicesOf.1 hc
    rw [awayLegs?_eq h he hs, hz e he s hs ha]
    rfl
  simp [costs, build, ordered_choicesOf h, hnone]

-- What a model says about employees and seats that have ids of their own:
-- 1. it is satisfied by the valuations that are an owner for each seat: somebody who is eligible for it,
--    and two people for two seats in conflict
-- 2. nothing satisfies it if nobody is eligible for some seat
-- 3. with a weight, an owner for each seat costs the weight for each of the two airports of a flight that
--    is not the owner's home
-- 4. it has no costs at all if everybody would be at home at every airport
theorem build_means_owners (h : Keyed employees seats) :
    (∀ v, (build employees seats el conflicts weight).Satisfies v ↔
      ∃ g, Solves employees seats el conflicts g ∧ Indicates employees seats el g v) ∧
    ((∃ s ∈ seats, ∀ e ∈ employees, el.allows e.id s.id = false) →
      ∀ v, ¬(build employees seats el conflicts weight).Satisfies v) ∧
    (0 < weight → ∀ g v, Solves employees seats el conflicts g → Indicates employees seats el g v →
      (build employees seats el conflicts weight).objective v =
        weight * (seats.map fun s => ([s.flight.origin, s.flight.destination].countP fun airport =>
          !airport.same (g s).home : Int)).sum) ∧
    ((∀ e ∈ employees, ∀ s ∈ seats, el.allows e.id s.id = true → awayLegsOf e s = 0) →
      (build employees seats el conflicts weight).costs = []) := by
  refine ⟨fun _ => satisfies_iff h, ?_, ?_, costs_eq_nil h⟩
  · rintro ⟨s, hs, hnone⟩ v hv
    obtain ⟨g, hg, -⟩ := exists_of_satisfies h hv
    have := hnone (g s) (hg.mem s hs)
    rw [hg.allows s hs] at this
    cases this
  · intro hw g v hg hv
    rw [objective_build h hg hv hw]
    simp only [awayLegsOf_eq_countP]

-- Two seats of a flight in conflict, and two people who may take them: one of them for either seat.
theorem build_means_owners_pair : ∃ (e e' : Employee) (s t : Seat) (el : Eligibility) (g : Seat → Employee)
    (v : Choice → Bool), Keyed [e, e'] [s, t] ∧
    (build [e, e'] [s, t] el [(s.id, t.id)] 3).Satisfies v ∧
    Solves [e, e'] [s, t] el [(s.id, t.id)] g ∧ Indicates [e, e'] [s, t] el g v ∧
    (build [e, e'] [s, t] el [(s.id, t.id)] 3).objective v = 9 := by
  let e : Employee := ⟨"E", .null, .text "A", [], [], [], [], .empty⟩
  let e' : Employee := ⟨"F", .null, .text "C", [], [], [], [], .empty⟩
  let f : Flight := ⟨"1", .text "A", .text "B", ⟨0, none, by decide, by decide⟩,
    ⟨1, none, by decide, by decide⟩, .null, .null⟩
  let s : Seat := ⟨"S", f, .text "P", 0⟩
  let t : Seat := ⟨"T", f, .text "P", 1⟩
  let el : Eligibility := .ofList [(("E", "S"), true), (("E", "T"), true), (("F", "T"), true)]
  let g : Seat → Employee := fun s => if s.id = "S" then e else e'
  let v : Choice → Bool := fun c => c = ⟨"E", "S"⟩ || c = ⟨"F", "T"⟩
  have h : Keyed [e, e'] [s, t] := ⟨by decide, by decide⟩
  have hg : Solves [e, e'] [s, t] el [(s.id, t.id)] g := by
    constructor
    case mem => simp [s, t, g]
    case allows => decide
    case apart => simp [e, e', s, t, g]
  have hv : Indicates [e, e'] [s, t] el g v := by
    simp [Indicates, e, e', s, t, g, v]
  have hsatisfies : (build [e, e'] [s, t] el [(s.id, t.id)] 3).Satisfies v :=
    ((build_means_owners h).1 v).2 ⟨g, hg, hv⟩
  have hobjective := (build_means_owners h).2.2.1 (by decide : (0 : Int) < 3) g v hg hv
  exact ⟨e, e', s, t, el, g, v, h, hsatisfies, hg, hv, hobjective.trans (by decide)⟩

end Model
end CrewRoster
