import CrewRoster.Completion
import CrewRoster.Proofs.Model
import Mathlib.Data.List.Sublists

namespace CrewRoster

variable {v v' : Choice → Bool}

-- A valuation counts only for what it is asked about: two that agree on it are worth the same.
theorem Linear.value_congr {terms : List (Int × Option Choice)}
    (h : ∀ p ∈ terms, ∀ c ∈ p.2, v c = v' c) : value terms v = value terms v' := by
  rw [value_eq_sum, value_eq_sum]
  refine congrArg List.sum (List.map_congr_left fun p hp => ?_)
  obtain ⟨coefficient, c⟩ := p
  cases c with
  | none => rfl
  | some c => simp only [Option.any_some, h _ hp c rfl]

theorem Linear.holds_congr {l : Linear} (h : ∀ p ∈ l.terms, ∀ c ∈ p.2, v c = v' c) :
    l.Holds v ↔ l.Holds v' := by
  rw [Holds, Holds, value_congr h]

theorem Constraint.mem_order {order : List Choice} {k : Constraint} {p : Int × Option Choice}
    {c : Choice} (hp : p ∈ (k.linear order).terms) (hc : c ∈ p.2) : c ∈ order := by
  have hsum : ∀ choices, p ∈ Linear.sum order choices → c ∈ order := by
    intro choices hm
    obtain ⟨d, hd, rfl⟩ := List.mem_map.1 hm
    obtain rfl := Option.some.inj hc
    exact (List.mem_filter.1 hd).1
  cases k with
  | exactlyOne choices =>
    cases choices with
    | nil =>
      obtain rfl := List.mem_singleton.1 hp
      cases hc
    | cons => exact hsum _ hp
  | notBoth => exact hsum _ hp

namespace Model

variable {m : Model}

-- All that a model asks a valuation about.
def asked (m : Model) : List Choice := m.created ++ m.awayLegs.map (·.2)

theorem satisfies_congr (h : ∀ c ∈ m.asked, v c = v' c) : m.Satisfies v ↔ m.Satisfies v' := by
  refine forall₂_congr fun l hl => Linear.holds_congr fun p hp c hc => ?_
  obtain ⟨k, -, rfl⟩ := List.mem_map.1 hl
  have hc := Constraint.mem_order hp hc
  rw [order, ordered, List.mem_reverse, List.mem_eraseDups, List.mem_reverse] at hc
  exact h c (List.mem_append_left _ hc)

theorem objective_congr (h : ∀ c ∈ m.asked, v c = v' c) : m.objective v = m.objective v' := by
  rw [objective_eq_sum, objective_eq_sum]
  refine congrArg List.sum (List.map_congr_left fun p hp => ?_)
  obtain ⟨q, hq, rfl⟩ := List.mem_map.1 hp
  rw [h q.2 (List.mem_append_right _ (List.mem_map_of_mem hq))]

instance (m : Model) (v : Choice → Bool) : Decidable (m.Satisfies v) :=
  inferInstanceAs (Decidable (∀ l ∈ m.linear, l.Holds v))

end Model

namespace Solver

variable {solver : Solver}

-- What the solver answers with satisfies the model.
def Sound (solver : Solver) : Prop :=
  ∀ m chosen, solver m = .ok (.solved chosen) ∨ solver m = .ok (.satisfied chosen) →
    m.Satisfies chosen.contains

-- The solver decides every model:
-- 1. where there is a solution it answers with one, and with one that costs least if it says so
-- 2. where there is none it says that there is none
structure Exact (solver : Solver) : Prop where
  found : ∀ m v, m.Satisfies v → ∃ chosen, m.Satisfies chosen.contains ∧
    (solver m = .ok (.satisfied chosen) ∨ solver m = .ok (.solved chosen) ∧
      ∀ v', m.Satisfies v' → m.objective chosen.contains ≤ m.objective v')
  none : ∀ m, (∀ v, ¬m.Satisfies v) → solver m = .ok .infeasible

theorem Exact.sound (h : solver.Exact) : solver.Sound := by
  intro m chosen hs
  by_cases hm : ∃ v, m.Satisfies v
  · obtain ⟨v, hv⟩ := hm
    obtain ⟨chosen', hsat, ha⟩ := h.found m v hv
    rcases ha with ha | ⟨ha, -⟩ <;> rcases hs with hs | hs <;> rw [ha] at hs <;> cases hs <;> exact hsat
  · rw [h.none m (by simpa using hm)] at hs
    simp at hs

-- The choices that satisfy a model, out of all that can be made, by what they cost.
def solutions (m : Model) : List (List Choice) :=
  (m.asked.sublists.filter fun chosen => m.Satisfies chosen.contains).mergeSort fun a b =>
    m.objective a.contains ≤ m.objective b.contains

-- Tries all choices and takes the cheapest.
def exhaustive : Solver := fun m =>
  match solutions m with
  | best :: _ => .ok (.solved best)
  | [] => .ok .infeasible

theorem mem_solutions {m : Model} {chosen : List Choice} : chosen ∈ solutions m ↔
    chosen ∈ m.asked.sublists ∧ m.Satisfies chosen.contains := by
  rw [solutions, List.mem_mergeSort, List.mem_filter, decide_eq_true_eq]

theorem solutions_ordered (m : Model) : (solutions m).Pairwise fun a b =>
    m.objective a.contains ≤ m.objective b.contains := by
  have hordered := @List.pairwise_mergeSort _
    (fun a b : List Choice => decide (m.objective a.contains ≤ m.objective b.contains))
    (fun a b c hab hbc => decide_eq_true ((of_decide_eq_true hab).trans (of_decide_eq_true hbc)))
    (fun a b => by simpa using le_total (m.objective a.contains) (m.objective b.contains))
    (m.asked.sublists.filter fun chosen => m.Satisfies chosen.contains)
  exact hordered.imp of_decide_eq_true

-- The choices that a valuation makes are worth what the valuation is worth.
theorem exists_mem_solutions {m : Model} {v : Choice → Bool} (h : m.Satisfies v) :
    ∃ chosen ∈ solutions m, m.objective chosen.contains = m.objective v := by
  have hagree : ∀ c ∈ m.asked, (m.asked.filter v).contains c = v c := by
    intro c hc
    rw [Bool.eq_iff_iff, List.contains_iff_mem, List.mem_filter]
    exact and_iff_right hc
  refine ⟨m.asked.filter v, mem_solutions.2 ⟨?_, ?_⟩, Model.objective_congr hagree⟩
  · exact List.mem_sublists.2 List.filter_sublist
  · exact (Model.satisfies_congr hagree).2 h

theorem exhaustive_exact : exhaustive.Exact := by
  constructor
  case found =>
    intro m v hv
    obtain ⟨chosen, hchosen, -⟩ := exists_mem_solutions hv
    have hordered := solutions_ordered m
    cases hs : solutions m with
    | nil =>
      rw [hs] at hchosen
      cases hchosen
    | cons best others =>
      have hbest : best ∈ solutions m := by simp [hs]
      refine ⟨best, (mem_solutions.1 hbest).2, .inr ⟨by simp only [exhaustive, hs], fun v' hv' => ?_⟩⟩
      obtain ⟨other, hother, hworth⟩ := exists_mem_solutions hv'
      rw [hs, List.pairwise_cons] at hordered
      rw [hs, List.mem_cons] at hother
      rw [← hworth]
      rcases hother with rfl | hother
      · exact le_rfl
      · exact hordered.1 other hother
  case none =>
    intro m hm
    have hnil : solutions m = [] :=
      List.eq_nil_iff_forall_not_mem.2 fun chosen hc => hm _ (mem_solutions.1 hc).2
    simp only [exhaustive, hnil]

end Solver
end CrewRoster
