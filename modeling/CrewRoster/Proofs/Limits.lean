import CrewRoster.DutyLimit
import CrewRoster.Proofs.Result
import Mathlib.Data.Int.Notation
import Mathlib.Data.Nat.Notation

namespace CrewRoster

variable {rules : DutyLimits} {t : Clock} {legs : ℕ}

theorem Clock.le_of_naive {a b : Clock} (ha : a.zone = none) (hb : b.zone = none) :
    a.le b = decide (a.micros ≤ b.micros) := by
  rw [Bool.eq_iff_iff, decide_eq_true_eq]
  simp only [le, universal, ha, hb, Option.elim_none, Span.second, Span, Bool.or_eq_true, Bool.and_eq_true,
    decide_eq_true_eq]
  omega

-- The first rule in which a time of day falls, in microseconds, or else the first rule of all.
def DutyLimits.ruleAt (rules : DutyLimits) (time : ℤ) : Option DutyLimit :=
  (rules.find? fun r => r.start.micros ≤ time ∧ time ≤ r.finish.micros).or rules.head?

-- A rule has a limit for up to two legs, and one for each number of legs above. Where there is none it is
-- nine hours.
def DutyLimits.limitAt (rules : DutyLimits) (time : ℤ) (legs : ℕ) : Span :=
  ((rules.ruleAt time).bind fun r => (r.limits[if legs ≤ 2 then 0 else legs - 2]?).join).getD
    (9 * Span.hour)

theorem DutyLimit.covers_eq {rule : DutyLimit} (hs : rule.start.zone = none)
    (hf : rule.finish.zone = none) (ht : t.zone = none) :
    rule.covers t = .ok (decide (rule.start.micros ≤ t.micros ∧ t.micros ≤ rule.finish.micros)) := by
  simp only [covers, Clock.le?, hs, hf, ht, if_true, Result.ok_bind, Clock.le_of_naive,
    decide_eq_true_eq]
  split
  case isTrue h => simp [h]
  case isFalse h => simp [h]; rfl

theorem DutyLimits.firstCovering_eq (ht : t.zone = none)
    (h : ∀ rule ∈ rules, rule.start.zone = none ∧ rule.finish.zone = none) :
    firstCovering t rules =
      .ok (rules.find? fun r => r.start.micros ≤ t.micros ∧ t.micros ≤ r.finish.micros) := by
  induction rules with
  | nil => rfl
  | cons rule rules ih =>
    obtain ⟨⟨hs, hf⟩, hrules⟩ := List.forall_mem_cons.1 h
    rw [firstCovering, DutyLimit.covers_eq hs hf ht, Result.ok_bind, List.find?_cons, ih hrules]
    by_cases hcovers : rule.start.micros ≤ t.micros ∧ t.micros ≤ rule.finish.micros
    · simp [hcovers]
      rfl
    · simp [hcovers]

theorem DutyLimit.slot_natCast (legs : ℕ) : slot legs = if legs ≤ 2 then 0 else legs - 2 := by
  rw [slot]
  split <;> split <;> omega

theorem DutyLimits.mem_of_ruleAt {time : ℤ} {rule : DutyLimit} (h : rules.ruleAt time = some rule) :
    rule ∈ rules := by
  rcases Option.or_eq_some_iff.1 h with h | ⟨-, h⟩
  · exact List.mem_of_find?_eq_some h
  · exact List.mem_of_head? h

theorem DutyLimits.limitAt_eq (rules : DutyLimits) (time : ℤ) (legs : ℕ) :
    rules.limitAt time legs = (rules.ruleAt time).elim DutyLimit.fallback (·.limitFor legs) := by
  rw [limitAt]
  cases rules.ruleAt time with
  | none => rfl
  | some r =>
    rw [Option.elim_some, Option.bind_some, DutyLimit.limitFor, DutyLimit.slot_natCast]
    rfl

theorem DutyLimits.limitFor_eq (ht : t.zone = none)
    (h : ∀ rule ∈ rules, rule.start.zone = none ∧ rule.finish.zone = none) :
    rules.limitFor t legs = .ok (rules.limitAt t.micros legs) := by
  have hrule : rules.ruleFor t = .ok (rules.ruleAt t.micros) := by
    rw [ruleFor, firstCovering_eq ht h, ruleAt]
    cases rules.find? fun r => r.start.micros ≤ t.micros ∧ t.micros ≤ r.finish.micros <;> rfl
  rw [limitFor, hrule, Result.ok_bind, limitAt_eq]
  rfl

end CrewRoster
