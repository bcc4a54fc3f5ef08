import CrewRoster.Flight
import CrewRoster.Proofs.Minutes
import CrewRoster.Proofs.NearestEven

namespace CrewRoster.Span

variable {s : ℤ} {rnd : ℚ → ℚ}

theorem minutesBelow_eq_floor (s : ℤ) : minutesBelow s = ⌊seconds s / 60⌋ :=
  rfl

-- Counting downward, the quotient of the seconds is not rounded again.
theorem minutesBelow_eq_tdiv (h : 0 ≤ s) (hs : s ≤ 2 ^ 53) : minutesBelow s = s.tdiv minute := by
  have hpos : 0 < (minute : ℤ) := by decide
  obtain ⟨n, hn⟩ : ∃ n, n = s / minute := ⟨_, rfl⟩
  have hlow : 0 ≤ n := hn ▸ Int.ediv_nonneg h hpos.le
  have hhigh : n + 1 ≤ 2 ^ 28 := by
    rw [hn, minute_eq]
    omega
  rw [Int.tdiv_eq_ediv_of_nonneg h, ← hn, minutesBelow_eq_floor, Int.floor_eq_iff]
  constructor
  · rw [le_div_iff₀ (by norm_num), mul_comm, ← seconds_mul (abs_le.2 ⟨by omega, by omega⟩)]
    exact seconds_mono (hn ▸ Int.ediv_mul_le s hpos.ne')
  · have hmiddle := seconds_le_middle (by omega) hhigh (hn ▸ Int.lt_ediv_add_one_mul_self s hpos)
    push_cast at hmiddle
    norm_num at hmiddle
    rw [div_lt_iff₀ (by norm_num)]
    linarith

section Rounding

variable (hrnd : ∀ q, RoundsTo q (rnd q))
include hrnd

-- There is only one way to round, so what is counted does not depend on how it is done.
theorem seconds_eq (s : ℤ) : seconds s = rnd (s / 10 ^ 6) := by
  have hsecond : ((second : ℤ) : ℚ) = 10 ^ 6 := by norm_num [second]
  rw [seconds, hsecond]
  exact (RoundsTo.nearest _).unique (hrnd _)

theorem minutes_eq_truncate (s : ℤ) : minutes s = truncate (rnd (rnd (s / 10 ^ 6) / 60)) := by
  rw [minutes, seconds_eq hrnd, (RoundsTo.nearest _).unique (hrnd _)]

-- For a span of no more than `2 ^ 53` microseconds, of either sign, the seconds and then the minutes are
-- rounded to doubles without a trace: what is counted is the whole minutes of the span. The minutes of a
-- flight are counted downward, which comes to the same.
theorem minutes_exact (hs : |s| ≤ 2 ^ 53) :
    minutes s = truncate (rnd (rnd (s / 10 ^ 6) / 60)) ∧
    truncate (rnd (rnd (s / 10 ^ 6) / 60)) = s.tdiv 60000000 ∧
    (0 ≤ s → ⌊rnd (s / 10 ^ 6) / 60⌋ = s.tdiv 60000000 ∧
      ∀ f : Flight, f.arrival.minus f.departure = .ok s →
        f.minutes = .ok ⌊rnd (s / 10 ^ 6) / 60⌋ ∧ f.minutes = .ok (minutes s)) := by
  have htruncate := minutes_eq_truncate hrnd s
  have hexact : minutes s = s.tdiv 60000000 := minutes_eq_tdiv hs
  refine ⟨htruncate, htruncate.symm.trans hexact, fun hnonneg => ?_⟩
  have hfloor : minutesBelow s = ⌊rnd (s / 10 ^ 6) / 60⌋ := by
    rw [minutesBelow_eq_floor, seconds_eq hrnd]
  have hbelow : minutesBelow s = s.tdiv 60000000 := minutesBelow_eq_tdiv hnonneg (abs_le.1 hs).2
  refine ⟨hfloor.symm.trans hbelow, fun f hf => ?_⟩
  have hminutes : f.minutes = .ok (minutesBelow s) := by
    rw [Flight.minutes, hf]
    rfl
  exact ⟨hfloor ▸ hminutes, hexact ▸ hbelow ▸ hminutes⟩

end Rounding

-- After 285 years, a microsecond short of the next whole minute: one way, the other way, and on a flight.
theorem minutes_exact_centuries : ∃ f : Flight, f.arrival.minus f.departure = .ok 9007199219999999 ∧
    (∀ q, RoundsTo q (nearest q)) ∧ |(9007199219999999 : ℤ)| ≤ 2 ^ 53 ∧
    minutes 9007199219999999 = 150119986 ∧ minutes (-9007199219999999) = -150119986 ∧
    f.minutes = .ok 150119986 := by
  have hlong : |(9007199219999999 : ℤ)| ≤ 2 ^ 53 := by norm_num
  obtain ⟨htruncate, hexact, hflight⟩ := minutes_exact .nearest hlong
  obtain ⟨htruncate', hexact', -⟩ := minutes_exact .nearest (by rwa [abs_neg])
  have hminutes : minutes 9007199219999999 = 150119986 := htruncate.trans hexact
  refine ⟨⟨"1", .text "A", .text "A", ⟨0, none, by decide, by decide⟩,
    ⟨9007199219999999, none, by decide, by decide⟩, .text "", .text ""⟩, by decide, .nearest, hlong, hminutes,
    htruncate'.trans hexact', ?_⟩
  rw [← hminutes]
  exact ((hflight (by norm_num)).2 _ (by decide)).2

end CrewRoster.Span
