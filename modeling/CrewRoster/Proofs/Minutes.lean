import CrewRoster.Proofs.Rounding
import CrewRoster.Time.Span
import Mathlib.Tactic.NormNum

namespace CrewRoster.Span

variable {s t n : ℤ}

theorem second_eq : ((second : ℤ) : ℚ) = 1000000 := by norm_num [second]

theorem minute_eq : (minute : ℤ) = 60000000 := by decide

theorem seconds_mono (h : s ≤ t) : seconds s ≤ seconds t :=
  nearest_mono (div_le_div_of_nonneg_right (Int.cast_le.2 h) (by rw [second_eq]; norm_num))

theorem minutes_mono (h : s ≤ t) : minutes s ≤ minutes t :=
  truncate_mono (nearest_mono (div_le_div_of_nonneg_right (seconds_mono h) (by norm_num)))

-- Doubles hold the seconds of whole minutes exactly.
theorem seconds_mul (h : |n| ≤ 2 ^ 47) : seconds (n * minute) = 60 * n := by
  have hshort : IsShort (60 * n : ℤ) := .ofInt <| by
    rw [abs_mul]
    exact (mul_le_mul_of_nonneg_left h (abs_nonneg _)).trans (by norm_num)
  have hseconds := hshort.nearest_eq_self
  push_cast at hseconds
  rw [seconds, second_eq, minute_eq, ← hseconds]
  congr 1
  push_cast
  ring

theorem minutes_mul (h : |n| ≤ 2 ^ 47) : minutes (n * minute) = n := by
  have hshort : IsShort (n : ℤ) := .ofInt (h.trans (by norm_num))
  rw [minutes, seconds_mul h, mul_div_cancel_left₀ _ (by norm_num), hshort.nearest_eq_self,
    truncate_intCast]

section Centuries

variable (hpos : 0 < n) (hn : n ≤ 2 ^ 28)
include hpos hn

-- A microsecond less than some minutes is more than half a step between doubles, of seconds and then of
-- minutes, unless it is a matter of centuries.
theorem seconds_le_middle (h : s < n * minute) :
    seconds s ≤ ((60 * 2 ^ 19 * n : ℤ) - 1 / 2) * 2 ^ (-19 : ℤ) := by
  have hn : (n : ℚ) ≤ 2 ^ 28 := by exact_mod_cast hn
  have hle : (s : ℚ) ≤ n * 60000000 - 1 := by
    exact_mod_cast Int.le_sub_one_of_lt (minute_eq ▸ h)
  refine nearest_le_middle (by positivity) ?_ ?_ <;> rw [second_eq, div_lt_iff₀ (by norm_num)]
  · norm_num
    linarith
  · push_cast
    norm_num
    linarith

-- So less than some minutes is not so many.
theorem le_minutes_iff : n ≤ minutes s ↔ n * minute ≤ s := by
  constructor
  · contrapose!
    intro hlt
    have hseconds := seconds_le_middle hpos hn hlt
    have hn : (n : ℚ) ≤ 2 ^ 28 := by exact_mod_cast hn
    have hminutes : nearest (seconds s / 60) ≤ ((2 ^ 25 * n : ℤ) - 1 / 2) * 2 ^ (-25 : ℤ) := by
      push_cast at hseconds
      norm_num at hseconds
      refine nearest_le_middle (by positivity) ?_ ?_ <;> rw [div_lt_iff₀ (by norm_num)]
      · norm_num
        linarith
      · push_cast
        norm_num
        linarith
    push_cast at hminutes
    norm_num at hminutes
    exact Int.lt_of_le_sub_one (truncate_le (by push_cast; linarith) (by omega))
  · intro hle
    rw [← minutes_mul (n := n) (abs_le.2 ⟨by omega, by omega⟩)]
    exact minutes_mono hle

end Centuries

theorem minutes_pos_iff : 0 < minutes s ↔ minute ≤ s := by
  have := le_minutes_iff (s := s) zero_lt_one (by norm_num)
  rwa [one_mul] at this

theorem seconds_neg (s : ℤ) : seconds (-s) = -seconds s := by
  rw [seconds, seconds, ← nearest_neg, ← neg_div, Int.cast_neg]

theorem minutes_neg (s : ℤ) : minutes (-s) = -minutes s := by
  rw [minutes, minutes, ← truncate_neg, ← nearest_neg, ← neg_div, seconds_neg]

-- For no more than centuries nothing is lost to the doubles.
theorem minutes_eq_tdiv (h : |s| ≤ 2 ^ 53) : minutes s = s.tdiv minute := by
  wlog hs : 0 ≤ s generalizing s
  · have := this (s := -s) (by rwa [abs_neg]) (by omega)
    rwa [minutes_neg, Int.neg_tdiv, neg_inj] at this
  have hpos : 0 < (minute : ℤ) := by decide
  have hlow : 0 ≤ s / minute := Int.ediv_nonneg hs hpos.le
  have hhigh : s / minute + 1 ≤ 2 ^ 28 := by
    rw [abs_of_nonneg hs] at h
    rw [minute_eq]
    omega
  rw [Int.tdiv_eq_ediv_of_nonneg hs]
  refine le_antisymm (Int.lt_add_one_iff.1 (not_le.1 fun hle => ?_)) ?_
  · exact absurd ((le_minutes_iff (by omega) hhigh).1 hle) (Int.lt_ediv_add_one_mul_self s hpos).not_ge
  · rcases hlow.eq_or_lt with hzero | hlow
    · have hmono := minutes_mono hs
      rwa [← zero_mul minute, minutes_mul (by norm_num), hzero] at hmono
    · exact (le_minutes_iff hlow (by omega)).2 (Int.ediv_mul_le s hpos.ne')

theorem minutes_eq_ediv (h : 0 ≤ s) (hs : s < 2 ^ 53) : minutes s = s / minute := by
  rw [minutes_eq_tdiv (by rw [abs_of_nonneg h]; exact hs.le), Int.tdiv_eq_ediv_of_nonneg h]

theorem minutes_add_mul (h : 0 ≤ s) (hn : 0 ≤ n) (hs : s + n * minute < 2 ^ 53) :
    minutes (s + n * minute) = minutes s + n := by
  have hmul : 0 ≤ n * minute := mul_nonneg hn (by decide)
  rw [minutes_eq_ediv (add_nonneg h hmul) hs, minutes_eq_ediv h (by omega),
    Int.add_mul_ediv_right _ _ (by decide)]

-- There is a whole number of minutes between two spans that are far enough apart.
theorem minutes_lt_of_add_le (h : s + 2 * minute ≤ t) (ht : |t| ≤ 2 ^ 60) : minutes s < minutes t := by
  obtain ⟨k, hk, hlow, hhigh⟩ : ∃ k : ℤ, |k| ≤ 2 ^ 46 ∧ k * minute ≤ t ∧ s ≤ (k - 1) * minute := by
    obtain ⟨hmin, hmax⟩ := abs_le.1 ht
    refine ⟨t / 60000000, abs_le.2 ⟨?_, ?_⟩, ?_, ?_⟩
    all_goals
      simp only [minute_eq, Span] at *
      omega
  have hk' : |k - 1| ≤ 2 ^ 47 := by
    obtain ⟨hmin, hmax⟩ := abs_le.1 hk
    exact abs_le.2 ⟨by omega, by omega⟩
  calc minutes s ≤ minutes ((k - 1) * minute) := minutes_mono hhigh
    _ = k - 1 := minutes_mul hk'
    _ < k := sub_one_lt k
    _ = minutes (k * minute) := (minutes_mul (hk.trans (by norm_num))).symm
    _ ≤ minutes t := minutes_mono hlow

-- The whole minutes in a span are no more than its microseconds.
section Bounds

variable (h : |s| ≤ 2 ^ 100)
include h

theorem abs_seconds_le : |seconds s| ≤ 2 ^ (100 : ℤ) := by
  have hs : |(s : ℚ)| ≤ 2 ^ 100 := by exact_mod_cast h
  refine (IsShort.zpow 100).abs_nearest_le ?_
  rw [second_eq, abs_div, div_le_iff₀ (by norm_num)]
  exact hs.trans (by norm_num)

theorem abs_seconds_div_le : |seconds s / 60| ≤ 2 ^ (100 : ℤ) := by
  rw [abs_div, div_le_iff₀ (by norm_num)]
  exact (abs_seconds_le h).trans (by norm_num)

theorem abs_minutes_le : |minutes s| ≤ 2 ^ 100 := by
  have := (IsShort.zpow 100).abs_nearest_le (abs_seconds_div_le h)
  exact abs_truncate_le (by exact_mod_cast this)

theorem abs_minutesBelow_le : |minutesBelow s| ≤ 2 ^ 100 := by
  obtain ⟨hlow, hhigh⟩ := abs_le.1 (abs_seconds_div_le h)
  refine abs_le.2 ⟨Int.le_floor.2 (by exact_mod_cast hlow), ?_⟩
  have hfloor : ((seconds s / 60).floor : ℚ) ≤ 2 ^ 100 :=
    (Int.floor_le (seconds s / 60)).trans (by exact_mod_cast hhigh)
  exact_mod_cast hfloor

end Bounds

end CrewRoster.Span
