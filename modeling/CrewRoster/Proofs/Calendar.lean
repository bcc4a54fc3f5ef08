import CrewRoster.Employee
import Mathlib.Data.List.Nodup

namespace CrewRoster

theorem Date.mem_range {first last day : Date} (h : day ∈ Date.range first last) :
    first ≤ day ∧ day ≤ last := by
  obtain ⟨i, hi, hday⟩ := List.mem_filterMap.1 h
  have hnumber := Date.number_of_ofNumber? hday
  have hi := List.mem_range.1 hi
  rw [Date.le_def, Date.le_def]
  omega

theorem Date.ofNumber?_number (d : Date) : ofNumber? d.number = some d :=
  dif_pos ⟨d.one_le, d.le_last⟩

theorem Date.mem_range_iff {first last day : Date} :
    day ∈ Date.range first last ↔ first ≤ day ∧ day ≤ last := by
  refine ⟨mem_range, fun ⟨hfirst, hlast⟩ => ?_⟩
  rw [Date.le_def] at hfirst hlast
  refine List.mem_filterMap.2 ⟨(day.number - first.number).toNat, List.mem_range.2 (by omega), ?_⟩
  have hnumber : first.number + ((day.number - first.number).toNat : Int) = day.number := by omega
  rw [hnumber, ofNumber?_number]

namespace Calendar

variable {c : Calendar} {d : Duty} {x : Date × Duty} {day day' first last : Date} {employee : String}

theorem nodup_dates (c : Calendar) : c.dates.Nodup :=
  List.pairwise_map.2 (c.ordered.imp Date.ne_of_lt)

theorem dutyOn_eq_some : c.dutyOn day = some d ↔ (day, d) ∈ c.entries := by
  rw [dutyOn, Option.map_eq_some_iff]
  constructor
  · rintro ⟨⟨day', d'⟩, hx, rfl⟩
    obtain rfl : day' = day := by simpa using List.find?_some hx
    exact List.mem_of_find?_eq_some hx
  · intro hx
    obtain ⟨y, hy⟩ := Option.isSome_iff_exists.1
      (List.find?_isSome.2 ⟨_, hx, by simp⟩ : (c.entries.find? (·.1 = day)).isSome)
    have hday : y.1 = day := by simpa using List.find?_some hy
    have hsame : y = (day, d) := List.inj_on_of_nodup_map c.nodup_dates (List.mem_of_find?_eq_some hy) hx hday
    exact ⟨y, hy, congrArg Prod.snd hsame⟩

theorem dutyOn_eq_none : c.dutyOn day = none ↔ day ∉ c.dates := by
  simp only [dutyOn, dates, Option.map_eq_none_iff, List.find?_eq_none, List.mem_map, not_exists, not_and,
    decide_eq_true_eq]

theorem mem_duties : d ∈ c.duties ↔ ∃ day, c.dutyOn day = some d := by
  simp [duties, dutyOn_eq_some]

theorem mem_putOn : x ∈ (c.putOn day d).entries ↔ x = (day, d) ∨ x ∈ c.entries ∧ x.1 ≠ day := by
  simp only [putOn, List.mem_append, List.mem_cons]
  constructor
  · rintro (h | rfl | h)
    · exact .inr ⟨(List.takeWhile_sublist _).mem h, fun he =>
        Int.lt_irrefl _ (he ▸ lt_of_mem_takeWhile h)⟩
    · exact .inl rfl
    · exact .inr ⟨(List.dropWhile_sublist _).mem h, fun he =>
        Int.lt_irrefl _ (he ▸ lt_of_mem_dropWhile c.ordered h)⟩
  · rintro (rfl | ⟨h, hn⟩)
    · exact .inr (.inl rfl)
    · -- another entry stands in front of the place of `day` or behind it, as its date is
      by_cases hlt : x.1 < day
      · rw [← List.takeWhile_append_dropWhile (p := (·.1 < day)) (l := c.entries)] at h
        refine .inl ((List.mem_append.1 h).resolve_right fun hd => ?_)
        exact not_of_mem_dropWhile (fun x y hxy hy => decide_eq_true
          (Int.lt_trans hxy (of_decide_eq_true hy))) c.ordered hd (decide_eq_true hlt)
      · rw [← List.takeWhile_append_dropWhile (p := (·.1 ≤ day)) (l := c.entries)] at h
        refine .inr (.inr ((List.mem_append.1 h).resolve_left fun ht => ?_))
        have hle := of_decide_eq_true (List.all_eq_true.1 List.all_takeWhile x ht)
        rw [Date.le_def] at hle
        rw [Date.lt_def] at hlt
        exact hn (Date.ext (by omega))

theorem dutyOn_putOn : (c.putOn day d).dutyOn day' = if day' = day then some d else c.dutyOn day' := by
  ext a
  rw [dutyOn_eq_some, mem_putOn, Prod.mk.injEq]
  split
  case isTrue h => simp [h, eq_comm]
  case isFalse h => simp [h, dutyOn_eq_some]

theorem mem_cover : x ∈ (c.cover employee first last).entries ↔
    x ∈ c.entries ∨ ∃ day ∈ Date.range first last, day ∉ c.dates ∧ x = (day, .placeholder employee day) := by
  simp only [cover, List.mem_merge, List.mem_map, mem_freeDays]
  constructor
  · rintro (h | ⟨day, ⟨hr, hn⟩, rfl⟩)
    · exact .inl h
    · exact .inr ⟨day, hr, hn, rfl⟩
  · rintro (h | ⟨day, hr, hn, rfl⟩)
    · exact .inl h
    · exact .inr ⟨day, ⟨hr, hn⟩, rfl⟩

theorem dutyOn_cover :
    (c.cover employee first last).dutyOn day =
      (c.dutyOn day).or
        (if day ∈ Date.range first last then some (.placeholder employee day) else none) := by
  cases h : c.dutyOn day with
  | some d => exact dutyOn_eq_some.2 (mem_cover.2 (.inl (dutyOn_eq_some.1 h)))
  | none =>
    have hn := dutyOn_eq_none.1 h
    rw [Option.none_or]
    split
    case isTrue hr => exact dutyOn_eq_some.2 (mem_cover.2 (.inr ⟨day, hr, hn, rfl⟩))
    case isFalse hr =>
      rw [dutyOn_eq_none, dates, List.mem_map]
      rintro ⟨x, hx, rfl⟩
      rcases mem_cover.1 hx with hx | ⟨day, hd, -, rfl⟩
      · exact hn (List.mem_map_of_mem hx)
      · exact hr hd

-- Every duty stands under its own date.
def Dated (c : Calendar) : Prop := ∀ day d, c.dutyOn day = some d → d.date = day

namespace Dated

variable (h : c.Dated)
include h

theorem dutyOn_date (hd : d ∈ c.duties) : c.dutyOn d.date = some d := by
  obtain ⟨day, hd⟩ := mem_duties.1 hd
  rw [h day d hd, hd]

theorem map_filter (p : Date → Bool) :
    (c.entries.filter fun x => p x.1).map (·.2) = c.duties.filter fun d => p d.date := by
  rw [duties, List.filter_map]
  refine congrArg _ (List.filter_congr fun x hx => ?_)
  rw [Function.comp_apply, h _ _ (dutyOn_eq_some.2 hx)]

theorem pairwise_date : c.duties.Pairwise fun a b => a.date < b.date :=
  List.pairwise_map.2 (c.ordered.imp_of_mem fun hx hy hlt => by
    rwa [h _ _ (dutyOn_eq_some.2 hx), h _ _ (dutyOn_eq_some.2 hy)])

end Dated

section Seats

variable {s : Seat}

theorem mem_seats : s ∈ c.seats ↔ ∃ day d, c.dutyOn day = some d ∧ s ∈ d.seats := by
  simp only [seats, List.mem_flatMap, mem_duties]
  constructor
  · rintro ⟨d, ⟨day, hd⟩, hs⟩
    exact ⟨day, d, hd, hs⟩
  · rintro ⟨day, d, hd, hs⟩
    exact ⟨d, ⟨day, hd⟩, hs⟩

theorem seatCount_eq (c : Calendar) : c.seatCount = c.seats.length := by
  rw [seats, List.length_flatMap, List.sum_eq_foldr, List.foldr_map]
  rfl

theorem firstSeat_eq (c : Calendar) : c.firstSeat = c.seats.head? :=
  List.head?_flatMap.symm

theorem lastSeat_eq (c : Calendar) : c.lastSeat = c.seats.getLast? :=
  List.getLast?_flatMap.symm

end Seats

end Calendar

end CrewRoster
