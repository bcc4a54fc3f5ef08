import CrewRoster.Proofs.Figures
import CrewRoster.Proofs.Registry
import CrewRoster.Proofs.Tables

namespace CrewRoster

open Result (Yields)

theorem Reference.mul_taxiLimit_le {n : ℕ} (h : n ≤ 2 ^ 64) : n * taxiLimit ≤ Document.wholeLimit := by
  have hn : (n : ℤ) ≤ 2 ^ 64 := by exact_mod_cast h
  calc n * taxiLimit ≤ 2 ^ 64 * taxiLimit := mul_le_mul_of_nonneg_right hn (pow_nonneg zero_le_two _)
    _ = 2 ^ (64 + 900) := (pow_add _ _ _).symm
    _ ≤ Document.wholeLimit := pow_le_pow_right₀ one_le_two (by decide)

-- How large the figures in the row of a duty are. What the points for home are is left open.
structure DutyRow.Measures (row : DutyRow) (d : Duty) (P : ℤ → Prop) : Prop where
  code : row.code = some Duty.flightCode
  legs : row.legs = d.legs
  home : P row.homePoints
  block : |row.blockMinutes| ≤ 2 ^ 100
  period : |row.periodMinutes| ≤ 2 ^ 100
  limit : |row.limitMinutes| ≤ 2 ^ 100
  points : |row.pointsOverLimit| ≤ 2 ^ 100
  lack : |row.restLack| ≤ 2 ^ 100
  overlap : |row.groundOverlap| ≤ 2 ^ 100

theorem Employee.Within.dutyRow_yields {r : Roster} {e : Employee} {d : Duty} {settings : ReportSettings}
    {P : ℤ → Prop} (h : e.Within) (hlimits : DutyLimits.Usable r.reference.limits)
    (hd : d ∈ e.calendar.duties) (hf : d.isFlightDuty = true)
    (hhome : Yields (d.homePoints e r.reference) P) :
    Yields (DutyRow.ofDuty settings r e d) fun row => row.Measures d P := by
  have hduty := h.duties d hd
  obtain ⟨first, last, hfirst, hlast⟩ := Duty.exists_ends (d := d) (by simpa [Duty.isFlightDuty] using hf)
  obtain ⟨⟨start, -, hstart⟩, -, -, hcode⟩ := hduty.current.flown first hfirst last hlast
  rw [DutyRow.ofDuty, hstart]
  refine hduty.flightDutyPeriod_yields.bind fun period hperiod => ?_
  refine (Yields.ok rfl : Yields (.ok start) (· = start)).bind fun t ht => ?_
  subst ht
  refine (hduty.periodLimit_yields hlimits hf hstart _).bind fun limit hlimit => ?_
  refine hduty.blockMinutes_yields.bind fun block hblock => ?_
  refine (hduty.pointsOverLimit_yields hlimits _).bind fun points hpoints => ?_
  refine (h.dayAfter_yields hd).bind fun next hnext => ?_
  refine (hduty.restLack_yields hnext e).bind fun lack hlack => ?_
  refine hhome.bind fun home hhome => ?_
  refine hduty.groundOverlapMinutes_yields.bind fun overlap hoverlap => ?_
  refine hduty.isDayBeforeOffOrGround_yields.bind fun isBefore _ => ?_
  refine hduty.isDayAfterOffOrGround_yields.bind fun isAfter _ => ?_
  refine (h.dayBefore_yields hd).bind fun previous hprevious => ?_
  refine (hduty.noLocalNight_yields hprevious).bind fun isShort _ => .ok ?_
  refine ⟨hcode, rfl, hhome, hblock, ?_, Span.abs_minutes_le hlimit.1, hpoints, hlack, hoverlap⟩
  cases period with
  | none => exact (by decide : |(0 : ℤ)| ≤ 2 ^ 100)
  | some s => exact Span.abs_minutes_le ((hperiod s rfl).trans (by decide))

-- What a roster has to be for its report. The seats of an employee are not too many to be counted.
structure Roster.Within (r : Roster) : Prop where
  reference : r.reference.Usable
  employees : ∀ e ∈ r.employees.values, e.Within
  texts : ∀ e ∈ r.employees.values, (TableValue.label e.name).Fits ∧ (TableValue.label e.home).Fits
  seats : ∀ e ∈ r.employees.values, e.seats.length ≤ 2 ^ 64

namespace Roster.Within

variable {r : Roster} {e : Employee} {d : Duty} {n : ℤ} {settings : ReportSettings}

theorem fits_ofWhole {k : ℕ} (hk : k ≤ 2 ^ 64) (h : |n| ≤ k * Reference.taxiLimit) :
    (TableValue.ofWhole n).Fits :=
  h.trans (Reference.mul_taxiLimit_le hk)

theorem fits_sum {k : ℕ} (hk : k ≤ 2 ^ 64) (h : |n| ≤ k * 2 ^ 100) : (TableValue.ofWhole n).Fits :=
  fits_ofWhole hk (h.trans (mul_le_mul_of_nonneg_left Reference.two_pow_100_le_taxiLimit (Nat.cast_nonneg k)))

theorem fits_minutes (h : |n| ≤ 2 ^ 100) : (TableValue.ofWhole n).Fits := by
  refine fits_sum (k := 1) (by norm_num) ?_
  rwa [Nat.cast_one, one_mul]

theorem fits_count {k : ℕ} (hk : k ≤ 2 ^ 64) (h : |n| ≤ k) : (TableValue.ofWhole n).Fits :=
  fits_sum hk (h.trans (le_mul_of_one_le_right (Nat.cast_nonneg k) (by norm_num)))

section Employees

variable (h : r.Within) (he : e ∈ r.employees.values)
include h he

theorem dutyRow_yields (hd : d ∈ e.calendar.duties) (hf : d.isFlightDuty = true) :
    Yields (DutyRow.ofDuty settings r e d) fun row => ∀ v ∈ row.values, v.Fits := by
  have hlegs : d.legs ≤ 2 ^ 64 := by
    refine le_trans ?_ (h.seats e he)
    obtain ⟨before, after, hsplit⟩ := List.append_of_mem hd
    simp only [Employee.seats, Calendar.seats, hsplit, List.flatMap_append, List.flatMap_cons,
      List.length_append, Duty.legs]
    omega
  have hemp := h.employees e he
  have hhome := (hemp.duties d hd).homePoints_yields hemp.home h.reference
  refine (hemp.dutyRow_yields h.reference.dutyLimits hd hf hhome).imp fun row hrow => ?_
  simp only [DutyRow.values, List.forall_mem_cons, hrow.code, hrow.legs]
  refine ⟨trivial, trivial, trivial, fits_count hlegs (Nat.abs_cast _).le, trivial, ?_,
    fits_minutes hrow.block, fits_minutes hrow.period, fits_minutes hrow.limit, fits_minutes hrow.points,
    fits_minutes hrow.lack, fits_ofWhole (k := 2) (by norm_num) hrow.home, fits_minutes hrow.overlap,
    trivial, trivial, trivial, trivial, trivial, by simp⟩
  cases row.finish <;> trivial

theorem dutyRows_yields :
    Yields ((e.calendar.duties.filter (·.isFlightDuty)).mapM (DutyRow.ofDuty settings r e)) fun rows =>
      ∀ row ∈ rows, ∀ v ∈ row.values, v.Fits :=
  (Yields.mapM fun _ hd => h.dutyRow_yields he (List.mem_filter.1 hd).1 (List.mem_filter.1 hd).2).imp
    fun _ hrows => hrows.2

theorem workload_yields : Yields (Workload.ofEmployee settings r e) fun w => ∀ v ∈ w.values, v.Fits := by
  have hr := h.reference
  have hemp := h.employees e he
  have hseats := h.seats e he
  obtain ⟨hname, hhome⟩ := h.texts e he
  refine hemp.flightMinutes_yields.bind fun minutes hminutes => ?_
  refine (hemp.connections_yields hr _).bind fun connections hconnections => ?_
  refine (hemp.totalEncroachment_yields _).bind fun encroachment hencroachment => .ok ?_
  simp only [Workload.values, List.forall_mem_cons]
  refine ⟨trivial, hname, hhome, ?_, fits_sum hseats hminutes, ?_, ?_, fits_sum hseats hencroachment,
    trivial, trivial, by simp⟩
  · rw [Calendar.seatCount_eq]
    exact fits_count hseats (Nat.abs_cast _).le
  · exact fits_count hseats hconnections.invalid
  · exact fits_ofWhole hseats hconnections.taxiMinutes

end Employees

-- The figures of such a roster can be put into tables, whatever the settings are.
theorem report_yields (h : r.Within) (settings : ReportSettings) :
    Yields (Report.build settings r) fun _ => True := by
  have hmem : ∀ e ∈ Report.employeesOf r, e ∈ r.employees.values := fun e he => List.mem_mergeSort.1 he
  refine (Yields.mapM fun e he => h.dutyRows_yields (hmem e he)).bind fun rows ⟨_, hrows⟩ => ?_
  have htable : Yields (DutyRow.table rows.flatten) fun _ => True := by
    refine Table.ofRows_yields fun vs hvs => ?_
    obtain ⟨row, hrow, rfl⟩ := List.mem_map.1 hvs
    obtain ⟨rows', hrows', hrow⟩ := List.mem_flatten.1 hrow
    exact hrows rows' hrows' row hrow
  refine htable.bind fun dutyTable _ => ?_
  refine (Yields.mapM fun e he => h.workload_yields (hmem e he)).bind fun ws ⟨_, hws⟩ => ?_
  have htable' : Yields (Workload.table ws) fun _ => True := by
    refine Table.ofRows_yields fun vs hvs => ?_
    obtain ⟨w, hw, rfl⟩ := List.mem_map.1 hvs
    exact hws w hw
  exact htable'.bind fun _ _ => .ok trivial

end Roster.Within

end CrewRoster
