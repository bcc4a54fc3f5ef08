import CrewRoster.Proofs.Roster

namespace CrewRoster

-- A duty of an employee on a day, and no seat in it.
structure Duty.Vacant (d : Duty) (employee : String) (day : Date) : Prop where
  employee : d.employee = employee
  date : d.date = day
  seats : d.seats = []
  current : d.Current

namespace Employee

variable {e e' e'' : Employee} {d : Duty} {day first last : Date}

-- What planning does to an employee: some days without seats get a new duty without seats.
structure Planned (e e' : Employee) : Prop where
  same : { e' with calendar := .empty } = { e with calendar := .empty }
  days : ∀ day, e'.dutyOn day = e.dutyOn day ∨
    (∀ d, e.dutyOn day = some d → d.seats = []) ∧ ∃ d, e'.dutyOn day = some d ∧ d.Vacant e.id day

namespace Planned

theorem id_eq (h : e.Planned e') : e'.id = e.id := by
  have := congrArg Employee.id h.same
  exact this

theorem refl (e : Employee) : e.Planned e :=
  ⟨rfl, fun _ => .inl rfl⟩

theorem put (hid : d.employee = e.id) (hs : d.seats = []) (hc : d.Current)
    (hold : ∀ old, e.dutyOn d.date = some old → old.seats = []) : e.Planned (e.put d) where
  same := rfl
  days day := by
    rw [dutyOn_put]
    split
    case isTrue h =>
      subst h
      exact .inr ⟨hold, d, rfl, hid, rfl, hs, hc⟩
    case isFalse => exact .inl rfl

theorem place (hs : d.seats = []) (hc : d.Current) (h : e.place d = .ok e') : e.Planned e' := by
  obtain ⟨hid, rfl, hold⟩ := place_eq_ok h
  exact put hid hs hc hold

theorem ensure : e.Planned (e.ensure day).1 := by
  cases h : e.dutyOn day with
  | some d => rw [ensure_of_some h]; exact refl e
  | none =>
    rw [ensure_of_none h]
    refine put rfl rfl (.placeholder _ _) fun old ho => ?_
    exact absurd (h.symm.trans ho) (by simp)

theorem cover : e.Planned (e.cover first last) where
  same := rfl
  days day := by
    rw [dutyOn_cover]
    cases h : e.dutyOn day with
    | some d => exact .inl rfl
    | none =>
      by_cases hr : day ∈ Date.range first last
      · exact .inr ⟨fun _ h => (nomatch h), .placeholder e.id day, by simp [hr], rfl, rfl, rfl,
          .placeholder _ _⟩
      · exact .inl (by simp [hr])

end Planned

-- Nothing is in the calendar but what planning puts there.
def Idle (e : Employee) : Prop := ∀ day d, e.dutyOn day = some d → d.Vacant e.id day

theorem Idle.planned (h : e.Idle) (hp : e.Planned e') : e'.Idle := by
  intro day d hd
  rw [hp.id_eq]
  rcases hp.days day with hday | ⟨-, d', hd', h'⟩
  · exact h day d (hday ▸ hd)
  · obtain rfl := Option.some.inj (hd.symm.trans hd')
    exact h'

theorem Idle.placeAll {ds : List Duty} (h : e.Idle) (hds : ∀ d ∈ ds, d.seats = [] ∧ d.Current)
    (hp : ds.foldlM Employee.place e = .ok e') : e'.Idle ∧ e'.id = e.id := by
  refine Result.foldlM_induction (P := fun x => x.Idle ∧ x.id = e.id) ?_ ⟨h, rfl⟩ hp
  intro d hd a b ha hb
  have hplanned := Planned.place (hds d hd).1 (hds d hd).2 hb
  exact ⟨ha.1.planned hplanned, hplanned.id_eq.trans ha.2⟩

-- Only the calendar changes when duties are placed, and nothing but they come to it, under their dates.
theorem placeAll_eq_ok {ds : List Duty} (h : ds.foldlM Employee.place e = .ok e') :
    { e' with calendar := .empty } = { e with calendar := .empty } ∧
      ∀ day d, e'.dutyOn day = some d → d ∈ ds ∧ d.date = day ∨ e.dutyOn day = some d := by
  refine Result.foldlM_induction (P := fun x => { x with calendar := .empty } =
    { e with calendar := .empty } ∧
      ∀ day d, x.dutyOn day = some d → d ∈ ds ∧ d.date = day ∨ e.dutyOn day = some d)
    ?_ ⟨rfl, fun _ _ hd => .inr hd⟩ h
  rintro d hd a b ⟨hsame, hdays⟩ hplace
  obtain ⟨-, rfl, -⟩ := Employee.place_eq_ok hplace
  refine ⟨hsame, fun day d' hd' => ?_⟩
  rw [Employee.dutyOn_put] at hd'
  split at hd'
  case isTrue hday => exact .inl (Option.some.inj hd' ▸ ⟨hd, hday.symm⟩)
  case isFalse => exact hdays day d' hd'

-- A duty with a code keeps its day, whatever is placed.
theorem dutyOn_of_place {x : Duty} (h : e.place x = .ok e') (hd : e.dutyOn day = some d)
    (hcode : d.hasCode = true) : e'.dutyOn day = some d := by
  obtain ⟨-, rfl, -⟩ := place_eq_ok h
  rw [dutyOn_put]
  split
  case isTrue hday =>
    subst hday
    rw [place, hd] at h
    split at h
    · cases h
    · simp [hcode] at h
  case isFalse => exact hd

theorem dutyOn_of_placeAll {ds : List Duty} (h : ds.foldlM Employee.place e = .ok e')
    (hcode : ∀ d ∈ ds, d.hasCode = true) : ∀ d ∈ ds, e'.dutyOn d.date = some d := by
  induction ds generalizing e with
  | nil => exact fun d hd => nomatch hd
  | cons x ds ih =>
    obtain ⟨hx, hds⟩ := List.forall_mem_cons.1 hcode
    rw [List.foldlM_cons] at h
    obtain ⟨e₁, hplace, hrest⟩ := Result.bind_eq_ok.1 h
    refine List.forall_mem_cons.2 ⟨?_, ih hrest hds⟩
    refine Result.foldlM_induction (P := fun y => y.dutyOn x.date = some x)
      (fun _ _ a b ha hb => dutyOn_of_place hb ha hx) ?_ hrest
    obtain ⟨-, rfl, -⟩ := place_eq_ok hplace
    rw [dutyOn_put, if_pos rfl]

end Employee
end CrewRoster
