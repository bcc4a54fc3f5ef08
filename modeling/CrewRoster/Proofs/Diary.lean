import CrewRoster.Proofs.Bisection
import CrewRoster.Proofs.Edit
import CrewRoster.Proofs.Registry
import Mathlib.Data.List.InsertIdx

namespace CrewRoster

-- The calendar of an employee as it is kept for searching: the duties in a table by date, and the dates of
-- the table in a list of their own.
structure Diary where
  table : Registry Date Duty
  dates : List Date

namespace Diary

-- Whatever table there is at first, its dates are sorted.
def ofTable (t : Registry Date Duty) : Diary := ⟨t, t.keys.mergeSort (· ≤ ·)⟩

-- A date goes behind those that are not later.
def insertDate (dates : List Date) (day : Date) : List Date :=
  dates.insertIdx (Lists.bisect (· ≤ day) dates 0 dates.length) day

-- Enters a duty at its date. Only a date that the table does not have goes into the list.
def put (b : Diary) (d : Duty) : Diary where
  table := b.table.insert d.date d
  dates := if b.table.contains d.date then b.dates else insertDate b.dates d.date

def ensure (b : Diary) (id : String) (day : Date) : Diary :=
  if b.table.contains day then b else b.put (.placeholder id day)

-- Enters empty duties day by day. The last day that there is gets its duty before the day after it is missed.
def populate (b : Diary) (id : String) (day last : Date) : Diary × Result Unit :=
  if day ≤ last then
    match _h : day.next with
    | .ok next => populate (b.ensure id day) id next last
    | .error fault => (b.ensure id day, .error fault)
  else (b, .ok ())
termination_by (last.number + 1 - day.number).toNat
decreasing_by
  have := Date.number_of_ofNumber? (Result.elim_eq_ok.1 _h)
  have : day.number ≤ last.number := ‹day ≤ last›
  omega

def place (b : Diary) (id : String) (d : Duty) : Diary × Result Unit :=
  if d.employee ≠ id then (b, .error (.rejected (.foreignDuty d.id d.employee id)))
  else
    match b.table.get? d.date with
    | none => (b.put d, .ok ())
    | some old =>
      if old.isFlightDuty || old.hasCode then (b, .error (.rejected (.dayTaken id d.date.text)))
      else (b.put d, .ok ())

-- Edits the duty of a day where it stands.
def edit (b : Diary) (day : Date) (f : Duty → Duty) : Diary := { b with table := b.table.modify day f }

-- What is done to the diary of an employee: a period is populated, as far as there are days; a duty is
-- placed or refused; a day gets its duty; and a seat leaves the duty that lists it or enters the duty of its
-- day, as far as the fields of the duty can be written.
inductive Step (id : String) (b : Diary) : Diary → Prop
  | populate (first last : Date) : Step id b (b.populate id first last).1
  | place (d : Duty) : Step id b (b.place id d).1
  | ensure (day : Date) : Step id b (b.ensure id day)
  | leave {s : Seat} {d : Duty} (hd : b.table.get? s.departureDate = some d) (hs : d.contains s = .ok true) :
    Step id b (b.edit s.departureDate fun d => (d.retract s).duty)
  | enter (s : Seat) :
    Step id b ((b.ensure id s.departureDate).edit s.departureDate fun d => (d.enter s).duty)

inductive Steps (id : String) (a : Diary) : Diary → Prop
  | refl : Steps id a a
  | step {b b'} (hs : Steps id a b) (h : Step id b b') : Steps id a b'

-- Where a duty of the employee's can be placed: on a day that has none, or one with neither seats nor a code.
def Accepts (b : Diary) (id : String) (d : Duty) : Prop :=
  d.employee = id ∧ ∀ old, b.table.get? d.date = some old → old.seats = [] ∧ old.code = none

-- Every duty of a table is on the date at which it stands and the employee's own.
def Filed (id : String) (t : Registry Date Duty) : Prop :=
  ∀ day d, t.get? day = some d → d.date = day ∧ d.employee = id

-- The dates are in order, and they are those of the table.
structure Indexed (b : Diary) : Prop where
  ascending : b.dates.Pairwise (· < ·)
  listed : ∀ day, day ∈ b.dates ↔ b.table.contains day

-- How the diary of an employee stands that was a table `t` at first:
-- 1. its dates are in order, and they are those of the table
-- 2. every duty is filed under its date and the employee's own, if all were at first
-- 3. a date that is there stays, whatever is done next
-- 4. a duty that is accepted goes to its date, and the other dates keep theirs
-- 5. a duty that is not accepted is rejected, and everything stays as it is
structure Kept (id : String) (t : Registry Date Duty) (b : Diary) : Prop extends b.Indexed where
  filed : Filed id t → Filed id b.table
  lasting : ∀ b', Steps id b b' → ∀ day ∈ b.dates, day ∈ b'.dates
  placed : ∀ d, b.Accepts id d → (b.place id d).2 = .ok () ∧
    ∀ day, (b.place id d).1.table.get? day = if day = d.date then some d else b.table.get? day
  refused : ∀ d, ¬b.Accepts id d → ∃ why, b.place id d = (b, .error (.rejected why))

-- All that is done comes down to this: duties of the employee are entered, and duties are edited that stay
-- on their dates and the employee's own.
inductive Writes (id : String) (b : Diary) : Diary → Prop
  | refl : Writes id b b
  | put {b' d} (h : Writes id b b') (hd : d.employee = id) : Writes id b (b'.put d)
  | edit {b' f} (h : Writes id b b') (day : Date)
    (hf : ∀ d, (f d).employee = d.employee ∧ (f d).date = d.date) : Writes id b (b'.edit day f)

variable {id : String} {t : Registry Date Duty} {a b b' : Diary} {d : Duty} {day last x : Date}
  {dates : List Date}

section Dates

variable (h : dates.Pairwise (· < ·))
include h

theorem falling_le (day : Date) : dates.Pairwise fun x y => decide (y ≤ day) → decide (x ≤ day) :=
  h.imp fun hxy hy => decide_eq_true (Int.le_trans (Int.le_of_lt hxy) (of_decide_eq_true hy))

theorem insertDate_eq (day : Date) :
    insertDate dates day = dates.takeWhile (· ≤ day) ++ day :: dates.dropWhile (· ≤ day) := by
  rw [insertDate, Lists.bisect_eq_length_takeWhile (falling_le h day), Lists.insertIdx_length_takeWhile]

theorem mem_insertDate : x ∈ insertDate dates day ↔ x = day ∨ x ∈ dates := by
  conv_rhs => rw [← List.takeWhile_append_dropWhile (p := (· ≤ day)) (l := dates)]
  rw [insertDate_eq h, List.mem_append, List.mem_cons, List.mem_append]
  tauto

theorem insertDate_ascending (hn : day ∉ dates) : (insertDate dates day).Pairwise (· < ·) := by
  have hfront : ∀ x ∈ dates.takeWhile (· ≤ day), x < day := by
    intro x hx
    have hle := of_decide_eq_true (List.all_eq_true.1 List.all_takeWhile x hx)
    have hne : x ≠ day := fun he => hn (he ▸ (List.takeWhile_sublist _).mem hx)
    exact Int.lt_iff_le_and_ne.2 ⟨hle, fun he => hne (Date.ext he)⟩
  have hback : ∀ x ∈ dates.dropWhile (· ≤ day), day < x := by
    intro x hx
    have hnot := Lists.not_of_mem_dropWhile (falling_le h day) x hx
    exact Int.not_le.1 fun hle => hnot (decide_eq_true hle)
  rw [insertDate_eq h, List.pairwise_append, List.pairwise_cons]
  refine ⟨h.sublist (List.takeWhile_sublist _), ⟨hback, h.sublist (List.dropWhile_sublist _)⟩, ?_⟩
  intro x hx y hy
  rcases List.mem_cons.1 hy with rfl | hy
  · exact hfront x hx
  · exact Int.lt_trans (hfront x hx) (hback y hy)

end Dates

theorem get?_put : (b.put d).table.get? x = if x = d.date then some d else b.table.get? x :=
  Registry.get?_insert

theorem contains_put : (b.put d).table.contains x ↔ x = d.date ∨ b.table.contains x := by
  rw [Registry.contains_iff, Registry.contains_iff, get?_put]
  split
  case isTrue hx => simp [hx]
  case isFalse hx => simp [hx]

theorem get?_edit {f : Duty → Duty} :
    (b.edit day f).table.get? x = if x = day then (b.table.get? day).map f else b.table.get? x :=
  Registry.get?_modify

theorem contains_edit {f : Duty → Duty} : (b.edit day f).table.contains x ↔ b.table.contains x := by
  rw [Registry.contains, Registry.contains, get?_edit]
  split
  case isTrue hx => rw [hx, Option.isSome_map]
  case isFalse => rfl

theorem get?_ensure : (b.ensure id day).table.get? x =
    (b.table.get? x).or (if x = day then some (.placeholder id day) else none) := by
  unfold ensure
  split
  case isTrue h =>
    obtain ⟨d, hd⟩ := Registry.contains_iff.1 h
    split
    case isTrue hx => rw [hx, hd, Option.some_or]
    case isFalse => rw [Option.or_none]
  case isFalse h =>
    have hn : b.table.get? day = none := by simpa [Registry.contains] using h
    rw [get?_put]
    change (if x = day then _ else _) = _
    split
    case isTrue hx => rw [hx, hn, Option.none_or]
    case isFalse => rw [Option.or_none]

namespace Writes

theorem trans (h : Writes id a b) (h' : Writes id b b') : Writes id a b' := by
  induction h'
  case refl => exact h
  case put hd ih => exact ih.put hd
  case edit day hf ih => exact ih.edit day hf

theorem ensure (b : Diary) (day : Date) : Writes id b (b.ensure id day) := by
  unfold Diary.ensure
  split
  case isTrue => exact .refl
  case isFalse => exact .put .refl rfl

theorem populate (b : Diary) (day last : Date) : Writes id b (b.populate id day last).1 := by
  fun_induction Diary.populate b id day last with
  | case1 b day hle next hnext ih => exact (ensure b day).trans ih
  | case2 b day hle fault hfault => exact ensure b day
  | case3 b day hlt => exact .refl

theorem place (b : Diary) (d : Duty) : Writes id b (b.place id d).1 := by
  unfold Diary.place
  split
  case isTrue => exact .refl
  case isFalse hid =>
    have hid := not_not.1 hid
    split
    case h_1 => exact .put .refl hid
    case h_2 =>
      split
      case isTrue => exact .refl
      case isFalse => exact .put .refl hid

theorem of_step (h : Step id b b') : Writes id b b' := by
  cases h
  case populate first last => exact populate b first last
  case place d => exact place b d
  case ensure day => exact ensure b day
  case leave s d hd hs => exact .edit .refl _ fun d => d.retract_stays s
  case enter s => exact .edit (ensure b _) _ fun d => d.enter_stays s

theorem of_steps (h : Steps id a b) : Writes id a b := by
  induction h
  case refl => exact .refl
  case step h ih => exact ih.trans (of_step h)

theorem indexed (h : Writes id a b) (ha : a.Indexed) : b.Indexed := by
  induction h
  case refl => exact ha
  case put b d _ hd ih =>
    by_cases hin : b.table.contains d.date
    · have hdates : (b.put d).dates = b.dates := if_pos hin
      refine ⟨hdates ▸ ih.ascending, fun x => ?_⟩
      rw [hdates, contains_put, ih.listed]
      exact ⟨.inr, fun hx => hx.elim (· ▸ hin) fun hx => hx⟩
    · have hdates : (b.put d).dates = insertDate b.dates d.date := if_neg hin
      have hn : d.date ∉ b.dates := fun hm => hin ((ih.listed _).1 hm)
      refine ⟨hdates ▸ insertDate_ascending ih.ascending hn, fun x => ?_⟩
      rw [hdates, mem_insertDate ih.ascending, contains_put, ih.listed]
  case edit ih => exact ⟨ih.ascending, fun x => (ih.listed x).trans contains_edit.symm⟩

theorem filed (h : Writes id a b) (ha : Filed id a.table) : Filed id b.table := by
  induction h
  case refl => exact ha
  case put hd ih =>
    intro x d' hd'
    rw [get?_put] at hd'
    split at hd'
    case isTrue hx => exact Option.some.inj hd' ▸ ⟨hx.symm, hd⟩
    case isFalse => exact ih x d' hd'
  case edit f _ day hf ih =>
    intro x d' hd'
    rw [get?_edit] at hd'
    split at hd'
    case isTrue hx =>
      obtain ⟨d, hd, rfl⟩ := Option.map_eq_some_iff.1 hd'
      obtain ⟨hdate, hemployee⟩ := ih day d hd
      exact ⟨((hf d).2.trans hdate).trans hx.symm, (hf d).1.trans hemployee⟩
    case isFalse => exact ih x d' hd'

theorem contains (h : Writes id a b) (hx : a.table.contains x) : b.table.contains x := by
  induction h
  case refl => exact hx
  case put ih => exact contains_put.2 (.inr ih)
  case edit ih => exact contains_edit.2 ih

end Writes

theorem indexed_ofTable (t : Registry Date Duty) : (ofTable t).Indexed where
  ascending := by
    have hsorted : (t.keys.mergeSort (· ≤ ·)).Pairwise fun x y => decide (x ≤ y) :=
      List.pairwise_mergeSort (fun x y z hxy hyz => by
        simp only [decide_eq_true_eq, Date.le_def] at *; omega)
      (fun x y => by simp only [Bool.or_eq_true, decide_eq_true_eq, Date.le_def]; omega) _
    have hnodup : (t.keys.mergeSort (· ≤ ·)).Nodup := (List.mergeSort_perm _ _).nodup_iff.2 t.nodup
    refine (hsorted.and hnodup).imp fun h => ?_
    exact Int.lt_iff_le_and_ne.2 ⟨of_decide_eq_true h.1, fun he => h.2 (Date.ext he)⟩
  listed day := by
    rw [ofTable, List.mem_mergeSort, Registry.contains_iff, Registry.keys, List.mem_map]
    simp only [Registry.get?_eq_some, Prod.exists, exists_and_right, exists_eq_right]

theorem isFlightDuty_or_hasCode : ¬(d.isFlightDuty || d.hasCode) = true ↔ d.seats = [] ∧ d.code = none := by
  simp [Duty.isFlightDuty, Duty.hasCode]

theorem place_of_accepts (h : b.Accepts id d) : b.place id d = (b.put d, .ok ()) := by
  obtain ⟨hid, hold⟩ := h
  rw [place, if_neg (not_not.2 hid)]
  split
  case h_1 => rfl
  case h_2 old hget => exact if_neg (isFlightDuty_or_hasCode.2 (hold old hget))

theorem place_of_not_accepts (h : ¬b.Accepts id d) :
    ∃ why, b.place id d = (b, .error (.rejected why)) := by
  unfold place
  split
  case isTrue => exact ⟨_, rfl⟩
  case isFalse hid =>
    split
    case h_1 hget => exact absurd ⟨not_not.1 hid, fun old hold => by simp [hget] at hold⟩ h
    case h_2 old hget =>
      split
      case isTrue => exact ⟨_, rfl⟩
      case isFalse hempty =>
        refine absurd ⟨not_not.1 hid, fun old' hold => ?_⟩ h
        obtain rfl := Option.some.inj (hget.symm.trans hold)
        exact isFlightDuty_or_hasCode.1 hempty

theorem Steps.kept (h : Steps id (.ofTable t) b) : Kept id t b := by
  have hindexed := (Writes.of_steps h).indexed (indexed_ofTable t)
  refine ⟨hindexed, (Writes.of_steps h).filed, ?_, ?_, fun d => place_of_not_accepts⟩
  · intro b' h' day hday
    have hwrites := Writes.of_steps h'
    exact ((hwrites.indexed hindexed).listed day).2 (hwrites.contains ((hindexed.listed day).1 hday))
  · intro d hd
    rw [place_of_accepts hd]
    exact ⟨rfl, fun day => get?_put⟩

end Diary
end CrewRoster
