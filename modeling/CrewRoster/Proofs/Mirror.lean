import CrewRoster.Proofs.Consistency

namespace CrewRoster

-- The fields of a duty that are written with notice.
@[ext]
structure Tracked where
  seats : List Seat
  start : Option Instant
  finish : Option Instant
  lastArrival : Option Instant
  code : Option Label

def Duty.tracked (d : Duty) : Tracked :=
  ⟨d.seats, d.start, d.finish, d.lastArrival, d.code⟩

-- Reads one field of a duty anew, and leaves the others as they were read before.
def Field.reread (f : Field) (d : Duty) (t : Tracked) : Tracked :=
  match f with
  | assignments => { t with seats := d.seats }
  | start => { t with start := d.start }
  | finish => { t with finish := d.finish }
  | lastArrival => { t with lastArrival := d.lastArrival }
  | code => { t with code := d.code }

-- What a listener knows of the duties, by employee and day.
abbrev Mirror := String → Date → Option Tracked

namespace Mirror

-- A duty is read whole when it is heard of first. From then on only the field is read that was written.
def hear (m : Mirror) (n : Notice) : Mirror := fun id day =>
  if id = n.duty.employee ∧ day = n.duty.date then
    match m id day, n.phase with
    | none, _ => some n.duty.tracked
    | some t, .before => some t
    | some t, .after => some (n.field.reread n.duty t)
  else m id day

def hearAll (m : Mirror) (ns : List Notice) : Mirror := ns.foldl hear m

end Mirror

-- Every announcement of a write is followed by its report, on the same field of the same duty.
inductive Bracketed : List Notice → Prop
  | nil : Bracketed []
  | snoc {ns d d' f} (h : Bracketed ns) (he : d'.employee = d.employee) (hd : d'.date = d.date) :
    Bracketed (ns ++ [⟨.before, d, f⟩, ⟨.after, d', f⟩])

theorem Bracketed.append {ns ns' : List Notice} (h : Bracketed ns) (h' : Bracketed ns') :
    Bracketed (ns ++ ns') := by
  induction h'
  case nil => rwa [List.append_nil]
  case snoc he hd ih => exact List.append_assoc .. ▸ ih.snoc he hd

namespace Field

variable {f : Field} {d d' : Duty}

-- A field that is written changes nothing else, in a mirror as in a duty.
theorem employee_of_copy (h : d' = f.copy d' d) : d'.employee = d.employee := by
  rw [h]
  cases f <;> rfl

theorem date_of_copy (h : d' = f.copy d' d) : d'.date = d.date := by
  rw [h]
  cases f <;> rfl

theorem reread_of_copy (h : d' = f.copy d' d) : f.reread d' d.tracked = d'.tracked := by
  rw [h]
  cases f <;> rfl

end Field

namespace Tells

variable {d d' : Duty} {ns : List Notice} {fs : List Field} {m : Mirror} {id : String} {day : Date}

theorem employee (h : Tells d ns fs d') : d'.employee = d.employee := by
  induction h
  case nil => rfl
  case snoc hc ih => exact (Field.employee_of_copy hc).trans ih

theorem date (h : Tells d ns fs d') : d'.date = d.date := by
  induction h
  case nil => rfl
  case snoc hc ih => exact (Field.date_of_copy hc).trans ih

theorem bracketed (h : Tells d ns fs d') : Bracketed ns := by
  induction h
  case nil => exact .nil
  case snoc hc ih => exact ih.snoc (Field.employee_of_copy hc) (Field.date_of_copy hc)

theorem duty_of_mem (h : Tells d ns fs d') :
    ∀ n ∈ ns, n.duty.employee = d.employee ∧ n.duty.date = d.date := by
  induction h
  case nil => exact fun n hn => nomatch hn
  case snoc ht hc ih =>
    intro n hn
    rcases List.mem_append.1 hn with hn | hn
    · exact ih n hn
    · simp only [List.mem_cons, List.not_mem_nil, or_false] at hn
      rcases hn with rfl | rfl
      · exact ⟨ht.employee, ht.date⟩
      · exact ⟨(Field.employee_of_copy hc).trans ht.employee, (Field.date_of_copy hc).trans ht.date⟩

end Tells

namespace Mirror

variable {m : Mirror} {d d' : Duty} {ns ns' : List Notice} {fs : List Field} {id : String} {day : Date}

theorem hearAll_append : m.hearAll (ns ++ ns') = (m.hearAll ns).hearAll ns' :=
  List.foldl_append

-- Notices about one duty say nothing about another.
theorem hearAll_of_other (h : ∀ n ∈ ns, ¬(id = n.duty.employee ∧ day = n.duty.date)) :
    m.hearAll ns id day = m id day := by
  induction ns generalizing m with
  | nil => rfl
  | cons n ns ih =>
    obtain ⟨hn, hns⟩ := List.forall_mem_cons.1 h
    rw [hearAll, List.foldl_cons, ← hearAll, ih hns, hear, if_neg hn]

-- Whether the duty is heard of for the first time or not, a write brings the mirror up to date.
theorem hear_write {f : Field} (hm : ∀ t ∈ m d.employee d.date, t = d.tracked) (hc : d' = f.copy d' d) :
    ((m.hear ⟨.before, d, f⟩).hear ⟨.after, d', f⟩) d.employee d.date = some d'.tracked := by
  have hafter : d.employee = d'.employee ∧ d.date = d'.date :=
    ⟨(Field.employee_of_copy hc).symm, (Field.date_of_copy hc).symm⟩
  have hbefore : (m.hear ⟨.before, d, f⟩) d.employee d.date = some d.tracked := by
    rw [hear, if_pos ⟨rfl, rfl⟩]
    cases h : m d.employee d.date with
    | none => rfl
    | some t => rw [hm t h]
  rw [hear, if_pos hafter, hbefore]
  exact congrArg some (Field.reread_of_copy hc)

-- A mirror that is right about a duty, or has not heard of it, is right about it after it was written.
theorem hearAll_tells (h : Tells d ns fs d') (hm : ∀ t ∈ m d.employee d.date, t = d.tracked) :
    (∀ t ∈ m.hearAll ns d.employee d.date, t = d'.tracked) ∧
      (fs ≠ [] → m.hearAll ns d.employee d.date = some d'.tracked) := by
  induction h
  case nil => exact ⟨hm, fun h => absurd rfl h⟩
  case snoc ns fs d₁ d₂ f ht hc ih =>
    have hstep : m.hearAll (ns ++ [⟨.before, d₁, f⟩, ⟨.after, d₂, f⟩]) d.employee d.date =
        some d₂.tracked := by
      rw [hearAll_append, ← ht.employee, ← ht.date]
      exact hear_write (by rw [ht.employee, ht.date]; exact ih.1) hc
    refine ⟨fun t h => ?_, fun _ => hstep⟩
    rw [hstep] at h
    exact (Option.some.inj h).symm

end Mirror
end CrewRoster
