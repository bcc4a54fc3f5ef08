import CrewRoster.Fault
import Mathlib.Data.List.Forall2

namespace CrewRoster.Result

variable {α β : Type}

theorem ok_bind {a : α} {f : α → Result β} : (.ok a : Result α) >>= f = f a :=
  rfl

theorem bind_eq_ok {x : Result α} {f : α → Result β} {b : β} :
    x >>= f = .ok b ↔ ∃ a, x = .ok a ∧ f a = .ok b := by
  cases x <;> simp [bind, Except.bind]

theorem bind_eq_error {x : Result α} {f : α → Result β} {fault : Fault} :
    x >>= f = .error fault ↔ x = .error fault ∨ ∃ a, x = .ok a ∧ f a = .error fault := by
  cases x <;> simp [bind, Except.bind]

theorem pure_eq_ok {a b : α} : (pure a : Result α) = .ok b ↔ a = b := by
  simp [pure, Except.pure]

theorem elim_eq_ok {o : Option α} {fault : Fault} {a : α} :
    o.elim (.error fault : Result α) .ok = .ok a ↔ o = some a := by
  cases o <;> simp

theorem toOption_eq_some {x : Result α} {a : α} : x.toOption = some a ↔ x = .ok a := by
  cases x <;> simp [Except.toOption]

theorem isSome_toOption {x : Result α} : x.toOption.isSome = true ↔ ∃ a, x = .ok a := by
  simp only [Option.isSome_iff_exists, toOption_eq_some]

theorem mapM_eq_ok {f : α → Result β} {xs : List α} {ys : List β} :
    xs.mapM f = .ok ys ↔ List.Forall₂ (fun x y => f x = .ok y) xs ys := by
  induction xs generalizing ys with
  | nil =>
    rw [List.mapM_nil, pure_eq_ok, List.forall₂_nil_left_iff]
    exact eq_comm
  | cons x xs ih =>
    simp only [List.mapM_cons, bind_eq_ok, pure_eq_ok, List.forall₂_cons_left_iff]
    constructor
    · rintro ⟨y, hy, zs, hzs, rfl⟩
      exact ⟨y, zs, hy, ih.1 hzs, rfl⟩
    · rintro ⟨y, zs, hy, hzs, rfl⟩
      exact ⟨y, hy, zs, ih.2 hzs, rfl⟩

theorem mapM_ok_of_forall {f : α → Result β} {xs : List α} (h : ∀ x ∈ xs, ∃ y, f x = .ok y) :
    ∃ ys, xs.mapM f = .ok ys := by
  induction xs with
  | nil => exact ⟨[], rfl⟩
  | cons x xs ih =>
    obtain ⟨y, hy⟩ := h x List.mem_cons_self
    obtain ⟨ys, hys⟩ := ih fun z hz => h z (List.mem_cons_of_mem _ hz)
    exact ⟨y :: ys, by simp [List.mapM_cons, hy, hys, bind, Except.bind, pure, Except.pure]⟩

theorem mem_of_mapM {f : α → Result β} {xs : List α} {ys : List β} {y : β}
    (h : xs.mapM f = .ok ys) : y ∈ ys ↔ ∃ x ∈ xs, f x = .ok y := by
  have hf := mapM_eq_ok.1 h
  clear h
  induction hf with
  | nil => simp
  | cons hx _ ih =>
    simp only [List.mem_cons, exists_eq_or_imp, hx, Except.ok.injEq, ih]
    exact or_congr eq_comm Iff.rfl

theorem exists_of_mapM {f : α → Result β} {xs : List α} {ys : List β} {x : α}
    (h : xs.mapM f = .ok ys) (hx : x ∈ xs) : ∃ y ∈ ys, f x = .ok y := by
  have hf := mapM_eq_ok.1 h
  clear h
  induction hf with
  | nil => cases hx
  | cons hy _ ih =>
    rcases List.mem_cons.1 hx with rfl | hx
    · exact ⟨_, List.mem_cons_self, hy⟩
    · obtain ⟨y, hm, hy⟩ := ih hx
      exact ⟨y, List.mem_cons_of_mem _ hm, hy⟩

theorem exists_of_mapM_eq_error {f : α → Result β} {xs : List α} {fault : Fault}
    (h : xs.mapM f = .error fault) : ∃ x ∈ xs, f x = .error fault := by
  induction xs with
  | nil => cases h
  | cons x xs ih =>
    rw [List.mapM_cons] at h
    rcases bind_eq_error.1 h with hx | ⟨y, -, h⟩
    · exact ⟨x, List.mem_cons_self, hx⟩
    · rcases bind_eq_error.1 h with hxs | ⟨ys, -, h⟩
      · obtain ⟨x', hx', hf⟩ := ih hxs
        exact ⟨x', List.mem_cons_of_mem _ hx', hf⟩
      · cases h

-- Where every element is read or fails in the one way, so is the list.
theorem mapM_ite_of_forall₂ {f : α → Result β} {P : β → Prop} [DecidablePred P] {fault : Fault}
    {xs : List α} {ys : List β}
    (h : List.Forall₂ (fun x y => f x = if P y then .ok y else .error fault) xs ys) :
    xs.mapM f = if ∀ y ∈ ys, P y then .ok ys else .error fault := by
  induction h with
  | nil => exact (if_pos (by simp)).symm
  | @cons x y xs ys hx _ ih =>
    rw [List.mapM_cons, hx, ih]
    by_cases hy : P y
    · by_cases hys : ∀ z ∈ ys, P z
      · rw [if_pos hy, if_pos hys, if_pos (List.forall_mem_cons.2 ⟨hy, hys⟩)]
        rfl
      · rw [if_pos hy, if_neg hys, if_neg fun hall => hys (List.forall_mem_cons.1 hall).2]
        rfl
    · rw [if_neg hy, if_neg fun hall => hy (List.forall_mem_cons.1 hall).1]
      rfl

theorem forM_eq_ok {f : α → Result Unit} {xs : List α} :
    xs.forM f = .ok () ↔ ∀ x ∈ xs, f x = .ok () := by
  induction xs with
  | nil => exact ⟨fun _ _ hx => (nomatch hx), fun _ => rfl⟩
  | cons x xs ih =>
    change (f x >>= fun _ => xs.forM f) = _ ↔ _
    rw [bind_eq_ok, List.forall_mem_cons]
    constructor
    · rintro ⟨⟨⟩, hx, hs⟩
      exact ⟨hx, ih.1 hs⟩
    · rintro ⟨hx, hs⟩
      exact ⟨(), hx, ih.2 hs⟩

-- What every step of a fold keeps, the fold keeps.
theorem foldlM_induction {P : β → Prop} {f : β → α → Result β} {xs : List α} {b c : β}
    (hs : ∀ x ∈ xs, ∀ a d, P a → f a x = .ok d → P d) (hb : P b) (h : xs.foldlM f b = .ok c) :
    P c := by
  induction xs generalizing b with
  | nil => exact pure_eq_ok.1 h ▸ hb
  | cons x xs ih =>
    rw [List.foldlM_cons] at h
    obtain ⟨d, hd, h⟩ := bind_eq_ok.1 h
    exact ih (fun y hy => hs y (List.mem_cons_of_mem _ hy)) (hs x List.mem_cons_self b d hb hd) h

theorem mapM_of_forall₂ {γ : Type} {R : α → β → Prop} {f : α → Result γ} {g : β → γ}
    {xs : List α} {ys : List β} (h : List.Forall₂ R xs ys) (hf : ∀ x y, R x y → f x = .ok (g y)) :
    xs.mapM f = .ok (ys.map g) := by
  rw [mapM_eq_ok, List.forall₂_map_right_iff]
  exact h.imp hf

-- Where one answer decides all, there is an answer for all of them or for none.
theorem mapM_map_check {check : Result Unit} {f : α → β} {xs : List α} (h : xs ≠ []) :
    (xs.mapM fun x => check.map fun _ => f x) = check.map fun _ => xs.map f := by
  cases check with
  | ok => exact mapM_of_forall₂ (g := f) (List.forall₂_same.2 fun _ _ => rfl) fun x y h => h ▸ rfl
  | error fault =>
    obtain ⟨x, xs, rfl⟩ := List.exists_cons_of_ne_nil h
    rw [List.mapM_cons]
    rfl

theorem mapM_congr_of_forall₂ {γ : Type} {R : α → β → Prop} {f : α → Result γ}
    {g : β → Result γ} {xs : List α} {ys : List β} (h : List.Forall₂ R xs ys)
    (hf : ∀ x y, R x y → f x = g y) : xs.mapM f = ys.mapM g := by
  induction h with
  | nil => rfl
  | cons hx _ ih => rw [List.mapM_cons, List.mapM_cons, hf _ _ hx, ih]

theorem foldlM_of_forall₂ {γ : Type} {R : α → β → Prop} {f : γ → α → Result γ}
    {g : γ → β → γ} {xs : List α} {ys : List β} (h : List.Forall₂ R xs ys)
    (hf : ∀ c x y, R x y → f c x = .ok (g c y)) (c : γ) : xs.foldlM f c = .ok (ys.foldl g c) := by
  induction h generalizing c with
  | nil => rfl
  | cons hx _ ih => rw [List.foldlM_cons, List.foldl_cons, hf _ _ _ hx, ok_bind, ih]

-- There is an answer, and `P` holds of it.
def Yields (x : Result α) (P : α → Prop) : Prop := ∃ a, x = .ok a ∧ P a

namespace Yields

variable {x : Result α} {f : α → Result β} {P : α → Prop} {Q : β → Prop}

theorem ok {a : α} (h : P a) : Yields (.ok a) P :=
  ⟨a, rfl, h⟩

theorem exists_ok (h : Yields x P) : ∃ a, x = .ok a := by
  obtain ⟨a, ha, -⟩ := h
  exact ⟨a, ha⟩

theorem imp {P' : α → Prop} (h : Yields x P) (hP : ∀ a, P a → P' a) : Yields x P' := by
  obtain ⟨a, ha, h⟩ := h
  exact ⟨a, ha, hP a h⟩

theorem bind (hx : Yields x P) (hf : ∀ a, P a → Yields (f a) Q) : Yields (x >>= f) Q := by
  obtain ⟨a, rfl, ha⟩ := hx
  exact hf a ha

theorem mapM {xs : List α} (h : ∀ a ∈ xs, Yields (f a) Q) :
    Yields (xs.mapM f) fun bs => bs.length = xs.length ∧ ∀ b ∈ bs, Q b := by
  induction xs with
  | nil => exact ok (by simp)
  | cons a xs ih =>
    obtain ⟨ha, hxs⟩ := List.forall_mem_cons.1 h
    rw [List.mapM_cons]
    refine ha.bind fun b hb => (ih hxs).bind fun bs ⟨hlen, hbs⟩ => ok ?_
    exact ⟨congrArg (· + 1) hlen, List.forall_mem_cons.2 ⟨hb, hbs⟩⟩

end Yields

end CrewRoster.Result
