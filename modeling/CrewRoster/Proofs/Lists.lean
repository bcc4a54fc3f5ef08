import Mathlib.Algebra.BigOperators.Ring.Finset
import Mathlib.Data.List.Dedup
import Mathlib.Data.List.Perm.Subperm
import Mathlib.Data.List.Sort

namespace CrewRoster.Lists

variable {α : Type} [DecidableEq α]

-- What is kept when repetitions are dropped: nothing twice, everything, and all of it in order.
theorem nodup_eraseDups : ∀ l : List α, l.eraseDups.Nodup
  | [] => List.nodup_nil
  | a :: as => by
    rw [List.eraseDups_cons, List.nodup_cons, List.mem_eraseDups]
    exact ⟨by simp, nodup_eraseDups (as.filter fun b => !b == a)⟩
termination_by l => l.length
decreasing_by exact Nat.lt_succ_of_le (List.length_filter_le _ _)

theorem eraseDups_sublist : ∀ l : List α, l.eraseDups.Sublist l
  | [] => .slnil
  | a :: as => by
    rw [List.eraseDups_cons]
    exact .cons_cons a ((eraseDups_sublist (as.filter fun b => !b == a)).trans List.filter_sublist)
termination_by l => l.length
decreasing_by exact Nat.lt_succ_of_le (List.length_filter_le _ _)

-- A list without repetitions is told by the number of what is in it.
theorem nodup_of_length_eraseDups {l : List α} (h : l.eraseDups.length = l.length) : l.Nodup :=
  (eraseDups_sublist l).eq_of_length h ▸ nodup_eraseDups l

theorem eraseDups_of_nodup {l : List α} (h : l.Nodup) : l.eraseDups = l := by
  refine (eraseDups_sublist l).eq_of_length_le (List.Nodup.subperm h fun a ha => ?_).length_le
  exact List.mem_eraseDups.2 ha

theorem length_eraseDups_eq_iff {l : List α} : l.eraseDups.length = l.length ↔ l.Nodup :=
  ⟨nodup_of_length_eraseDups, fun h => by rw [eraseDups_of_nodup h]⟩

-- Order leaves only one way to list the same elements.
omit [DecidableEq α] in
theorem eq_of_ordered {r : α → α → Prop} (hr : ∀ {a b}, r a b → ¬r b a) {l l' : List α} (h : l.Pairwise r)
    (h' : l'.Pairwise r) (hm : ∀ a, a ∈ l ↔ a ∈ l') : l = l' := by
  have : Std.Irrefl r := ⟨fun _ ha => hr ha ha⟩
  have : Std.Antisymm r := ⟨fun _ _ hab hba => absurd hba (hr hab)⟩
  exact List.Pairwise.eq_of_mem_iff h h' hm

-- Where keys tell elements apart, an element is found by its key.
theorem find?_of_nodup {β : Type} {f : β → α} {l : List β} {b : β} (h : (l.map f).Nodup) (hb : b ∈ l) :
    l.find? (f · == f b) = some b := by
  obtain ⟨x, hx⟩ := Option.isSome_iff_exists.1
    (List.find?_isSome.2 ⟨b, hb, beq_self_eq_true _⟩ : (l.find? (f · == f b)).isSome)
  have he : f x = f b := by simpa using List.find?_some hx
  rw [hx, List.inj_on_of_nodup_map h (List.mem_of_find?_eq_some hx) hb he]

theorem sum_indicator (l : List α) (a : α) :
    (l.map fun b => if some a = some b then 1 else 0).sum = l.count a := by
  induction l with
  | nil => rfl
  | cons b l ih =>
    rw [List.map_cons, List.sum_cons, ih, List.count_cons, Nat.add_comm]
    by_cases hab : a = b
    · simp [hab]
    · simp [hab, Ne.symm hab]

-- Where every value is one of `l`, what is counted for each of `l` is counted once altogether.
theorem sum_countP {β : Type} {l : List α} (hn : l.Nodup) (f : β → Option α) {bs : List β}
    (h : ∀ b ∈ bs, ∀ a ∈ f b, a ∈ l) :
    (l.map fun a => bs.countP fun b => f b = some a).sum = bs.countP fun b => (f b).isSome := by
  induction bs with
  | nil => simp
  | cons b bs ih =>
    obtain ⟨hb, hbs⟩ := List.forall_mem_cons.1 h
    simp only [List.countP_cons, List.sum_map_add, ih hbs, decide_eq_true_eq]
    congr 1
    cases hf : f b with
    | none => simp
    | some a => rw [sum_indicator, List.count_eq_one_of_mem hn (hb a hf)]; rfl

omit [DecidableEq α] in
theorem sum_map_ite (p : α → Bool) (f : α → Int) (l : List α) :
    (l.map fun a => if p a then f a else 0).sum = ((l.filter p).map f).sum := by
  induction l with
  | nil => rfl
  | cons a l ih => by_cases h : p a <;> simp [h, ih]

omit [DecidableEq α] in
theorem sum_filterMap {β : Type} (f : α → Option β) (h : β → Int) (l : List α) :
    ((l.filterMap f).map h).sum = (l.map fun a => ((f a).map h).getD 0).sum := by
  induction l with
  | nil => rfl
  | cons a l ih => cases hf : f a <;> simp [hf, ih]

-- What has one of two properties that nothing has both of is counted with either.
omit [DecidableEq α] in
theorem countP_add {p q₁ q₂ : α → Bool} {l : List α}
    (h : ∀ a ∈ l, (p a).toNat = (q₁ a).toNat + (q₂ a).toNat) :
    l.countP p = l.countP q₁ + l.countP q₂ := by
  induction l with
  | nil => rfl
  | cons a l ih =>
    obtain ⟨ha, hl⟩ := List.forall_mem_cons.1 h
    have hite : ∀ b : Bool, (if b then 1 else 0) = b.toNat := by decide
    rw [List.countP_cons, List.countP_cons, List.countP_cons, ih hl, hite, hite, hite, ha]
    omega

theorem exists_of_forall₂ {α β : Type} {R : α → β → Prop} {xs : List α} {ys : List β} {y : β}
    (h : List.Forall₂ R xs ys) (hy : y ∈ ys) : ∃ x ∈ xs, R x y := by
  induction h with
  | nil => cases hy
  | @cons x _ _ _ hx _ ih =>
    rcases List.mem_cons.1 hy with rfl | hy
    · exact ⟨x, List.mem_cons_self, hx⟩
    · obtain ⟨x', hx', hR⟩ := ih hy
      exact ⟨x', List.mem_cons_of_mem _ hx', hR⟩

-- What the elements of one list are to each other, those of the other are as well.
theorem pairwise_of_forall₂ {α β : Type} {R : α → α → Prop} {S : β → β → Prop} {T : α → β → Prop}
    {xs : List α} {ys : List β} (h : List.Forall₂ T xs ys) (hxs : xs.Pairwise R)
    (hT : ∀ {a b c d}, T a c → T b d → R a b → S c d) : ys.Pairwise S := by
  induction h with
  | nil => exact .nil
  | cons hx h ih =>
    obtain ⟨hR, hxs⟩ := List.pairwise_cons.1 hxs
    refine List.pairwise_cons.2 ⟨fun y hy => ?_, ih hxs⟩
    obtain ⟨x, hmem, hxy⟩ := exists_of_forall₂ h hy
    exact hT hx hxy (hR x hmem)

end CrewRoster.Lists
