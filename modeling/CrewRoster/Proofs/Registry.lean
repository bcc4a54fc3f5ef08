import CrewRoster.Registry
import Mathlib.Data.List.Induction
import Mathlib.Data.List.Nodup

namespace CrewRoster.Registry

variable {κ α β : Type} [DecidableEq κ] {r : Registry κ α} {j k : κ} {a : α} {f : α → α}

theorem get?_eq_some : r.get? k = some a ↔ (k, a) ∈ r.entries := by
  rw [get?, List.lookup_eq_some_iff]
  constructor
  · rintro ⟨l₁, l₂, he, -⟩
    exact he ▸ List.mem_append_right _ List.mem_cons_self
  · intro hm
    obtain ⟨l₁, l₂, he⟩ := List.append_of_mem hm
    refine ⟨l₁, l₂, he, fun p hp => ?_⟩
    -- an earlier entry with the same key would make the key come twice
    have hn := r.nodup
    rw [he, List.map_append, List.nodup_append] at hn
    simpa using (hn.2.2 p.1 (List.mem_map_of_mem hp) k List.mem_cons_self).symm

theorem contains_iff : r.contains k = true ↔ ∃ a, r.get? k = some a :=
  Option.isSome_iff_exists

theorem map_values_eq_keys {f : α → κ} (h : ∀ {k a}, r.get? k = some a → f a = k) :
    r.values.map f = r.keys := by
  rw [values, keys, List.map_map]
  exact List.map_congr_left fun p hp => h (get?_eq_some.2 hp)

theorem mem_values : a ∈ r.values ↔ ∃ k, r.get? k = some a := by
  simp only [values, List.mem_map, get?_eq_some, Prod.exists, exists_eq_right]

theorem lookup_map_ite (es : List (κ × α)) :
    (es.map fun e => if e.1 = k then (e.1, f e.2) else e).lookup j =
      if j = k then (es.lookup k).map f else es.lookup j := by
  induction es with
  | nil => simp
  | cons e es ih =>
    rw [List.map_cons, List.lookup_cons, List.lookup_cons, List.lookup_cons, ih]
    by_cases he : e.1 = k
    · by_cases hj : j = k
      · simp [he, hj]
      · simp [he, hj, beq_false_of_ne hj]
    · by_cases hj : j = k
      · simp [he, hj, beq_false_of_ne (Ne.symm he)]
      · simp [he, hj]

theorem get?_modify : (r.modify k f).get? j = if j = k then (r.get? k).map f else r.get? j :=
  lookup_map_ite r.entries

@[simp]
theorem get?_modify_self : (r.modify k f).get? k = (r.get? k).map f := by
  simp [get?_modify]

theorem get?_modify_of_ne (h : j ≠ k) : (r.modify k f).get? j = r.get? j := by
  simp [get?_modify, h]

theorem get?_append_new (h : ¬r.contains k) {a : α} :
    (r.entries ++ [(k, a)]).lookup j = if j = k then some a else r.get? j := by
  rw [List.lookup_append]
  have hk : r.get? k = none := by simpa [contains] using h
  by_cases hj : j = k
  · subst hj
    have : r.entries.lookup j = none := hk
    simp [this]
  · simp [get?, List.lookup_cons, hj, beq_false_of_ne hj]

theorem get?_insert : (r.insert k a).get? j = if j = k then some a else r.get? j := by
  unfold insert
  split
  case isTrue h =>
    obtain ⟨b, hb⟩ := contains_iff.1 h
    simp [get?_modify, hb]
  case isFalse h => exact get?_append_new h

-- What stands at a key stands between entries with other keys.
theorem exists_split (h : r.get? k = some a) : ∃ l₁ l₂, r.entries = l₁ ++ (k, a) :: l₂ ∧
    (∀ e ∈ l₁, e.1 ≠ k) ∧ ∀ e ∈ l₂, e.1 ≠ k := by
  obtain ⟨l₁, l₂, he⟩ := List.append_of_mem (get?_eq_some.1 h)
  have hn := r.nodup
  rw [he, List.map_append, List.nodup_append, List.map_cons, List.nodup_cons] at hn
  refine ⟨l₁, l₂, he, fun e hm => ?_, fun e hm hk => ?_⟩
  · exact hn.2.2 e.1 (List.mem_map_of_mem hm) k List.mem_cons_self
  · exact hn.2.1.1 (List.mem_map.2 ⟨e, hm, hk⟩)

theorem get?_mapValues {g : α → β} : (r.mapValues g).get? k = (r.get? k).map g := by
  change (r.entries.map fun e => (e.1, g e.2)).lookup k = (r.entries.lookup k).map g
  induction r.entries with
  | nil => rfl
  | cons e es ih =>
    rw [List.map_cons, List.lookup_cons, List.lookup_cons, ih]
    by_cases he : k = e.1
    · simp [he]
    · simp [beq_false_of_ne he]

omit [DecidableEq κ] in
theorem entries_mapValues {g : α → β} : (r.mapValues g).entries = r.entries.map fun e => (e.1, g e.2) :=
  rfl

omit [DecidableEq κ] in
theorem values_mapValues {g : α → β} : (r.mapValues g).values = r.values.map g := by
  simp [values, mapValues]

section OfList

variable {es : List (κ × α)}

theorem get?_foldl_insert (hk : (k, a) ∈ es) (hu : ∀ b, (k, b) ∈ es → b = a) :
    (es.foldl (fun r e => r.insert e.1 e.2) r).get? k = some a := by
  induction es using List.reverseRecOn with
  | nil => cases hk
  | append_singleton es e ih =>
    rw [List.foldl_append, List.foldl_cons, List.foldl_nil, get?_insert]
    by_cases he : k = e.1
    · rw [if_pos he]
      have := hu e.2 (by simp [he])
      rw [this]
    · rw [if_neg he]
      apply ih
      · rcases List.mem_append.1 hk with hk | hk
        · exact hk
        · exact absurd (congrArg Prod.fst (List.mem_singleton.1 hk)) he
      · exact fun b hb => hu b (List.mem_append_left _ hb)

-- A key that comes with one value only is registered with it.
theorem get?_ofList (hk : (k, a) ∈ es) (hu : ∀ b, (k, b) ∈ es → b = a) :
    (ofList es).get? k = some a :=
  get?_foldl_insert hk hu

theorem mem_of_get?_ofList (h : (ofList es).get? k = some a) : (k, a) ∈ es := by
  unfold ofList at h
  induction es using List.reverseRecOn with
  | nil => cases h
  | append_singleton es e ih =>
    rw [List.foldl_append, List.foldl_cons, List.foldl_nil, get?_insert] at h
    split at h
    case isTrue hk =>
      obtain rfl := Option.some.inj h
      simp [hk]
    case isFalse => exact List.mem_append_left _ (ih h)

theorem exists_get?_ofList (hk : (k, a) ∈ es) : ∃ b, (ofList es).get? k = some b := by
  unfold ofList
  induction es using List.reverseRecOn with
  | nil => cases hk
  | append_singleton es e ih =>
    rw [List.foldl_append, List.foldl_cons, List.foldl_nil, get?_insert]
    split
    case isTrue => exact ⟨_, rfl⟩
    case isFalse hne =>
      rcases List.mem_append.1 hk with hk | hk
      · exact ih hk
      · exact absurd (congrArg Prod.fst (List.mem_singleton.1 hk)) hne

-- Where no key comes twice, everything is registered, and in order.
theorem entries_ofList (h : (es.map (·.1)).Nodup) : (ofList es).entries = es := by
  unfold ofList
  induction es using List.reverseRecOn with
  | nil => rfl
  | append_singleton es e ih =>
    rw [List.map_append, List.nodup_append] at h
    obtain ⟨hes, -, hne⟩ := h
    have ih := ih hes
    rw [List.foldl_append, List.foldl_cons, List.foldl_nil, insert]
    split
    case isTrue hin =>
      obtain ⟨b, hb⟩ := contains_iff.1 hin
      rw [get?_eq_some, ih] at hb
      exact absurd rfl (hne e.1 (List.mem_map.2 ⟨_, hb, rfl⟩) e.1 (by simp))
    case isFalse => simp [ih]

theorem length_ofList_le (es : List (κ × α)) : (ofList es).entries.length ≤ es.length := by
  unfold ofList
  induction es using List.reverseRecOn with
  | nil => exact Nat.le_refl _
  | append_singleton es e ih =>
    rw [List.foldl_append, List.foldl_cons, List.foldl_nil, insert, List.length_append]
    split
    case isTrue => simpa [modify] using Nat.le_succ_of_le ih
    case isFalse => simpa using ih

end OfList

end CrewRoster.Registry
